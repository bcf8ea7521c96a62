import ConsentGate.Calendar.IsoReader
import ConsentGate.Proofs.Number.Numerals
import Mathlib.Data.List.Basic

/-! A text of year and month is no timestamp.

It is as long as a week date without its day, and is taken for a date as a whole; but behind the month
the day is missing (`readTimestamp_monthText`). -/
namespace ConsentGate.Calendar
open Number Text
set_option autoImplicit false
-- Powers are those of the core library, also where Mathlib knows others.
attribute [local instance (high)] instPowNat

theorem isDigit_padDigits {width n : Nat} {c : Char} (h : c ∈ padDigits width n) :
    c.isDigit = true := by
  rcases List.mem_append.mp h with hzero | hdigit
  · exact isDigit_replicate hzero
  · exact isDigit_toDigits hdigit

theorem length_padDigits {width n : Nat} (hwidth : 0 < width) (hn : n < 10 ^ width) :
    (padDigits width n).length = width := by
  have hlength := (Nat.length_toDigits_le_iff (b := 10) (by omega) hwidth).mpr hn
  rw [padDigits, List.length_append, List.length_replicate]
  omega

/-- As many digits as are wanted can be read, and they give the number that they write. -/
theorem takeNumber?_digits {ds : List Char} (h : ∀ c ∈ ds, c.isDigit = true) (rest : List Char)
    (acc : Nat) : takeNumber? ds.length (ds ++ rest) acc = some (Nat.ofDigitChars 10 ds acc, rest) := by
  induction ds generalizing acc with
  | nil => rfl
  | cons c ds ih =>
    have hc : '0' ≤ c ∧ c ≤ '9' := by
      have hdigit := h c List.mem_cons_self
      rwa [Char.isDigit, Bool.and_eq_true, decide_eq_true_eq, decide_eq_true_eq] at hdigit
    rw [List.length_cons, List.cons_append, takeNumber?, asciiDigit?, if_pos hc]
    exact ih (fun d hd => h d (List.mem_cons_of_mem c hd)) (10 * acc + (c.toNat - 48))

theorem spellOutZ_of_not_mem {s : List Char} (h : 'Z' ∉ s) : spellOutZ s = s := by
  induction s with
  | nil => rfl
  | cons c s ih =>
    rw [List.mem_cons, not_or] at h
    have hc : c ≠ 'Z' := fun hz => h.1 hz.symm
    rw [spellOutZ, List.flatMap_cons, if_neg hc]
    exact congrArg (c :: ·) (ih h.2)

theorem readDate?_monthText (d : Date) : readDate? d.monthText = none := by
  have hyearDigits : ∀ c ∈ padDigits 4 d.year, c.isDigit = true := fun c => isDigit_padDigits
  have hmonthDigits : ∀ c ∈ padDigits 2 d.month, c.isDigit = true := fun c => isDigit_padDigits
  have hyear : (padDigits 4 d.year).length = 4 :=
    length_padDigits (by omega) (Nat.lt_of_le_of_lt d.valid.2.1 (by decide))
  have hmonth : (padDigits 2 d.month).length = 2 :=
    length_padDigits (by omega) (Nat.lt_of_le_of_lt d.valid.2.2.2.1 (by decide))
  have hyear' := takeNumber?_digits hyearDigits ('-' :: padDigits 2 d.month) 0
  have hmonth' := takeNumber?_digits hmonthDigits [] 0
  rw [hyear] at hyear'
  rw [hmonth, List.append_nil] at hmonth'
  obtain ⟨a, b, hab⟩ := List.length_eq_two.mp hmonth
  have hW : a ≠ 'W' := by
    rintro rfl
    have hdigit := hmonthDigits 'W' (by rw [hab]; exact List.mem_cons_self)
    exact absurd hdigit (by decide)
  rw [hab] at hyear' hmonth'
  rw [Date.monthText, hab, readDate?, hyear']
  simp only [List.drop_one, takeDash?, decide_eq_true_eq, Option.bind_eq_bind, Option.pure_def,
    Option.bind_some, List.head?_cons, if_true, List.tail_cons]
  split
  · rename_i hweek
    exact absurd (List.cons.inj hweek).1 hW
  · rw [hmonth']
    rfl

/-- Year and month alone are not read as a timestamp. -/
theorem readTimestamp_monthText (d : Date) :
    readTimestamp (spellOutZ (trim d.monthText)) = .error .malformed := by
  have hchars : ∀ c ∈ d.monthText, c.isDigit = true ∨ c = '-' := by
    intro c hc
    rcases List.mem_append.mp hc with hc | hc
    · exact Or.inl (isDigit_padDigits hc)
    rcases List.mem_cons.mp hc with hc | hc
    · exact Or.inr hc
    · exact Or.inl (isDigit_padDigits hc)
  have hblank : ∀ c ∈ d.monthText, isBlank c = false := by
    intro c hc
    rcases hchars c hc with hdigit | rfl
    · exact isBlank_of_isDigit hdigit
    · decide
  have hZ : 'Z' ∉ d.monthText := by
    intro hmem
    rcases hchars 'Z' hmem with hdigit | hdash
    · exact absurd hdigit (by decide)
    · cases hdash
  have hlength : d.monthText.length = 7 := by
    rw [Date.monthText, List.length_append, List.length_cons,
      length_padDigits (by omega) (Nat.lt_of_le_of_lt d.valid.2.1 (by decide)),
      length_padDigits (by omega) (Nat.lt_of_le_of_lt d.valid.2.2.2.1 (by decide))]
  have hfields : readFields? d.monthText = none := by
    have htake : d.monthText.take 7 = d.monthText := List.take_of_length_le (by omega)
    have hdateLength : dateLength d.monthText = some 7 := by
      rw [dateLength, hlength]
      rfl
    rw [readFields?, hlength, hdateLength]
    simp [htake, readDate?_monthText]
  rw [trim_of_not_blank hblank, spellOutZ_of_not_mem hZ, readTimestamp, hfields]

end ConsentGate.Calendar
