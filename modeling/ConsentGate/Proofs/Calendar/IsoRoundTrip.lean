import ConsentGate.Proofs.Calendar.Instants
import ConsentGate.Proofs.Calendar.MonthText

/-! What is written in ISO 8601 is read back.

The reader takes the ten characters of a written date for the date (`dateLength_isoText`), reads a time to
the last digit that is written (`readTime?_isoText`), and finds the sign of the offset, which is the first
one behind the date. So a timestamp is read from its own text (`readTimestamp_isoText`), except that an
offset under a second is lost, and a date is read as its midnight (`readTimestamp_isoText_date`). -/
namespace ConsentGate.Calendar
open Number Text
set_option autoImplicit false
-- Powers are those of the core library, also where Mathlib knows others.
attribute [local instance (high)] instPowNat

/-! ## Numbers of fixed width -/

theorem digitsNumber_padDigits (width n : Nat) : digitsNumber (padDigits width n) = n := by
  rw [padDigits, digitsNumber_zeros_append, digitsNumber_toDigits]

theorem takeNumber?_padDigits {width n : Nat} (hwidth : 0 < width) (hn : n < 10 ^ width)
    (rest : List Char) : takeNumber? width (padDigits width n ++ rest) 0 = some (n, rest) := by
  have hdigits : ∀ c ∈ padDigits width n, c.isDigit = true := fun c => isDigit_padDigits
  have htake := takeNumber?_digits hdigits rest 0
  rw [length_padDigits hwidth hn, ← digitsNumber_eq] at htake
  rw [htake, digitsNumber_padDigits]

theorem takeNumber?_padDigits_end {width n : Nat} (hwidth : 0 < width) (hn : n < 10 ^ width) :
    takeNumber? width (padDigits width n) 0 = some (n, []) := by
  simpa using takeNumber?_padDigits hwidth hn []

theorem padDigits_ne_nil (width n : Nat) : padDigits width n ≠ [] := by
  simp [padDigits, Nat.toDigits_ne_nil]

theorem exists_padDigits_two {n : Nat} (hn : n < 10 ^ (2 : Nat)) :
    ∃ a b, padDigits 2 n = [a, b] ∧ a ≠ 'W' := by
  have hlength : (padDigits 2 n).length = 2 := length_padDigits (by omega) hn
  obtain ⟨a, b, hab⟩ := List.length_eq_two.mp hlength
  refine ⟨a, b, hab, ?_⟩
  rintro rfl
  have hmem : 'W' ∈ padDigits 2 n := by simp [hab]
  exact absurd (isDigit_padDigits hmem) (by decide)

/-! ## Dates -/

theorem Date.parts_lt (d : Date) :
    d.year < 10 ^ (4 : Nat) ∧ d.month < 10 ^ (2 : Nat) ∧ d.day < 10 ^ (2 : Nat) := by
  obtain ⟨-, hyear, -, hmonth, -, hday⟩ := d.valid
  have hdays : daysInMonth d.year d.month ≤ 31 := by
    unfold daysInMonth
    split <;> split <;> omega
  rw [lastYear] at hyear
  omega

theorem Date.length_isoText (d : Date) : d.isoText.length = 10 := by
  obtain ⟨hyear, hmonth, hday⟩ := d.parts_lt
  have hy := length_padDigits (by omega) hyear
  have hm := length_padDigits (by omega) hmonth
  have hd := length_padDigits (by omega) hday
  simp [Date.isoText, hy, hm, hd]

theorem dateLength_isoText (d : Date) (tail : List Char) :
    dateLength (d.isoText ++ tail) = some 10 := by
  obtain ⟨hyear, hmonth, -⟩ := d.parts_lt
  obtain ⟨y₁, y₂, y₃, y₄, hy⟩ := List.length_eq_four.mp (length_padDigits (by omega) hyear)
  obtain ⟨m₁, m₂, hm, hW⟩ := exists_padDigits_two hmonth
  have hlength : d.isoText.length + tail.length ≠ 7 := by
    rw [d.length_isoText]
    omega
  have hdash : (d.isoText ++ tail)[4]? = some '-' := by simp [Date.isoText, hy]
  have hdigit : (d.isoText ++ tail)[5]? = some m₁ := by simp [Date.isoText, hy, hm]
  simp [dateLength, hlength, hdash, hdigit, hW]

theorem readDate?_isoText (d : Date) : readDate? d.isoText = some (d.year, d.month, d.day) := by
  obtain ⟨hyear, hmonth, hday⟩ := d.parts_lt
  obtain ⟨m₁, m₂, hm, hW⟩ := exists_padDigits_two hmonth
  rw [Date.isoText, readDate?, takeNumber?_padDigits (by omega) hyear]
  simp only [Option.bind_eq_bind, Option.bind_some, List.head?_cons, if_true, List.drop_one, List.tail_cons]
  split
  · rename_i hweek
    rw [hm] at hweek
    exact absurd (List.cons.inj hweek).1 hW
  · have htake := takeNumber?_padDigits (by omega) hmonth
    have hend := takeNumber?_padDigits_end (by omega) hday
    simp [htake, takeDash?, hend]

/-! ## Times -/

theorem afterNumber?_colon (next : Char) {s : List Char} (h : s ≠ []) :
    afterNumber? true next (':' :: s) = some (.number s) := by
  cases s with
  | nil => exact absurd rfl h
  | cons c s => rfl

theorem afterNumber?_point (colons : Bool) (next : Char) {s : List Char} (h : s ≠ []) :
    afterNumber? colons next ('.' :: s) = some (.fraction s) := by
  cases s with
  | nil => exact absurd rfl h
  | cons c s => cases colons <;> rfl

theorem readFraction?_padDigits (next : Char) {n : Nat} (hn : n < 10 ^ (6 : Nat)) (t : TimeFields) :
    readFraction? next (padDigits 6 n) t =
      some { t with microsecond := n, leftover := next != endMark } := by
  have hlength := length_padDigits (by omega) hn
  have hend := takeNumber?_padDigits_end (by omega) hn
  simp [readFraction?, hlength, hend]

theorem TimeOfDay.parts_lt (t : TimeOfDay) :
    t.hour < 10 ^ (2 : Nat) ∧ t.minute < 10 ^ (2 : Nat) ∧ t.second < 10 ^ (2 : Nat) ∧
      t.microsecond < 10 ^ (6 : Nat) := by
  obtain ⟨hhour, hminute, hsecond, hmicro⟩ := t.valid
  omega

def TimeOfDay.fields (t : TimeOfDay) (leftover : Bool) : TimeFields :=
  ⟨t.hour, t.minute, t.second, t.microsecond, leftover⟩

/-- Hour and minute are enough where there is nothing behind them. -/
theorem readTime?_minutes {t : TimeOfDay} (hsecond : t.second = 0) (hmicro : t.microsecond = 0)
    (next : Char) : readTime? next (padDigits 2 t.hour ++ ':' :: padDigits 2 t.minute) =
      some (t.fields (next != endMark)) := by
  obtain ⟨hhour, hminute, -⟩ := t.parts_lt
  have htake := takeNumber?_padDigits (by omega) hhour
  have hend := takeNumber?_padDigits_end (by omega) hminute
  simp [readTime?, htake, hend, padDigits_ne_nil, afterNumber?, TimeOfDay.fields, hsecond, hmicro]

theorem readTime?_isoText (t : TimeOfDay) (next : Char) :
    readTime? next t.isoText = some (t.fields (next != endMark)) := by
  obtain ⟨hhour, hminute, hsecond, hmicro⟩ := t.parts_lt
  have htake := takeNumber?_padDigits (by omega) hhour
  have htake' := takeNumber?_padDigits (by omega) hminute
  rw [TimeOfDay.isoText, microsText]
  split
  · rename_i hzero
    have hend := takeNumber?_padDigits_end (by omega) hsecond
    simp [readTime?, htake, htake', hend, padDigits_ne_nil, afterNumber?, TimeOfDay.fields, hzero]
  · have hlast := takeNumber?_padDigits (by omega) hsecond
    have hfraction := readFraction?_padDigits next hmicro
    simp [readTime?, htake, htake', hlast, afterNumber?_colon, padDigits_ne_nil, afterNumber?_point,
      hfraction, TimeOfDay.fields]

/-! ## Offsets -/

namespace Offset

variable (o : Offset)

def distance : TimeOfDay := TimeOfDay.ofMicros o.micros.natAbs

theorem micros_distance : o.distance.micros = o.micros.natAbs := by
  refine TimeOfDay.micros_ofMicros ?_
  obtain ⟨hlow, hhigh⟩ := o.valid
  rw [dayMicros]
  omega

/-- The reader takes an offset of less than a second for none. -/
def IsRead : Prop := o.micros = 0 ∨ 1000000 ≤ o.micros.natAbs

theorem offsetMicros_distance {o : Offset} (h : o.IsRead) (leftover : Bool) :
    offsetMicros (o.micros < 0) (o.distance.fields leftover) = o.micros := by
  have hmicros := o.micros_distance
  obtain ⟨-, -, -, hmicro⟩ := o.distance.valid
  rw [TimeOfDay.micros] at hmicros
  unfold IsRead at h
  have hseconds : (if ((o.distance.hour * 60 + o.distance.minute) * 60 + o.distance.second : Int) = 0
      then 0
      else ((o.distance.hour * 60 + o.distance.minute) * 60 + o.distance.second : Int) * 1000000 +
        o.distance.microsecond) = o.micros.natAbs := by
    split <;> omega
  simp only [offsetMicros, TimeOfDay.fields, decide_eq_true_eq]
  split <;> omega

/-- Behind its sign an offset is written like a time of day, but for seconds where there are none. -/
theorem exists_isoText : ∃ sign s, o.isoText = sign :: s ∧ (sign = '-' ∨ sign = '+') ∧
    decide (sign = '-') = decide (o.micros < 0) ∧ readTime? endMark s = some (o.distance.fields false) := by
  refine ⟨_, _, rfl, ?_, ?_, ?_⟩
  · exact ite_eq_or_eq _ _ _
  · by_cases hneg : o.micros < 0 <;> simp [hneg]
  · split
    · rename_i hzero
      rw [List.append_nil]
      exact readTime?_minutes hzero.1 hzero.2 endMark
    · have hread := readTime?_isoText o.distance endMark
      simp only [List.append_assoc, List.cons_append, TimeOfDay.isoText] at hread ⊢
      exact hread

end Offset

/-! ## Characters -/

section Characters

variable {P : Char → Prop} (hdigit : ∀ c, c.isDigit = true → P c)
include hdigit

theorem forall_mem_padDigits (width n : Nat) : ∀ c ∈ padDigits width n, P c :=
  fun c hc => hdigit c (isDigit_padDigits hc)

theorem Date.forall_mem_isoText (hdash : P '-') (d : Date) : ∀ c ∈ d.isoText, P c := by
  have hdigits := forall_mem_padDigits hdigit
  simp only [Date.isoText, List.forall_mem_append, List.forall_mem_cons]
  exact ⟨hdigits _ _, hdash, hdigits _ _, hdash, hdigits _ _⟩

theorem forall_mem_microsText (hpoint : P '.') (n : Nat) : ∀ c ∈ microsText n, P c := by
  unfold microsText
  split
  · simp
  · exact List.forall_mem_cons.mpr ⟨hpoint, forall_mem_padDigits hdigit _ _⟩

theorem TimeOfDay.forall_mem_isoText (hcolon : P ':') (hpoint : P '.') (t : TimeOfDay) :
    ∀ c ∈ t.isoText, P c := by
  have hdigits := forall_mem_padDigits hdigit
  simp only [TimeOfDay.isoText, List.forall_mem_append, List.forall_mem_cons]
  exact ⟨⟨hdigits _ _, hcolon, hdigits _ _, hcolon, hdigits _ _⟩, forall_mem_microsText hdigit hpoint _⟩

theorem Offset.forall_mem_isoText (hplus : P '+') (hdash : P '-') (hcolon : P ':') (hpoint : P '.')
    (o : Offset) : ∀ c ∈ o.isoText, P c := by
  have hdigits := forall_mem_padDigits hdigit
  simp only [Offset.isoText, List.forall_mem_append, List.forall_mem_cons]
  refine ⟨?_, ⟨hdigits _ _, hcolon, hdigits _ _⟩, ?_⟩
  · split <;> assumption
  · split
    · simp
    · simp only [List.cons_append, List.forall_mem_append, List.forall_mem_cons]
      exact ⟨hcolon, hdigits _ _, forall_mem_microsText hdigit hpoint _⟩

end Characters

theorem plain_of_isDigit {c : Char} (h : c.isDigit = true) : isBlank c = false ∧ c ≠ 'Z' := by
  refine ⟨isBlank_of_isDigit h, ?_⟩
  rintro rfl
  exact absurd h (by decide)

theorem Date.plain_isoText (d : Date) : ∀ c ∈ d.isoText, isBlank c = false ∧ c ≠ 'Z' :=
  d.forall_mem_isoText (fun _ => plain_of_isDigit) (by decide)

/-- A written timestamp has no blanks, and no Z that would be spelled out. -/
theorem Timestamp.plain_isoText (t : Timestamp) : ∀ c ∈ t.isoText, isBlank c = false ∧ c ≠ 'Z' := by
  have hdigit : ∀ c : Char, c.isDigit = true → isBlank c = false ∧ c ≠ 'Z' := fun _ => plain_of_isDigit
  simp only [Timestamp.isoText, Timestamp.textWith, List.forall_mem_append, List.forall_mem_cons]
  refine ⟨⟨t.date.plain_isoText, by decide,
    t.time.forall_mem_isoText hdigit (by decide) (by decide)⟩, ?_⟩
  cases t.offset with
  | none => simp
  | some o => exact o.forall_mem_isoText hdigit (by decide) (by decide) (by decide) (by decide)

/-! ## Timestamps -/

def offsetText : Option Offset → List Char
  | some o => o.isoText
  | none => []

/-- A time is written without signs, so the first sign behind it is that of the offset. -/
theorem takeWhile_isoText (t : TimeOfDay) (s : List Char) :
    (t.isoText ++ s).takeWhile (fun c => c != '+' && c != '-' && c != 'Z') =
      t.isoText ++ s.takeWhile (fun c => c != '+' && c != '-' && c != 'Z') := by
  refine List.takeWhile_append_of_pos (t.forall_mem_isoText (fun c hc => ?_) (by decide) (by decide))
  have hne : ∀ d : Char, d.isDigit = false → c ≠ d := by
    rintro d hd rfl
    rw [hd] at hc
    cases hc
  simp [hne '+' (by decide), hne '-' (by decide), hne 'Z' (by decide)]

theorem readTimeAndOffset?_sign (t : TimeOfDay) {sign : Char} (hsign : sign = '-' ∨ sign = '+')
    {s : List Char} {o : TimeFields} (hread : readTime? endMark s = some o) (ho : o.leftover = false) :
    readTimeAndOffset? (t.isoText ++ sign :: s) =
      some (t.fields true, some (offsetMicros (sign = '-') o)) := by
  have hmark : ('-' != endMark) = true ∧ ('+' != endMark) = true := by decide
  rcases hsign with rfl | rfl <;>
    simp [readTimeAndOffset?, takeWhile_isoText, readTime?_isoText, hread, ho, hmark]

theorem readTimeAndOffset?_isoText (t : TimeOfDay) {offset : Option Offset}
    (h : ∀ o, offset = some o → o.IsRead) : ∃ leftover,
    readTimeAndOffset? (t.isoText ++ offsetText offset) =
      some (t.fields leftover, offset.map Offset.micros) := by
  cases offset with
  | none =>
    have hmain := takeWhile_isoText t []
    rw [List.takeWhile_nil, List.append_nil] at hmain
    exact ⟨false, by simp [readTimeAndOffset?, offsetText, hmain, readTime?_isoText, TimeOfDay.fields]⟩
  | some o =>
    obtain ⟨sign, s, hs, hsign, hneg, hread⟩ := o.exists_isoText
    refine ⟨true, ?_⟩
    rw [offsetText, hs, readTimeAndOffset?_sign t hsign hread rfl, hneg,
      Offset.offsetMicros_distance (h o rfl), Option.map_some]

theorem checkDate_date (d : Date) : checkDate d.year d.month d.day = .ok d := by
  obtain ⟨hyear, hlast, hmonth, htwelve, -⟩ := d.valid
  have hd : Date.ofCivil? d.year d.month d.day = some d := dif_pos d.valid
  rw [checkDate, if_neg (by omega), if_neg (by omega), hd]

theorem checkTime_fields (t : TimeOfDay) (leftover : Bool) : checkTime (t.fields leftover) = .ok t :=
  dif_pos t.valid

theorem checkOffset_micros (offset : Option Offset) :
    checkOffset (offset.map Offset.micros) = .ok offset := by
  cases offset with
  | none => rfl
  | some o => exact dif_pos o.valid

/-- A date is read with whatever can be read behind it. -/
theorem readFields?_isoText (d : Date) (tail : List Char) : readFields? (d.isoText ++ tail) =
    (readTail? tail).map fun t => ((d.year, d.month, d.day), t.1, t.2) := by
  have htake : (d.isoText ++ tail).take 10 = d.isoText := List.take_left' d.length_isoText
  have hdrop : (d.isoText ++ tail).drop 10 = tail := List.drop_left' d.length_isoText
  have hlength : ¬d.isoText.length + tail.length < 7 := by
    rw [d.length_isoText]
    omega
  rw [readFields?, List.length_append, if_neg hlength, dateLength_isoText]
  simp only [Option.bind_eq_bind, Option.bind_some, htake, hdrop, readDate?_isoText]
  cases readTail? tail <;> rfl

theorem readTimestamp_isoText {t : Timestamp} (h : ∀ o, t.offset = some o → o.IsRead) :
    readTimestamp t.isoText = .ok t := by
  obtain ⟨leftover, hread⟩ := readTimeAndOffset?_isoText t.time h
  have htext : t.isoText = t.date.isoText ++ 'T' :: (t.time.isoText ++ offsetText t.offset) := by
    simp only [Timestamp.isoText, Timestamp.textWith, List.append_assoc, List.cons_append]
    rfl
  rw [htext, readTimestamp, readFields?_isoText, readTail?, hread, Option.map_some]
  simp only [checkOffset_micros, checkDate_date, checkTime_fields]
  rfl

theorem readTimestamp_isoText_date (d : Date) : readTimestamp d.isoText = .ok (Timestamp.ofDate d) := by
  have hread := readFields?_isoText d []
  rw [List.append_nil] at hread
  rw [readTimestamp, hread, readTail?, Option.map_some]
  simp only [checkDate_date]
  rfl

end ConsentGate.Calendar
