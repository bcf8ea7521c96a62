import ConsentGate.Number.FloatText
import ConsentGate.Proofs.Text.Letters
import ConsentGate.Value.JsonReader

/-! Numerals that are written can be read.

An integer is read back from its digits (`readInt?_intDigits`). The text of a floating-point number is a
JSON number with a fraction or an exponent (`exists_numberParts`), so nobody takes it for an integer or
for a part of what follows, and its parts write the digits that were found for the number
(`exists_magnitude`). -/
namespace ConsentGate.Number
open Text
set_option autoImplicit false
-- Powers are those of the core library, also where Mathlib knows others.
attribute [local instance (high)] instPowNat

/-! ## Digits -/

theorem isDigit_iff {c : Char} : c.isDigit = true ↔ 48 ≤ c.toNat ∧ c.toNat ≤ 57 := by
  rw [Char.isDigit, Bool.and_eq_true, decide_eq_true_eq, decide_eq_true_eq, ge_iff_le,
    UInt32.le_iff_toNat_le, UInt32.le_iff_toNat_le]
  exact Iff.rfl

theorem digitValue?_of_isDigit {c : Char} (h : c.isDigit = true) :
    digitValue? c = some (c.toNat - 48) := by
  obtain ⟨hlow, hhigh⟩ := isDigit_iff.mp h
  have hfirst : (decide (48 ≤ c.toNat) && decide (c.toNat < 48 + 10)) = true := by simp; omega
  simp only [digitValue?, digitZeros, List.find?_cons, hfirst, Option.map_some]

theorem isBlank_of_isDigit {c : Char} (h : c.isDigit = true) : isBlank c = false := by
  obtain ⟨hlow, hhigh⟩ := isDigit_iff.mp h
  simp [isBlank, blankRanges, CodeRanges.has]
  omega

theorem isDigit_toDigits {n : Nat} {c : Char} (h : c ∈ Nat.toDigits 10 n) : c.isDigit = true :=
  Nat.isDigit_of_mem_toDigits (by omega) (by omega) h

/-- Digits that do not begin with a zero, unless they are a zero alone. -/
def IsWhole (ds : List Char) : Prop :=
  (∀ c ∈ ds, c.isDigit = true) ∧ ∃ d rest, ds = d :: rest ∧ (d = '0' → rest = [])

theorem head_toDigits_ne_zero {n : Nat} (hn : n ≠ 0) :
    ∃ d rest, Nat.toDigits 10 n = d :: rest ∧ d ≠ '0' := by
  induction n using Nat.strongRecOn with
  | ind n ih =>
    rw [Nat.toDigits_eq_if (by omega)]
    split
    · rename_i hsmall
      refine ⟨_, [], rfl, ?_⟩
      have hdigit : ∀ d, d < 10 → d ≠ 0 → Nat.digitChar d ≠ '0' := by decide
      exact hdigit n hsmall hn
    · obtain ⟨d, rest, hdigits, hd⟩ := ih (n / 10) (by omega) (by omega)
      exact ⟨d, rest ++ [Nat.digitChar (n % 10)], by rw [hdigits, List.cons_append], hd⟩

theorem isWhole_toDigits (n : Nat) : IsWhole (Nat.toDigits 10 n) := by
  refine ⟨fun c => isDigit_toDigits, ?_⟩
  by_cases hn : n = 0
  · exact ⟨'0', [], by rw [hn]; rfl, fun _ => rfl⟩
  · obtain ⟨d, rest, hdigits, hd⟩ := head_toDigits_ne_zero hn
    exact ⟨d, rest, hdigits, fun h => absurd h hd⟩

/-! ## Integers -/

theorem groupedDigits?_of_digits {ds : List Char} (h : ∀ c ∈ ds, c.isDigit = true) (hne : ds ≠ []) :
    groupedDigits? ds = some (ds.map fun c => c.toNat - 48) := by
  induction ds with
  | nil => exact absurd rfl hne
  | cons c rest ih =>
    have hc := digitValue?_of_isDigit (h c List.mem_cons_self)
    cases rest with
    | nil => simp [groupedDigits?, hc]
    | cons d rest =>
      have hd := h d (List.mem_cons_of_mem c List.mem_cons_self)
      have hunderscore : d ≠ '_' := by
        rintro rfl
        exact absurd hd (by decide)
      have hrest := ih (fun x hx => h x (List.mem_cons_of_mem c hx)) (List.cons_ne_nil d rest)
      rw [groupedDigits?, hc, hrest]
      · rfl
      · simp
      · rintro _ ⟨⟩
        exact hunderscore rfl

theorem ofDigits_toDigits (n : Nat) :
    ofDigits ((Nat.toDigits 10 n).map fun c => c.toNat - 48) = n := by
  have h := Nat.ofDigitChars_toDigits (b := 10) (n := n) (by omega) (by omega)
  rw [Nat.ofDigitChars_eq_foldl] at h
  rw [ofDigits, List.foldl_map]
  exact h

/-- The number that digits write. -/
def digitsNumber (ds : List Char) : Nat := ofDigits (ds.map fun c => c.toNat - 48)

theorem digitsNumber_eq (ds : List Char) : digitsNumber ds = Nat.ofDigitChars 10 ds 0 := by
  rw [digitsNumber, ofDigits, List.foldl_map, Nat.ofDigitChars_eq_foldl]
  rfl

@[simp] theorem digitsNumber_toDigits (n : Nat) : digitsNumber (Nat.toDigits 10 n) = n :=
  ofDigits_toDigits n

@[simp] theorem digitsNumber_append_zeros (ds : List Char) (n : Nat) :
    digitsNumber (ds ++ List.replicate n '0') = digitsNumber ds * 10 ^ n := by
  rw [digitsNumber_eq, digitsNumber_eq, Nat.ofDigitChars_append, Nat.ofDigitChars_replicate_zero,
    Nat.mul_comm]

@[simp] theorem digitsNumber_zeros_append (ds : List Char) (n : Nat) :
    digitsNumber (List.replicate n '0' ++ ds) = digitsNumber ds := by
  rw [digitsNumber_eq, digitsNumber_eq, Nat.ofDigitChars_append, Nat.ofDigitChars_replicate_zero,
    Nat.mul_zero]

theorem takeSign_of_digits {ds : List Char} (h : ∀ c ∈ ds, c.isDigit = true) :
    takeSign ds = (false, ds) := by
  cases ds with
  | nil => rfl
  | cons c rest =>
    have hc := h c List.mem_cons_self
    unfold takeSign
    split
    · rename_i hminus
      cases hminus
      exact absurd hc (by decide)
    · rename_i hplus
      cases hplus
      exact absurd hc (by decide)
    · rfl

/-- The digits of an integer, after a minus sign if it is negative. -/
theorem readInt?_intDigits {n : Int} (hshort : (Nat.toDigits 10 n.natAbs).length ≤ digitLimit) :
    readInt? (intDigits n) = some n := by
  have hdigits : ∀ c ∈ Nat.toDigits 10 n.natAbs, c.isDigit = true := fun c => isDigit_toDigits
  have hblank : ∀ c ∈ intDigits n, isBlank c = false := by
    intro c hc
    unfold intDigits at hc
    split at hc
    · rcases List.mem_cons.mp hc with rfl | hc
      · decide
      · exact isBlank_of_isDigit (hdigits c hc)
    · exact isBlank_of_isDigit (hdigits c hc)
  have hgroup := groupedDigits?_of_digits hdigits Nat.toDigits_ne_nil
  unfold readInt?
  rw [trim_of_not_blank hblank, intDigits]
  by_cases hn : n < 0
  · simp only [if_pos hn, takeSign, hgroup, List.length_map, if_neg (Nat.not_lt.mpr hshort),
      ofDigits_toDigits, if_true]
    congr 1
    omega
  · simp only [if_neg hn, takeSign_of_digits hdigits, hgroup, List.length_map,
      if_neg (Nat.not_lt.mpr hshort), ofDigits_toDigits, Bool.false_eq_true, if_false]
    congr 1
    omega

theorem writeInt?_eq_some {n : Int} {s : List Char} (h : writeInt? n = some s) :
    s = intDigits n ∧ (Nat.toDigits 10 n.natAbs).length ≤ digitLimit := by
  unfold writeInt? at h
  dsimp only at h
  split at h
  · cases h
  · rename_i hshort
    exact ⟨(Option.some.inj h).symm, Nat.not_lt.mp hshort⟩

/-! ## Floating-point numbers -/

/-- Digits, one at least. -/
def IsDigits (ds : List Char) : Prop := ds ≠ [] ∧ ∀ c ∈ ds, c.isDigit = true

/-- The parts of a JSON number. -/
structure IsNumber (sign whole fraction exponent : List Char) : Prop where
  sign : sign = [] ∨ sign = ['-']
  whole : IsWhole whole
  fraction : fraction = [] ∨ ∃ ds, fraction = '.' :: ds ∧ IsDigits ds
  exponent : exponent = [] ∨ ∃ mark ds, exponent = 'e' :: (mark ++ ds) ∧
    (mark = ['+'] ∨ mark = ['-']) ∧ IsDigits ds

theorem isDigits_toDigits (n : Nat) : IsDigits (Nat.toDigits 10 n) :=
  ⟨Nat.toDigits_ne_nil, fun _ => isDigit_toDigits⟩

theorem IsDigits.append {ds es : List Char} (h : IsDigits ds) (hes : ∀ c ∈ es, c.isDigit = true) :
    IsDigits (es ++ ds) := by
  refine ⟨by simp [h.1], ?_⟩
  intro c hc
  rcases List.mem_append.mp hc with hc | hc
  · exact hes c hc
  · exact h.2 c hc

theorem isDigit_replicate {k : Nat} {c : Char} (h : c ∈ List.replicate k '0') : c.isDigit = true := by
  rw [(List.mem_replicate.mp h).2]
  decide

theorem isDigits_zero : IsDigits ['0'] := ⟨List.cons_ne_nil _ _, by simp⟩

theorem isWhole_zero : IsWhole ['0'] := ⟨isDigits_zero.2, '0', [], rfl, fun _ => rfl⟩

theorem isWhole_append {ds es : List Char} (hds : ∀ c ∈ ds, c.isDigit = true)
    (hhead : ∃ d rest, ds = d :: rest ∧ d ≠ '0') (hes : ∀ c ∈ es, c.isDigit = true) :
    IsWhole (ds ++ es) := by
  obtain ⟨d, rest, rfl, hd⟩ := hhead
  refine ⟨?_, d, rest ++ es, rfl, fun h => absurd h hd⟩
  intro c hc
  rcases List.mem_append.mp hc with hc | hc
  · exact hds c hc
  · exact hes c hc

theorem DecimalDigits.strip_ne_zero (fuel : Nat) (d : DecimalDigits) (h : d.coefficient ≠ 0) :
    (d.strip fuel).coefficient ≠ 0 := by
  induction fuel generalizing d with
  | zero => exact h
  | succ fuel ih =>
    rw [DecimalDigits.strip]
    split
    · exact ih _ (by dsimp only; omega)
    · exact h

theorem Binary64.onGrid?_ne_zero {m n : Nat} {e : Int} {d : DecimalDigits}
    (h : onGrid? m e n = some d) : d.coefficient ≠ 0 := by
  unfold onGrid? at h
  dsimp only at h
  split at h
  · rename_i hlow
    cases h
    simp only [Bool.and_eq_true, decide_eq_true_eq] at hlow
    exact hlow.1.1
  · split at h
    · cases h
      exact Nat.succ_ne_zero _
    · cases h

theorem Binary64.shortest_ne_zero {m : Nat} (e : Int) (hm : m ≠ 0) :
    (shortest m e).coefficient ≠ 0 := by
  unfold shortest
  split
  · rename_i d hd
    obtain ⟨n, _, hn⟩ := List.exists_of_findSome?_eq_some hd
    exact d.strip_ne_zero 17 (onGrid?_ne_zero hn)
  · exact hm

/-- The power of ten that an exponent writes. -/
def exponentNumber : List Char → Int
  | 'e' :: '-' :: ds => -(digitsNumber ds : Int)
  | 'e' :: '+' :: ds => digitsNumber ds
  | _ => 0

/-- The parts write `coefficient · 10 ^ power`, perhaps with zeros after the digits. -/
def Writes (whole fraction exponent : List Char) (coefficient : Nat) (power : Int) : Prop :=
  ∃ zeros : Nat, digitsNumber (whole ++ fraction.drop 1) = coefficient * 10 ^ zeros ∧
    exponentNumber exponent - (fraction.drop 1).length = power - zeros

/-- Digits with a point among them. -/
theorem exists_withPoint {ds : List Char} (hds : ∀ c ∈ ds, c.isDigit = true)
    (hhead : ∃ d rest, ds = d :: rest ∧ d ≠ '0') (point : Int) :
    ∃ whole places, FloatLayout.withPoint ds point = whole ++ '.' :: places ∧ IsWhole whole ∧
      IsDigits places ∧ Writes whole ('.' :: places) [] (digitsNumber ds) (point - ds.length) := by
  have hne : ds ≠ [] := by
    obtain ⟨d, rest, rfl, _⟩ := hhead
    exact List.cons_ne_nil d rest
  unfold FloatLayout.withPoint
  split
  · refine ⟨['0'], _, rfl, isWhole_zero, ?_, 0, ?_, ?_⟩
    · exact IsDigits.append ⟨hne, hds⟩ fun c hc => isDigit_replicate hc
    · have hzeros := digitsNumber_zeros_append ds ((-point).toNat + 1)
      rw [List.replicate_succ] at hzeros
      simpa using hzeros
    · simp only [exponentNumber, List.drop_succ_cons, List.drop_zero, List.length_append,
        List.length_replicate]
      omega
  · rename_i hpositive
    split
    · rename_i hlong
      refine ⟨ds ++ List.replicate (point.toNat - ds.length) '0', ['0'], by simp,
        isWhole_append hds hhead fun c hc => isDigit_replicate hc, isDigits_zero,
        point.toNat - ds.length + 1, ?_, ?_⟩
      · have hzeros := digitsNumber_append_zeros ds (point.toNat - ds.length + 1)
        rw [List.replicate_succ'] at hzeros
        simpa using hzeros
      · simp only [exponentNumber, List.drop_succ_cons, List.drop_zero, List.length_cons,
          List.length_nil]
        omega
    · rename_i hinside
      refine ⟨_, _, rfl, ?_, ⟨?_, fun c hc => hds c (List.mem_of_mem_drop hc)⟩, 0, ?_, ?_⟩
      · obtain ⟨d, rest, rfl, hd⟩ := hhead
        have hpoint : point.toNat = (point.toNat - 1) + 1 := by omega
        refine ⟨fun c hc => hds c (List.mem_of_mem_take hc), d, rest.take (point.toNat - 1), ?_,
          fun h => absurd h hd⟩
        rw [hpoint, List.take_succ_cons]
        rfl
      · intro hnil
        have hlength := List.drop_eq_nil_iff.mp hnil
        omega
      · simp
      · simp only [exponentNumber, List.drop_succ_cons, List.drop_zero, List.length_drop]
        omega

theorem exponentNumber_exponentText (k : Int) : exponentNumber (jsonFloat.exponentText k) = k := by
  unfold FloatLayout.exponentText
  dsimp only
  rw [List.append_assoc]
  by_cases hk : k < 0
  · rw [if_pos hk]
    change -(digitsNumber (_ ++ _) : Int) = k
    rw [List.nil_append, digitsNumber_zeros_append, digitsNumber_toDigits]
    omega
  · rw [if_neg hk]
    change (digitsNumber (_ ++ _) : Int) = k
    rw [List.nil_append, digitsNumber_zeros_append, digitsNumber_toDigits]
    omega

/-- A digit and an exponent, perhaps with more digits after a point between them. -/
theorem exists_scientific (ds : List Char) (k : Int) :
    IsDigits ds → ∃ whole fraction exponent,
      (match ds with
        | [] => []
        | [c] => [c]
        | c :: rest => c :: '.' :: rest) ++ jsonFloat.exponentText k =
          whole ++ fraction ++ exponent ∧
        IsNumber [] whole fraction exponent ∧ exponent ≠ [] ∧
        Writes whole fraction exponent (digitsNumber ds) (k + 1 - ds.length) := by
  intro hds
  have hexponent : ∃ mark es, jsonFloat.exponentText k = 'e' :: (mark ++ es) ∧
      (mark = ['+'] ∨ mark = ['-']) ∧ IsDigits es := by
    refine ⟨if k < 0 then ['-'] else ['+'],
      List.replicate (2 - (Nat.toDigits 10 k.natAbs).length) '0' ++ Nat.toDigits 10 k.natAbs, ?_, ?_,
      (isDigits_toDigits k.natAbs).append fun c hc => isDigit_replicate hc⟩
    · unfold FloatLayout.exponentText
      dsimp only
      rw [List.append_assoc]
      rfl
    · split
      · exact Or.inr rfl
      · exact Or.inl rfl
  have hdigit : ∀ c ∈ ds, IsWhole [c] := by
    intro c hc
    exact ⟨by simpa using hds.2 c hc, c, [], rfl, fun _ => rfl⟩
  obtain ⟨mark, es, htext, hmark, hes⟩ := hexponent
  match ds, hds, hdigit with
  | [], hds, _ => exact absurd rfl hds.1
  | [c], _, hdigit =>
    refine ⟨[c], [], jsonFloat.exponentText k, rfl, ⟨Or.inl rfl, hdigit c (by simp), Or.inl rfl, ?_⟩,
      ?_, 0, ?_, ?_⟩
    · exact Or.inr ⟨mark, es, htext, hmark, hes⟩
    · rw [htext]
      exact List.cons_ne_nil _ _
    · simp
    · simp [exponentNumber_exponentText]
  | c :: d :: rest, hds, hdigit =>
    refine ⟨[c], '.' :: d :: rest, jsonFloat.exponentText k, rfl,
      ⟨Or.inl rfl, hdigit c (by simp), Or.inr ⟨_, rfl, ?_⟩, ?_⟩, ?_, 0, ?_, ?_⟩
    · exact ⟨List.cons_ne_nil d rest, fun x hx => hds.2 x (List.mem_cons_of_mem c hx)⟩
    · exact Or.inr ⟨mark, es, htext, hmark, hes⟩
    · rw [htext]
      exact List.cons_ne_nil _ _
    · simp
    · simp only [exponentNumber_exponentText, List.drop_succ_cons, List.drop_zero, List.length_cons]
      omega

/-- The text of a number without its sign; unless the number is zero, it writes the digits found. -/
theorem exists_magnitude (m : Nat) (e : Int) :
    ∃ whole fraction exponent, jsonFloat.magnitude m e = whole ++ fraction ++ exponent ∧
      IsNumber [] whole fraction exponent ∧ (fraction ≠ [] ∨ exponent ≠ []) ∧
      (m ≠ 0 → Writes whole fraction exponent (Binary64.shortest m e).coefficient
        (Binary64.shortest m e).exponent) := by
  unfold FloatLayout.magnitude
  split
  · rename_i hm
    exact ⟨['0'], ['.', '0'], [], rfl, ⟨Or.inl rfl, isWhole_zero, Or.inr ⟨['0'], rfl, isDigits_zero⟩,
      Or.inl rfl⟩, Or.inl (List.cons_ne_nil _ _), fun hne => absurd hm hne⟩
  · rename_i hm
    have hcoefficient := Binary64.shortest_ne_zero e hm
    dsimp only
    generalize Binary64.shortest m e = d at *
    split
    · obtain ⟨whole, places, htext, hwhole, hplaces, hwrites⟩ :=
        exists_withPoint (fun c => isDigit_toDigits) (head_toDigits_ne_zero hcoefficient)
          (d.exponent + (Nat.toDigits 10 d.coefficient).length)
      refine ⟨whole, '.' :: places, [], ?_, ⟨Or.inl rfl, hwhole, Or.inr ⟨places, rfl, hplaces⟩,
        Or.inl rfl⟩, Or.inl (by simp), fun _ => ?_⟩
      · rw [htext, List.append_nil]
      · rwa [digitsNumber_toDigits, Int.add_sub_cancel] at hwrites
    · obtain ⟨whole, fraction, exponent, htext, hnumber, hne, hwrites⟩ :=
        exists_scientific _ (d.exponent + (Nat.toDigits 10 d.coefficient).length - 1)
          (isDigits_toDigits d.coefficient)
      refine ⟨whole, fraction, exponent, htext, hnumber, Or.inr hne, fun _ => ?_⟩
      rwa [digitsNumber_toDigits, Int.sub_add_cancel, Int.add_sub_cancel] at hwrites

/-- The text of a finite number is a JSON number that is no integer. -/
theorem exists_numberParts (negative : Bool) (m : Nat) (e : Int) :
    ∃ sign whole fraction exponent,
      jsonFloat.text (.finite negative m e) = sign ++ whole ++ fraction ++ exponent ∧
        IsNumber sign whole fraction exponent ∧ (fraction ≠ [] ∨ exponent ≠ []) := by
  obtain ⟨whole, fraction, exponent, htext, hnumber, hne, _⟩ := exists_magnitude m e
  refine ⟨if negative then ['-'] else [], whole, fraction, exponent, ?_,
    ⟨?_, hnumber.whole, hnumber.fraction, hnumber.exponent⟩, hne⟩
  · rw [FloatLayout.text, htext, List.append_assoc, List.append_assoc, List.append_assoc]
  · cases negative
    · exact Or.inl rfl
    · exact Or.inr rfl

end ConsentGate.Number
