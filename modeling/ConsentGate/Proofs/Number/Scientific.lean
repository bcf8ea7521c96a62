import ConsentGate.Proofs.Number.Numerals

/-! What the parts of a decimal numeral write.

A numeral with a whole part, places after a point and an exponent is read as one coefficient, made of all
its digits, and a power of ten (`readScientific?_parts`). So every text that a floating-point number has
can be read again (`exists_read?_text`). -/
namespace ConsentGate.Number
open Text
set_option autoImplicit false

/-! ## Digits -/

/-- Nothing, or a character that is no digit. -/
def StartsNoDigit (rest : List Char) : Prop := ∀ c more, rest = c :: more → digitValue? c = none

theorem startsNoDigit_cons {c : Char} {rest : List Char} (h : digitValue? c = none) :
    StartsNoDigit (c :: rest) := by
  rintro d more ⟨⟩
  exact h

theorem takeDigits_append {ds rest : List Char} (hds : ∀ c ∈ ds, c.isDigit = true)
    (hrest : StartsNoDigit rest) :
    takeDigits (ds ++ rest) = (ds.map fun c => c.toNat - 48, rest) := by
  induction ds with
  | nil =>
    cases rest with
    | nil => rfl
    | cons c more =>
      rw [List.nil_append, takeDigits, hrest c more rfl]
      rfl
  | cons c ds ih =>
    have hc := digitValue?_of_isDigit (hds c List.mem_cons_self)
    have hothers := ih fun d hd => hds d (List.mem_cons_of_mem c hd)
    rw [List.cons_append, takeDigits, hc]
    dsimp only
    rw [hothers]
    rfl

theorem takeDigits_of_digits {ds : List Char} (hds : ∀ c ∈ ds, c.isDigit = true) :
    takeDigits ds = (ds.map fun c => c.toNat - 48, []) := by
  have h : takeDigits (ds ++ []) = _ := takeDigits_append hds fun c more hc => nomatch hc
  rwa [List.append_nil] at h

/-! ## Numerals -/

theorem exists_takeDigits {ds : List Char} (h : IsDigits ds) :
    ∃ d rest, takeDigits ds = (d :: rest, []) ∧ ofDigits (d :: rest) = digitsNumber ds := by
  obtain ⟨c, more, rfl⟩ := List.exists_cons_of_ne_nil h.1
  exact ⟨_, _, takeDigits_of_digits h.2, rfl⟩

/-- The digits of a numeral make its coefficient, and the places count against its exponent. -/
theorem readScientific?_parts {whole fraction exponent : List Char}
    (h : IsNumber [] whole fraction exponent) :
    readScientific? (whole ++ fraction ++ exponent) =
      some (digitsNumber (whole ++ fraction.drop 1),
        exponentNumber exponent - (fraction.drop 1).length) := by
  obtain ⟨hwhole, d, more, hcons, _⟩ := h.whole
  have hne : whole ≠ [] := by simp [hcons]
  have hpoint : ∀ rest, StartsNoDigit ('.' :: rest) := fun rest => startsNoDigit_cons (by decide)
  have hmark : ∀ rest, StartsNoDigit ('e' :: rest) := fun rest => startsNoDigit_cons (by decide)
  rcases h.exponent with rfl | ⟨mark, es, rfl, hsign, hes⟩
  · rcases h.fraction with rfl | ⟨places, rfl, _, hplaces⟩
    · simp [readScientific?, takeDigits_of_digits hwhole, hne, digitsNumber, exponentNumber]
    · have htake := takeDigits_append hwhole (hpoint places)
      simp [readScientific?, htake, takeDigits_of_digits hplaces, hne, digitsNumber, exponentNumber]
  · obtain ⟨n, ns, htakeExponent, hnumber⟩ := exists_takeDigits hes
    have hexponent : ∀ c, c = '+' ∨ c = '-' →
        readScientific? (whole ++ fraction ++ 'e' :: c :: es) =
          some (digitsNumber (whole ++ fraction.drop 1),
            exponentNumber ('e' :: c :: es) - (fraction.drop 1).length) := by
      intro c hc
      rcases h.fraction with rfl | ⟨places, rfl, _, hplaces⟩
      · have htake := takeDigits_append hwhole (hmark (c :: es))
        rcases hc with rfl | rfl
        · simp [readScientific?, htake, takeSign, htakeExponent, hnumber, hne, digitsNumber,
            exponentNumber]
        · simp [readScientific?, htake, takeSign, htakeExponent, hnumber, hne, digitsNumber,
            exponentNumber]
      · have htake := takeDigits_append hwhole (hpoint (places ++ 'e' :: c :: es))
        have htakePlaces := takeDigits_append hplaces (hmark (c :: es))
        rcases hc with rfl | rfl
        · simp [readScientific?, htake, htakePlaces, takeSign, htakeExponent, hnumber, hne,
            digitsNumber, exponentNumber]
        · simp [readScientific?, htake, htakePlaces, takeSign, htakeExponent, hnumber, hne,
            digitsNumber, exponentNumber]
    rcases hsign with rfl | rfl
    · exact hexponent '+' (Or.inl rfl)
    · exact hexponent '-' (Or.inr rfl)

/-! ## Floating-point numbers -/

/-- A text that begins with a digit is neither signed nor a name. -/
theorem read?_of_digit {d : Char} {more : List Char} (hd : d.isDigit = true) (negative : Bool) :
    jsonFloat.read? ((if negative then ['-'] else []) ++ d :: more) =
      (readScientific? (d :: more)).map fun (c, k) => Binary64.ofDecimal negative c k := by
  have hne : ∀ c, c.isDigit = false → d ≠ c := by
    rintro c hc rfl
    rw [hc] at hd
    cases hd
  have hnan := hne 'N' (by decide)
  have hinfinity := hne 'I' (by decide)
  have hsign : takeSign (d :: more) = (false, d :: more) := by
    unfold takeSign
    split
    · rename_i h
      exact absurd (List.cons.inj h).1 (hne '-' (by decide))
    · rename_i h
      exact absurd (List.cons.inj h).1 (hne '+' (by decide))
    · rfl
  cases negative with
  | false => simp [FloatLayout.read?, jsonFloat, hnan, hinfinity, hsign]
  | true => simp [FloatLayout.read?, jsonFloat, hinfinity, takeSign]

/-- The text of a finite number is read by its digits. -/
theorem read?_text_finite (negative : Bool) (m : Nat) (e : Int) :
    jsonFloat.read? (jsonFloat.text (.finite negative m e)) =
      (readScientific? (jsonFloat.magnitude m e)).map fun (c, k) =>
        Binary64.ofDecimal negative c k := by
  obtain ⟨whole, fraction, exponent, htext, hnumber, _, _⟩ := exists_magnitude m e
  obtain ⟨hdigits, d, more, rfl, _⟩ := hnumber.whole
  have hd := hdigits d List.mem_cons_self
  rw [FloatLayout.text, htext, List.cons_append, List.cons_append, read?_of_digit hd]

/-- Every text that a number has can be read. -/
theorem exists_read?_text (x : Binary64) : ∃ y, jsonFloat.read? (jsonFloat.text x) = some y := by
  cases x with
  | nan => exact ⟨.nan, rfl⟩
  | infinite negative =>
    refine ⟨.infinite negative, ?_⟩
    cases negative <;> decide
  | finite negative m e =>
    obtain ⟨whole, fraction, exponent, htext, hnumber, _, _⟩ := exists_magnitude m e
    rw [read?_text_finite, htext, readScientific?_parts hnumber]
    exact ⟨_, rfl⟩

end ConsentGate.Number
