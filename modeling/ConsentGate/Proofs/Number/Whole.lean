import ConsentGate.Proofs.Number.Order

/-! Numbers that are whole.

What a floating-point number or a decimal is as an integer is the integer that it equals, and it is none
only if there is no such integer: nothing is rounded (`Binary64.toInt?_eq_some_iff`,
`Decimal.toInt?_eq_some_iff`). -/
namespace ConsentGate.Number
set_option autoImplicit false
-- Powers are those of the core library, also where Mathlib knows others.
attribute [local instance (high)] instPowNat

variable {n : ℤ}

/-- A number equals an integer exactly. -/
def Quantity.Equals (x : Quantity) (n : ℤ) : Prop := ∃ a, x.scaled? = some a ∧ a.value = n

theorem Quantity.equals_whole {m : ℤ} : (whole m).Equals n ↔ m = n := by
  constructor
  · rintro ⟨a, ⟨⟩, hvalue⟩
    simpa [Scaled.value] using hvalue
  · rintro rfl
    exact ⟨_, rfl, by simp [Scaled.value]⟩

theorem lt_length_toDigits (k : ℕ) : k < (Nat.toDigits 10 (10 ^ k)).length := by
  rcases Nat.eq_zero_or_pos k with rfl | hk
  · exact Nat.length_toDigits_pos
  · exact Nat.lt_of_not_le fun hle =>
      Nat.lt_irrefl _ ((Nat.length_toDigits_le_iff (by decide) hk).mp hle)

theorem div_eq_intCast_iff {p : ℤ} {d : ℕ} (hd : 0 < d) : (p / d : ℚ) = n ↔ p = n * d := by
  have hd' : (d : ℚ) ≠ 0 := by positivity
  rw [div_eq_iff hd']
  exact_mod_cast Iff.rfl

/-! ## Floating-point numbers -/

namespace Binary64

variable {x : Binary64}

theorem ratio?_den_pos {p : ℤ} {d : ℕ} (h : x.ratio? = some (p, d)) : 0 < d := by
  cases x with
  | finite negative m e =>
    cases h
    exact Nat.two_pow_pos _
  | _ => cases h

theorem equals_iff_ratio {p : ℤ} {d : ℕ} (h : x.ratio? = some (p, d)) :
    (Quantity.float x).Equals n ↔ p = n * d := by
  have hscaled : (Quantity.float x).scaled? = some ⟨p, d, 0⟩ := by
    rw [Quantity.scaled?, scaled?, h]
    rfl
  rw [Quantity.Equals, hscaled, ← div_eq_intCast_iff (ratio?_den_pos h)]
  simp [Scaled.value]

theorem toInt?_eq_some_iff : x.toInt? = some n ↔ (Quantity.float x).Equals n := by
  cases hratio : x.ratio? with
  | none =>
    have hscaled : (Quantity.float x).scaled? = none := by
      rw [Quantity.scaled?, scaled?, hratio]
      rfl
    rw [toInt?, hratio, Quantity.Equals, hscaled]
    simp
  | some r =>
    obtain ⟨p, d⟩ := r
    have hd : (d : ℤ) ≠ 0 := by exact_mod_cast (ratio?_den_pos hratio).ne'
    rw [equals_iff_ratio hratio, toInt?, hratio]
    dsimp only
    split
    · rename_i hdivides
      rw [Option.some.injEq, Int.ediv_eq_iff_eq_mul_left hd (Int.dvd_of_emod_eq_zero hdivides)]
    · rename_i hrest
      refine iff_of_false (Option.some_ne_none n).symm ?_
      rintro rfl
      exact hrest (Int.mul_emod_left n d)

end Binary64

/-! ## Decimals -/

namespace Decimal

variable {negative : Bool} {c : ℕ} {e : ℤ}

theorem equals_iff : (Quantity.decimal (.finite negative c e)).Equals n ↔
    places negative c * 10 ^ e.toNat = n * 10 ^ (-e).toNat := by
  have hpow : (10 : ℚ) ^ e = (10 ^ e.toNat : ℕ) / (10 ^ (-e).toNat : ℕ) := by
    exact_mod_cast zpow_eq_div (b := 10) (by decide) e
  have hscaled : (Quantity.decimal (.finite negative c e)).scaled? =
      some ⟨places negative c, 1, e⟩ := rfl
  rw [Quantity.Equals, hscaled]
  simp only [Option.some.injEq, exists_eq_left', Scaled.value, Nat.cast_one, div_one, hpow]
  rw [← mul_div_assoc, ← Int.cast_natCast (10 ^ e.toNat), ← Int.cast_mul,
    div_eq_intCast_iff (Nat.pow_pos (by decide))]
  push_cast
  rfl

theorem natAbs_places (negative : Bool) (c : ℕ) : (places negative c).natAbs = c := by
  cases negative
  · exact Int.natAbs_natCast c
  · exact (Int.natAbs_neg _).trans (Int.natAbs_natCast c)

theorem places_mul (negative : Bool) (k c : ℕ) :
    places negative (10 ^ k * c) = places negative c * 10 ^ k := by
  cases negative
  · simp [places, mul_comm]
  · simp [places, mul_comm]

/-- The places of a whole decimal hold zeros only. -/
theorem coefficient_eq (h : places negative c * 10 ^ e.toNat = n * 10 ^ (-e).toNat)
    (hplaces : 0 < (-e).toNat) : c = n.natAbs * 10 ^ (-e).toNat := by
  have hpower : e.toNat = 0 := by omega
  rw [hpower, pow_zero, mul_one] at h
  rw [← natAbs_places negative c, h, Int.natAbs_mul, Int.natAbs_pow]
  rfl

/-- Of whole decimals only zero has as many places as digits. -/
theorem eq_zero_of_length_le (h : places negative c * 10 ^ e.toNat = n * 10 ^ (-e).toNat)
    (hlength : (Nat.toDigits 10 c).length ≤ (-e).toNat) : c = 0 := by
  have hdigits : 0 < (Nat.toDigits 10 c).length := Nat.length_toDigits_pos
  have hc := coefficient_eq h (by omega)
  have hless := (Nat.length_toDigits_le_iff (by decide) (by omega)).mp hlength
  rcases Nat.eq_zero_or_pos n.natAbs with hn | hn
  · rw [hc, hn, Nat.zero_mul]
  · have hgreat := Nat.le_mul_of_pos_left (10 ^ (-e).toNat) hn
    omega

theorem toInt?_eq_some_iff {d : Decimal} : d.toInt? = some n ↔ (Quantity.decimal d).Equals n := by
  cases d with
  | infinite negative => simp [toInt?, Quantity.Equals, Quantity.scaled?, scaled?]
  | nan negative signaling payload => simp [toInt?, Quantity.Equals, Quantity.scaled?, scaled?]
  | finite negative c e =>
    have hunit : (10 : ℤ) ^ (-e).toNat ≠ 0 := by positivity
    rw [equals_iff, toInt?]
    dsimp only
    split
    · rename_i hzero
      have hnone : places negative c = 0 := by
        rw [← Int.natAbs_eq_zero, natAbs_places, hzero]
      rw [hnone, zero_mul, Option.some.injEq, eq_comm (a := (0 : ℤ)), eq_comm (a := (0 : ℤ)),
        mul_eq_zero, or_iff_left hunit]
    · rename_i hne
      split
      · rename_i hlength
        exact iff_of_false (Option.some_ne_none n).symm fun h => hne (eq_zero_of_length_le h hlength)
      · split
        · rename_i hzeros
          obtain ⟨q, rfl⟩ := Nat.dvd_of_mod_eq_zero hzeros
          have hmade : ((10 ^ (-e).toNat * q : ℕ) : ℤ) / 10 ^ (-e).toNat = q := by
            rw [Nat.cast_mul, Nat.cast_pow, Nat.cast_ofNat, Int.mul_ediv_cancel_left _ hunit]
          have hsign : (if negative = true then -((q : ℤ) * 10 ^ e.toNat) else q * 10 ^ e.toNat) =
              places negative q * 10 ^ e.toNat := by
            cases negative
            · rfl
            · exact (Int.neg_mul _ _).symm
          rw [Option.some.injEq, hmade, hsign, places_mul, mul_right_comm, mul_left_inj' hunit]
        · rename_i hrest
          refine iff_of_false (Option.some_ne_none n).symm fun h => ?_
          rcases Nat.eq_zero_or_pos (-e).toNat with hnone | hplaces
          · rw [hnone] at hrest
            exact hrest (Nat.mod_one c)
          · rw [coefficient_eq h hplaces] at hrest
            exact hrest (Nat.mul_mod_left _ _)

end Decimal

end ConsentGate.Number
