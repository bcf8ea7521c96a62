import ConsentGate.Number.Quantity
import ConsentGate.Proofs.Number.Rounding
import Mathlib.Order.WithBot

/-! The order among numbers of every kind.

Finite numbers are compared as the rationals that they are (`Scaled.lt_iff`): the comparison by sizes
agrees, since a size is near the number's logarithm. With the infinities at both ends, numbers are then
ordered as their ranks are (`Quantity.le_iff`), so that their order is transitive. -/
namespace ConsentGate.Number
set_option autoImplicit false
-- Powers are those of the core library, also where Mathlib knows others.
attribute [local instance (high)] instPowNat

namespace Scaled

/-! ## Finite numbers -/

/-- The rational number that is meant. -/
def value (x : Scaled) : ℚ := x.numerator / x.denominator * (10 : ℚ) ^ x.exponent

variable {x y : Scaled}

theorem exists_value_eq (hx : 0 < x.denominator) :
    ∃ k : ℚ, 0 < k ∧ x.value = x.numerator * k := by
  have hden : (0 : ℚ) < x.denominator := by exact_mod_cast hx
  exact ⟨10 ^ x.exponent / x.denominator, by positivity, by rw [value]; ring⟩

theorem value_pos_iff (hx : 0 < x.denominator) : 0 < x.value ↔ 0 < x.numerator := by
  obtain ⟨k, hk, hvalue⟩ := exists_value_eq hx
  rw [hvalue, mul_pos_iff_of_pos_right hk, Int.cast_pos]

theorem value_neg_iff (hx : 0 < x.denominator) : x.value < 0 ↔ x.numerator < 0 := by
  obtain ⟨k, hk, hvalue⟩ := exists_value_eq hx
  rw [hvalue, ← zero_mul k, mul_lt_mul_iff_left₀ hk, Int.cast_lt_zero]

/-- The size is off by one power of ten at most. -/
theorem size_bounds (hx : 0 < x.denominator) (hne : x.numerator ≠ 0) :
    (10 : ℚ) ^ (x.size - 1) < |x.value| ∧ |x.value| < (10 : ℚ) ^ (x.size + 1) := by
  obtain ⟨s, hs, hlow, hhigh⟩ := Binary64.length_toDigits_spec (Int.natAbs_pos.mpr hne)
  obtain ⟨t, ht, hlow', hhigh'⟩ := Binary64.length_toDigits_spec hx
  have hsize : x.size = (s : ℤ) - t + x.exponent := by
    rw [size, hs, ht]
    omega
  have habs : |x.value| = (x.numerator.natAbs / x.denominator : ℚ) * (10 : ℚ) ^ x.exponent := by
    rw [value, abs_mul, abs_div, Nat.abs_cast, abs_of_pos (by positivity : (0 : ℚ) < 10 ^ x.exponent),
      Nat.cast_natAbs, Int.cast_abs]
  have hpow : ∀ i j : ℕ, ((10 ^ i : ℕ) / (10 ^ j : ℕ) : ℚ) * 10 ^ x.exponent =
      (10 : ℚ) ^ ((i : ℤ) - j + x.exponent) := by
    intro i j
    rw [zpow_add₀ (by norm_num), zpow_sub₀ (by norm_num), zpow_natCast, zpow_natCast, Nat.cast_pow,
      Nat.cast_pow, Nat.cast_ofNat]
  have hden : (0 : ℚ) < x.denominator := by exact_mod_cast hx
  rw [habs, hsize]
  constructor
  · have hexponent : (s : ℤ) - t + x.exponent - 1 = s - (t + 1 : ℕ) + x.exponent := by omega
    rw [hexponent, ← hpow, mul_lt_mul_iff_left₀ (by positivity)]
    exact div_lt_div₀' (by exact_mod_cast hlow) (by exact_mod_cast hhigh') (by positivity) hden
  · have hexponent : (s : ℤ) - t + x.exponent + 1 = (s + 1 : ℕ) - t + x.exponent := by omega
    rw [hexponent, ← hpow, mul_lt_mul_iff_left₀ (by positivity)]
    exact div_lt_div₀ (by exact_mod_cast hhigh) (by exact_mod_cast hlow') (by positivity)
      (by positivity)

/-- Numbers whose sizes are two apart have absolute values in the order of the sizes. -/
theorem abs_lt_of_size (hx : 0 < x.denominator) (hy : 0 < y.denominator) (hnex : x.numerator ≠ 0)
    (hney : y.numerator ≠ 0) (h : x.size + 2 ≤ y.size) : |x.value| < |y.value| := by
  calc |x.value| < (10 : ℚ) ^ (x.size + 1) := (size_bounds hx hnex).2
    _ ≤ (10 : ℚ) ^ (y.size - 1) := zpow_le_zpow_right₀ (by norm_num) (by omega)
    _ < |y.value| := (size_bounds hy hney).1

/-- Close numbers are compared exactly, both multiplied by their denominators and by a power of ten. -/
theorem lt_of_close (hx : 0 < x.denominator) (hy : 0 < y.denominator) :
    x.numerator * 10 ^ (x.exponent - y.exponent).toNat * y.denominator <
        y.numerator * 10 ^ (-(x.exponent - y.exponent)).toNat * x.denominator ↔
      x.value < y.value := by
  have hdenx : (0 : ℚ) < x.denominator := by exact_mod_cast hx
  have hdeny : (0 : ℚ) < y.denominator := by exact_mod_cast hy
  have hpowy : (0 : ℚ) < (10 : ℚ) ^ y.exponent := by positivity
  have hshift := zpow_eq_div (b := 10) (by norm_num) (x.exponent - y.exponent)
  rw [Nat.cast_ofNat, zpow_sub₀ (by norm_num), div_eq_iff hpowy.ne'] at hshift
  rw [value, value, hshift, ← mul_assoc, mul_lt_mul_iff_left₀ hpowy, div_mul_div_comm,
    div_lt_div_iff₀ (by positivity) hdeny, ← Int.cast_lt (R := ℚ)]
  push_cast
  rw [mul_right_comm, mul_right_comm (y.numerator : ℚ), mul_assoc (y.numerator : ℚ)]

theorem lt_iff_pos_of_abs_lt {a b : ℚ} (h : |a| < |b|) : a < b ↔ 0 < b := by
  constructor
  · intro hlt
    by_contra hnot
    rw [abs_of_nonpos (not_lt.mp hnot)] at h
    have hlow := neg_abs_le a
    linarith
  · intro hpos
    rw [abs_of_pos hpos] at h
    exact (le_abs_self a).trans_lt h

theorem ltSameSign_iff (hx : 0 < x.denominator) (hy : 0 < y.denominator) (hne : x.numerator ≠ 0)
    (hney : y.numerator ≠ 0) : x.ltSameSign y = true ↔ x.value < y.value := by
  unfold ltSameSign
  split
  · rename_i hsize
    have habs := abs_lt_of_size hx hy hne hney hsize
    rw [decide_eq_true_eq, ← value_pos_iff hy, lt_iff_pos_of_abs_lt habs]
  · split
    · rename_i hsize
      have habs := abs_lt_of_size hy hx hney hne hsize
      rw [← abs_neg x.value, ← abs_neg y.value] at habs
      rw [decide_eq_true_eq, ← value_neg_iff hx, ← neg_pos, ← lt_iff_pos_of_abs_lt habs,
        neg_lt_neg_iff]
    · rw [decide_eq_true_eq, lt_of_close hx hy]

theorem lt_of_sign_lt (hx : 0 < x.denominator) (hy : 0 < y.denominator)
    (h : x.numerator.sign < y.numerator.sign) : x.value < y.value := by
  rcases lt_trichotomy x.numerator 0 with hneg | hzero | hpos
  · refine ((value_neg_iff hx).mpr hneg).trans_le (not_lt.mp fun hnegy => ?_)
    rw [Int.sign_eq_neg_one_of_neg hneg,
      Int.sign_eq_neg_one_of_neg ((value_neg_iff hy).mp hnegy)] at h
    exact lt_irrefl _ h
  · rw [hzero, Int.sign_zero, Int.sign_pos_iff] at h
    have hvalue : x.value = 0 := by simp [value, hzero]
    rw [hvalue]
    exact (value_pos_iff hy).mpr h
  · rw [Int.sign_eq_one_of_pos hpos] at h
    have hsign := Int.sign_trichotomy y.numerator
    omega

theorem lt_iff (hx : 0 < x.denominator) (hy : 0 < y.denominator) :
    x.lt y = true ↔ x.value < y.value := by
  unfold lt
  split
  · rename_i hsigns
    rw [decide_eq_true_eq]
    refine ⟨lt_of_sign_lt hx hy, fun hlt => lt_of_le_of_ne (not_lt.mp fun hsign => ?_) hsigns⟩
    exact lt_asymm hlt (lt_of_sign_lt hy hx hsign)
  · rename_i hsigns
    have hsame : x.numerator.sign = y.numerator.sign := not_not.mp hsigns
    split
    · rename_i hzero
      have hzeroy : y.numerator = 0 := by simpa [hzero] using hsame.symm
      simp [value, hzero, hzeroy]
    · rename_i hne
      refine ltSameSign_iff hx hy hne fun hzeroy => hne ?_
      simpa [hzeroy] using hsame

end Scaled

/-! ## All numbers -/

namespace Quantity

/-- Where a number stands between the infinities. -/
def rank (x : Quantity) : WithBot (WithTop ℚ) :=
  match x.scaled? with
  | some a => ((a.value : WithTop ℚ) : WithBot (WithTop ℚ))
  | none => if x.isInfinite true then ⊥ else ((⊤ : WithTop ℚ) : WithBot (WithTop ℚ))

variable {x y z : Quantity}

/-- A number is finite, or one of the infinities, or none at all. -/
theorem forms (x : Quantity) :
    (∃ a, x.scaled? = some a ∧ 0 < a.denominator ∧ ∀ b, x.isInfinite b = false) ∨
      (x.scaled? = none ∧ ∃ negative, ∀ b, x.isInfinite b = (negative == b)) ∨ x.isNan = true := by
  cases x with
  | whole n => exact Or.inl ⟨_, rfl, Nat.one_pos, fun b => rfl⟩
  | float x =>
    cases x with
    | nan => exact Or.inr (Or.inr rfl)
    | infinite negative => exact Or.inr (Or.inl ⟨rfl, negative, fun b => rfl⟩)
    | finite negative m e => exact Or.inl ⟨_, rfl, Nat.two_pow_pos _, fun b => rfl⟩
  | decimal d =>
    cases d with
    | nan negative signaling payload => exact Or.inr (Or.inr rfl)
    | infinite negative => exact Or.inr (Or.inl ⟨rfl, negative, fun b => rfl⟩)
    | finite negative coefficient exponent => exact Or.inl ⟨_, rfl, Nat.one_pos, fun b => rfl⟩

theorem rank_of_scaled {a : Scaled} (h : x.scaled? = some a) :
    x.rank = ((a.value : WithTop ℚ) : WithBot (WithTop ℚ)) := by
  rw [rank, h]

theorem lt_of_scaled {a b : Scaled} (hx : x.scaled? = some a) (hy : y.scaled? = some b)
    (ha : 0 < a.denominator) (hb : 0 < b.denominator) : x.lt y = true ↔ a.value < b.value := by
  unfold lt
  split
  · cases hx
    cases hy
    simp [Scaled.value]
  · rw [hx, hy]
    exact Scaled.lt_iff ha hb

theorem lt_of_infinite (h : x.scaled? = none ∨ y.scaled? = none) (hx : x.isNan = false)
    (hy : y.isNan = false) : x.lt y =
      ((x.isInfinite true && !y.isInfinite true) || (y.isInfinite false && !x.isInfinite false)) := by
  unfold lt
  split
  · rcases h with h | h <;> cases h
  · split
    · rename_i ha hb
      rw [ha, hb] at h
      rcases h with h | h <;> cases h
    · rw [hx, hy]
      rfl

/-- Numbers are ordered as their ranks are. -/
theorem lt_iff (hx : x.isNan = false) (hy : y.isNan = false) :
    x.lt y = true ↔ x.rank < y.rank := by
  rcases forms x with ⟨a, hax, ha, hfinite⟩ | ⟨hax, n, hinfinite⟩ | hnan
  · rcases forms y with ⟨b, hby, hb, _⟩ | ⟨hby, m, hinfinite⟩ | hnan
    · rw [lt_of_scaled hax hby ha hb, rank_of_scaled hax, rank_of_scaled hby, WithBot.coe_lt_coe,
        WithTop.coe_lt_coe]
    · rw [lt_of_infinite (Or.inr hby) hx hy, hfinite, hfinite, hinfinite, hinfinite,
        rank_of_scaled hax, rank, hby, hinfinite]
      have hbelow : ((a.value : WithTop ℚ) : WithBot (WithTop ℚ)) <
          ((⊤ : WithTop ℚ) : WithBot (WithTop ℚ)) :=
        WithBot.coe_lt_coe.mpr (WithTop.coe_lt_top _)
      cases m
      · simpa using hbelow
      · simp
    · rw [hy] at hnan
      cases hnan
  · rcases forms y with ⟨b, hby, hb, hfinite⟩ | ⟨hby, m, hinfinite'⟩ | hnan
    · rw [lt_of_infinite (Or.inl hax) hx hy, hfinite, hfinite, hinfinite, hinfinite,
        rank_of_scaled hby, rank, hax, hinfinite]
      cases n <;> simp
    · rw [lt_of_infinite (Or.inl hax) hx hy, hinfinite, hinfinite, hinfinite', hinfinite', rank, hax,
        rank, hby, hinfinite, hinfinite']
      cases n <;> cases m <;> simp
    · rw [hy] at hnan
      cases hnan
  · rw [hx] at hnan
    cases hnan

theorem le_iff : x.le y = true ↔ x.isNan = false ∧ y.isNan = false ∧ x.rank ≤ y.rank := by
  unfold le
  rw [Bool.and_eq_true, Bool.and_eq_true, Bool.not_eq_true', Bool.not_eq_true', Bool.not_eq_true',
    and_assoc]
  refine and_congr_right fun hx => and_congr_right fun hy => ?_
  rw [← not_lt, ← lt_iff hy hx, Bool.not_eq_true]

theorem le_trans (hxy : x.le y = true) (hyz : y.le z = true) : x.le z = true := by
  obtain ⟨hx, _, hle⟩ := le_iff.mp hxy
  obtain ⟨_, hz, hle'⟩ := le_iff.mp hyz
  exact le_iff.mpr ⟨hx, hz, hle.trans hle'⟩

theorem le_of_le? (h : x.le? y = .ok true) : x.le y = true := by
  unfold le? at h
  split at h
  · cases h
  · exact Except.ok.inj h

theorem lt_of_le? (h : x.le? y = .ok false) (hx : x.isNan = false) (hy : y.isNan = false) :
    y.lt x = true := by
  unfold le? at h
  split at h
  · cases h
  · have hle := Except.ok.inj h
    simpa [le, hx, hy] using hle

/-! ## Sums with whole numbers -/

theorem isNan_round (negative : Bool) (num den : ℕ) :
    isNan (.float (Binary64.round negative num den)) = false := by
  unfold Binary64.round
  dsimp only
  split_ifs <;> rfl

theorem isNan_roundInt (negative : Bool) (num : ℤ) (den : ℕ) :
    isNan (.float (Binary64.roundInt negative num den)) = false := by
  unfold Binary64.roundInt
  split
  · rfl
  · exact isNan_round _ _ _

theorem isNan_rounded {negative : Bool} {coefficient : ℕ} {exponent : ℤ} {d : Decimal}
    (h : Decimal.rounded negative coefficient exponent = .ok d) : isNan (.decimal d) = false := by
  unfold Decimal.rounded at h
  dsimp only at h
  split_ifs at h <;> cases h <;> rfl

theorem isNan_add_float {x y : Binary64} (hy : isNan (.float y) = false)
    (hfinite : ∀ negative, y ≠ .infinite negative) :
    isNan (.float (x.add y)) = isNan (.float x) := by
  cases y with
  | nan => cases hy
  | infinite negative => exact absurd rfl (hfinite negative)
  | finite negative m e =>
    cases x with
    | nan => rfl
    | infinite negative => rfl
    | finite negative' m' e' => exact isNan_roundInt _ _ _

theorem isNan_add_decimal {d sum : Decimal} {n : ℤ} (h : d.add (.ofInt n) = .ok sum) :
    isNan (.decimal sum) = isNan (.decimal d) := by
  cases d with
  | nan negative signaling payload =>
    cases signaling <;> cases h
    rfl
  | infinite negative =>
    cases h
    rfl
  | finite negative coefficient exponent =>
    unfold Decimal.add Decimal.ofInt at h
    dsimp only at h
    split at h
    · exact isNan_rounded h
    · split at h
      · exact isNan_rounded h
      · split at h <;> exact isNan_rounded h

/-- A sum with a whole number is a number exactly if the other part is one. -/
theorem isNan_of_add_whole {n : ℤ} {sum : Quantity} (h : x.add (.whole n) = .ok sum) :
    sum.isNan = x.isNan := by
  cases x with
  | whole m =>
    cases h
    rfl
  | float x =>
    simp only [add, toFloat?] at h
    obtain ⟨_, ⟨⟩, h⟩ := bind_eq_ok.mp h
    obtain ⟨y, hy, h⟩ := bind_eq_ok.mp h
    cases h
    split at hy
    · cases hy
    · rename_i hfinite
      cases hy
      exact isNan_add_float (isNan_round _ _ _) hfinite
  | decimal d =>
    simp only [add, addDecimal] at h
    cases hadd : d.add (.ofInt n) with
    | error trouble =>
      rw [hadd] at h
      cases h
    | ok e =>
      rw [hadd] at h
      cases h
      exact isNan_add_decimal hadd

end Quantity

end ConsentGate.Number
