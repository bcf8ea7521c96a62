import ConsentGate.Number.Shortest
import Mathlib.Algebra.Order.Field.Basic
import Mathlib.Algebra.Order.Field.Power
import Mathlib.Data.Nat.Log
import Mathlib.Data.Rat.Cast.Order
import Mathlib.Tactic.Linarith
import Mathlib.Tactic.Positivity
import Mathlib.Tactic.NormNum
import Mathlib.Tactic.Ring
import Mathlib.Tactic.FieldSimp

/-! Rounding, seen from the number that is rounded to.

Every number stands for an interval of reals; whatever lies in the interval of a number is rounded to it
(`round_eq`). The interval is wide half the distance to the next number on either side, and a power of two
has its lower neighbour at half that distance. -/
namespace ConsentGate.Number
set_option autoImplicit false

/-! ## Powers -/

variable {b num den : ℕ}

/-- A power with an integer exponent is a fraction of two whole powers. -/
theorem zpow_eq_div (hb : 0 < b) (z : ℤ) :
    (b : ℚ) ^ z = (b ^ z.toNat : ℕ) / (b ^ (-z).toNat : ℕ) := by
  have hb' : (b : ℚ) ≠ 0 := by positivity
  rcases Int.le_total 0 z with hz | hz
  · obtain ⟨n, rfl⟩ := Int.eq_ofNat_of_zero_le hz
    simp
  · obtain ⟨n, hn⟩ := Int.eq_ofNat_of_zero_le (Int.neg_nonneg_of_nonpos hz)
    obtain rfl : z = -(n : ℤ) := by omega
    simp

theorem ratio_eq_mul_zpow (hb : 0 < b) (z : ℤ) :
    ((num * b ^ z.toNat : ℕ) / (b ^ (-z).toNat : ℕ) : ℚ) = num * (b : ℚ) ^ z := by
  rw [zpow_eq_div hb, Nat.cast_mul, mul_div_assoc]

theorem zpow_le_ratio (hb : 0 < b) (hden : 0 < den) (z : ℤ) :
    (b : ℚ) ^ z ≤ num / den ↔ den * b ^ z.toNat ≤ num * b ^ (-z).toNat := by
  have hpow : (0 : ℚ) < (b ^ (-z).toNat : ℕ) := by positivity
  rw [zpow_eq_div hb, div_le_div_iff₀ hpow (by positivity)]
  rw [mul_comm]
  exact_mod_cast Iff.rfl

theorem ratio_scaled (hb : 0 < b) (hden : 0 < den) (z : ℤ) :
    ((num * b ^ (-z).toNat : ℕ) / (den * b ^ z.toNat : ℕ) : ℚ) = num / den / (b : ℚ) ^ z := by
  have hb' : (b : ℚ) ≠ 0 := by positivity
  have hden' : (den : ℚ) ≠ 0 := by positivity
  rw [zpow_eq_div hb z]
  push_cast
  field_simp

/-! ## Logarithms -/

/-- The floor of a logarithm, from the sizes of numerator and denominator. -/
theorem floorLog_spec {s t : ℕ} (hb : 1 < b) (hnum : b ^ s ≤ num ∧ num < b ^ (s + 1))
    (hden : b ^ t ≤ den ∧ den < b ^ (t + 1)) {k : ℤ}
    (hk : k = if den * b ^ ((s : ℤ) - t).toNat ≤ num * b ^ (-((s : ℤ) - t)).toNat then (s : ℤ) - t
      else (s : ℤ) - t - 1) :
    (b : ℚ) ^ k ≤ num / den ∧ (num / den : ℚ) < (b : ℚ) ^ (k + 1) := by
  have hpos : 0 < b := by omega
  have hb' : (1 : ℚ) < b := by exact_mod_cast hb
  have hdenPos : 0 < den := (pow_pos hpos t).trans_le hden.1
  have hpow : ∀ i j : ℕ, (b : ℚ) ^ ((i : ℤ) - j) = (b ^ i : ℕ) / (b ^ j : ℕ) := by
    intro i j
    rw [zpow_sub₀ (by positivity), zpow_natCast, zpow_natCast, Nat.cast_pow, Nat.cast_pow]
  have hbelow : (b : ℚ) ^ ((s : ℤ) - t - 1) ≤ num / den := by
    have hexponent : (s : ℤ) - t - 1 = s - (t + 1 : ℕ) := by omega
    rw [hexponent, hpow]
    exact div_le_div₀ (by positivity) (by exact_mod_cast hnum.1) (by positivity)
      (by exact_mod_cast hden.2.le)
  have habove : (num / den : ℚ) < (b : ℚ) ^ ((s : ℤ) - t + 1) := by
    have hexponent : (s : ℤ) - t + 1 = (s + 1 : ℕ) - t := by omega
    rw [hexponent, hpow]
    exact div_lt_div₀ (by exact_mod_cast hnum.2) (by exact_mod_cast hden.1) (by positivity)
      (by positivity)
  rw [hk]
  split
  · rename_i hle
    exact ⟨(zpow_le_ratio hpos hdenPos _).mpr hle, habove⟩
  · rename_i hlt
    rw [← zpow_le_ratio hpos hdenPos, not_le] at hlt
    rw [sub_add_cancel]
    exact ⟨hbelow, hlt⟩

namespace Binary64

theorem floorLog2_spec (hnum : 0 < num) (hden : 0 < den) :
    (2 : ℚ) ^ floorLog2 num den ≤ num / den ∧
      (num / den : ℚ) < (2 : ℚ) ^ (floorLog2 num den + 1) := by
  have hspec := floorLog_spec (b := 2) (k := floorLog2 num den) (by omega)
    ⟨Nat.log2_self_le hnum.ne', Nat.lt_log2_self⟩ ⟨Nat.log2_self_le hden.ne', Nat.lt_log2_self⟩ ?_
  · exact_mod_cast hspec
  · unfold floorLog2
    simp only [decide_eq_true_eq]

theorem length_toDigits_spec {n : ℕ} (hn : 0 < n) :
    ∃ s, (Nat.toDigits 10 n).length = s + 1 ∧ 10 ^ s ≤ n ∧ n < 10 ^ (s + 1) := by
  obtain ⟨s, hs⟩ := Nat.exists_eq_succ_of_ne_zero
    (Nat.length_toDigits_pos (b := 10) (n := n)).ne'
  refine ⟨s, hs, ?_, ?_⟩
  · by_contra hlt
    rcases Nat.eq_zero_or_pos s with rfl | hpos
    · omega
    · have hle := (Nat.length_toDigits_le_iff (by omega) hpos).mpr (not_le.mp hlt)
      omega
  · exact (Nat.length_toDigits_le_iff (by omega) (by omega)).mp hs.le

theorem floorLog10_spec (hnum : 0 < num) (hden : 0 < den) :
    (10 : ℚ) ^ floorLog10 num den ≤ num / den ∧
      (num / den : ℚ) < (10 : ℚ) ^ (floorLog10 num den + 1) := by
  obtain ⟨s, hs, hsnum⟩ := length_toDigits_spec hnum
  obtain ⟨t, ht, htden⟩ := length_toDigits_spec hden
  have hspec := floorLog_spec (b := 10) (k := floorLog10 num den) (by omega) hsnum htden ?_
  · exact_mod_cast hspec
  · have hsize : ((s + 1 : ℕ) : ℤ) - (t + 1 : ℕ) = (s : ℤ) - t := by omega
    unfold floorLog10
    simp only [decide_eq_true_eq, hs, ht, hsize]

end Binary64

/-! ## The nearest integer -/

/-- The integer that a quotient is nearest to; an odd one must be nearer than any other. -/
theorem roundDiv_eq {q : ℕ} (hden : 0 < den) (hlow : (q : ℚ) - 1 / 2 ≤ num / den)
    (hhigh : (num / den : ℚ) ≤ q + 1 / 2)
    (hodd : q % 2 = 1 → (q : ℚ) - 1 / 2 < num / den ∧ (num / den : ℚ) < q + 1 / 2) :
    roundDiv num den = q := by
  have hden' : (0 : ℚ) < den := by exact_mod_cast hden
  have hlow' : 2 * (den * q) ≤ 2 * num + den := by
    rw [sub_le_iff_le_add, div_add_div _ _ hden'.ne' two_ne_zero, le_div_iff₀ (by positivity)] at hlow
    have h : (2 * (den * q) : ℚ) ≤ 2 * num + den := by linarith
    exact_mod_cast h
  have hhigh' : 2 * num ≤ 2 * (den * q) + den := by
    rw [div_le_iff₀ hden'] at hhigh
    have h : (2 * num : ℚ) ≤ 2 * (den * q) + den := by linarith
    exact_mod_cast h
  have hodd' : q % 2 = 1 → 2 * (den * q) < 2 * num + den ∧ 2 * num < 2 * (den * q) + den := by
    intro hq
    obtain ⟨h1, h2⟩ := hodd hq
    rw [sub_lt_iff_lt_add, div_add_div _ _ hden'.ne' two_ne_zero, lt_div_iff₀ (by positivity)] at h1
    rw [div_lt_iff₀ hden'] at h2
    have h1' : (2 * (den * q) : ℚ) < 2 * num + den := by linarith
    have h2' : (2 * num : ℚ) < 2 * (den * q) + den := by linarith
    exact ⟨by exact_mod_cast h1', by exact_mod_cast h2'⟩
  have hnum := Nat.div_add_mod num den
  have hrest := Nat.mod_lt num hden
  have hmul : ∀ i j : ℕ, i < j → den * i + den ≤ den * j := fun i j hij => by
    rw [← Nat.mul_succ]
    exact Nat.mul_le_mul_left den hij
  unfold roundDiv
  dsimp only
  generalize num / den = p at *
  generalize num % den = r at *
  rcases Nat.lt_trichotomy q p with hlt | rfl | hlt
  · have hpq := hmul q p hlt
    omega
  · split
    · rfl
    · split
      · omega
      · split
        · rfl
        · have hstrict := hodd' (by omega)
          omega
  · have hpq := hmul p q hlt
    have hnext : q = p + 1 := by
      by_contra hne
      have hfar := hmul (p + 1) q (by omega)
      rw [Nat.mul_succ] at hfar
      omega
    subst hnext
    rw [Nat.mul_succ] at *
    split
    · omega
    · split
      · rfl
      · split
        · have hstrict := hodd' (by omega)
          omega
        · rfl

/-! ## The number that a ratio is rounded to -/

namespace Binary64

/-- The mantissa has 53 bits, or fewer at the least exponent. -/
structure IsCanonical (m : ℕ) (e : ℤ) : Prop where
  mantissa : m < 2 ^ 53
  least : leastExponent ≤ e
  greatest : e ≤ greatestExponent
  normal : 2 ^ 52 ≤ m ∨ e = leastExponent

/-- How far down the interval of `m · 2 ^ e` reaches, in units of `2 ^ e`. -/
def reach (m : ℕ) (e : ℤ) : ℚ := if m = 2 ^ 52 ∧ leastExponent < e then 1 / 4 else 1 / 2

/-- The reals that `m · 2 ^ e` stands for; the ends belong to them when `m` is even. -/
structure Near (m : ℕ) (e : ℤ) (x : ℚ) : Prop where
  low : (m - reach m e) * 2 ^ e ≤ x
  high : x ≤ (m + 1 / 2) * 2 ^ e
  odd : m % 2 = 1 → (m - reach m e) * 2 ^ e < x ∧ x < (m + 1 / 2) * 2 ^ e

variable {m : ℕ} {e : ℤ}

theorem reach_le : reach m e ≤ 1 / 2 := by
  unfold reach
  split <;> norm_num

theorem Near.lt (h : Near m e (num / den)) (hm : m < 2 ^ 53) :
    (num / den : ℚ) < 2 ^ (53 + e) := by
  have hle : (m : ℚ) + 1 ≤ 2 ^ 53 := by exact_mod_cast hm
  have hpow : (0 : ℚ) < 2 ^ e := by positivity
  rw [zpow_add₀ two_ne_zero]
  refine h.high.trans_lt (mul_lt_mul_of_pos_right ?_ hpow)
  norm_num at hle ⊢
  linarith

theorem ratio_scaled_two (hden : 0 < den) (z : ℤ) :
    ((num * 2 ^ (-z).toNat : ℕ) / (den * 2 ^ z.toNat : ℕ) : ℚ) = num / den / 2 ^ z := by
  have h := @ratio_scaled 2 num den (by omega) hden z
  rwa [Nat.cast_ofNat] at h

/-- Where the exponent is found, the mantissa is found as well. -/
theorem Near.roundDiv_eq (h : Near m e (num / den)) (hden : 0 < den) :
    roundDiv (num * 2 ^ (-e).toNat) (den * 2 ^ e.toNat) = m := by
  have hpow : (0 : ℚ) < 2 ^ e := by positivity
  have hreach := reach_le (m := m) (e := e)
  have hlow := (le_div_iff₀ hpow).mpr h.low
  have hhigh := (div_le_iff₀ hpow).mpr h.high
  refine Number.roundDiv_eq (by positivity) ?_ ?_ ?_
  · rw [ratio_scaled_two hden]
    linarith
  · rw [ratio_scaled_two hden]
    exact hhigh
  · intro hodd
    obtain ⟨hlow, hhigh⟩ := h.odd hodd
    rw [← lt_div_iff₀ hpow] at hlow
    rw [← div_lt_iff₀ hpow] at hhigh
    rw [ratio_scaled_two hden]
    exact ⟨by linarith, hhigh⟩

/-- The interval of a power of two reaches a quarter down only. -/
theorem Near.low_of_power {x : ℚ} (h : Near m e x) (hm : m = 2 ^ 52) (he : leastExponent < e) :
    (2 ^ 52 - 1 / 4) * 2 ^ e ≤ x := by
  have hlow := h.low
  rw [reach, if_pos ⟨hm, he⟩, hm] at hlow
  exact_mod_cast hlow

/-- The exponent of a power of two is one less where its interval reaches below it. -/
theorem Near.floorLog2_cases (h : Near m e (num / den)) (hc : IsCanonical m e) (hnum : 0 < num)
    (hden : 0 < den) :
    max (floorLog2 num den - 52) leastExponent = e ∨
      m = 2 ^ 52 ∧ leastExponent < e ∧ floorLog2 num den = 51 + e ∧
        (num / den : ℚ) < 2 ^ (52 + e) := by
  obtain ⟨hfloor, hnext⟩ := floorLog2_spec hnum hden
  have hlt := h.lt hc.mantissa
  have htop : floorLog2 num den < 53 + e := by
    rw [← zpow_lt_zpow_iff_right₀ (one_lt_two (α := ℚ))]
    exact hfloor.trans_lt hlt
  by_cases hleast : e = leastExponent
  · left
    omega
  have hnormal := hc.normal.resolve_right hleast
  have hgreater : leastExponent < e := lt_of_le_of_ne hc.least (Ne.symm hleast)
  by_cases hbelow : (num / den : ℚ) < 2 ^ (52 + e)
  · right
    have hpow : (0 : ℚ) < 2 ^ e := by positivity
    have hm : m = 2 ^ 52 := by
      have hreach := reach_le (m := m) (e := e)
      have hlow := h.low.trans_lt hbelow
      rw [zpow_add₀ two_ne_zero, mul_lt_mul_iff_left₀ hpow] at hlow
      have hcast : (m : ℚ) < 2 ^ 52 + 1 := by
        norm_num at hlow
        linarith
      have hmlt : m < 2 ^ 52 + 1 := by exact_mod_cast hcast
      omega
    have hbottom : (2 : ℚ) ^ (51 + e) ≤ num / den := by
      refine le_trans ?_ (h.low_of_power hm hgreater)
      rw [zpow_add₀ two_ne_zero]
      exact mul_le_mul_of_nonneg_right (by norm_num) hpow.le
    have hfloorLow : 51 + e < floorLog2 num den + 1 := by
      rw [← zpow_lt_zpow_iff_right₀ (one_lt_two (α := ℚ))]
      exact hbottom.trans_lt hnext
    have hfloorHigh : floorLog2 num den < 52 + e := by
      rw [← zpow_lt_zpow_iff_right₀ (one_lt_two (α := ℚ))]
      exact hfloor.trans_lt hbelow
    exact ⟨hm, hgreater, by omega, hbelow⟩
  · left
    have hbottom : 52 + e < floorLog2 num den + 1 := by
      rw [← zpow_lt_zpow_iff_right₀ (one_lt_two (α := ℚ))]
      exact (not_lt.mp hbelow).trans_lt hnext
    omega

/-- Whatever lies in the interval of a number is rounded to it. -/
theorem round_eq (h : Near m e (num / den)) (hc : IsCanonical m e) (hnum : 0 < num)
    (hden : 0 < den) (negative : Bool) : round negative num den = .finite negative m e := by
  have hgreatest := hc.greatest
  unfold round
  rw [if_neg hnum.ne']
  -- Just below a power of two the exponent found is one less; the mantissa is then carried up again.
  rcases h.floorLog2_cases hc hnum hden with he | ⟨hm, hleast, hfloor, hlt⟩
  · have hcarry : m ≠ 2 ^ 53 := hc.mantissa.ne
    simp only [he, h.roundDiv_eq hden]
    rw [if_neg hcarry]
    dsimp only
    rw [if_neg (by omega)]
  · have he : max (floorLog2 num den - 52) leastExponent = e - 1 := by omega
    have hcarry : roundDiv (num * 2 ^ (-(e - 1)).toNat) (den * 2 ^ (e - 1).toNat) = 2 ^ 53 := by
      have hpow : (0 : ℚ) < 2 ^ e := by positivity
      have hlow := (le_div_iff₀ hpow).mpr (h.low_of_power hm hleast)
      rw [zpow_add₀ two_ne_zero, ← div_lt_iff₀ hpow] at hlt
      have hhalf : (num / den / 2 ^ (e - 1) : ℚ) = 2 * (num / den / 2 ^ e) := by
        rw [zpow_sub_one₀ two_ne_zero]
        field_simp
      refine Number.roundDiv_eq (by positivity) ?_ ?_ (fun hodd => absurd hodd (by norm_num))
      · rw [ratio_scaled_two hden, hhalf]
        push_cast
        linarith
      · rw [ratio_scaled_two hden, hhalf]
        norm_num at hlt ⊢
        linarith
    simp only [he, hcarry, if_true, sub_add_cancel]
    rw [if_neg (by omega), hm]

end Binary64

end ConsentGate.Number
