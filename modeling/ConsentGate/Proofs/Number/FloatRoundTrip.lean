import ConsentGate.Proofs.Number.Rounding
import ConsentGate.Proofs.Number.Scientific
import Mathlib.Data.Nat.Cast.Order.Field

/-! The shortest text of a floating-point number is read back as the number.

The digits that are found lie in the interval of the number, and seventeen of them always suffice: a grid of
seventeen digits is finer than the numbers are (`near_shortest`). Layout and reading keep the value of the
digits, and whatever lies in the interval is rounded to the number (`read?_text`). -/
namespace ConsentGate.Number
set_option autoImplicit false

/-! ## Intervals -/

namespace Binary64

variable {m : ℕ} {e : ℤ} {x : ℚ}

theorem reach_pos : 0 < reach m e := by
  unfold reach
  split <;> norm_num

theorem Near.of_above (hlow : (m : ℚ) * 2 ^ e ≤ x) (hhigh : x < (m + 1 / 2) * 2 ^ e) :
    Near m e x := by
  have hpow : (0 : ℚ) < 2 ^ e := by positivity
  have hbelow : (m - reach m e) * 2 ^ e < x := by
    refine lt_of_lt_of_le (mul_lt_mul_of_pos_right ?_ hpow) hlow
    have hreach := reach_pos (m := m) (e := e)
    linarith
  exact ⟨hbelow.le, hhigh.le, fun _ => ⟨hbelow, hhigh⟩⟩

theorem Near.of_below (hlow : (m - reach m e) * 2 ^ e < x) (hhigh : x ≤ (m : ℚ) * 2 ^ e) :
    Near m e x := by
  have hpow : (0 : ℚ) < 2 ^ e := by positivity
  have habove : x < (m + 1 / 2) * 2 ^ e := by
    refine lt_of_le_of_lt hhigh (mul_lt_mul_of_pos_right ?_ hpow)
    linarith
  exact ⟨hlow.le, habove.le, fun _ => ⟨hlow, habove⟩⟩

theorem mul_le_iff_le_ratio {y : ℚ} {d unit B : ℕ} (hunit : 0 < unit) (hd : (d : ℚ) = y * unit) :
    B * unit ≤ d ↔ (B : ℚ) ≤ y := by
  have hunit' : (0 : ℚ) < unit := by exact_mod_cast hunit
  rw [← Nat.cast_le (α := ℚ), hd, Nat.cast_mul, mul_le_mul_iff_left₀ hunit']

theorem le_mul_iff_ratio_le {y : ℚ} {d unit B : ℕ} (hunit : 0 < unit) (hd : (d : ℚ) = y * unit) :
    d ≤ B * unit ↔ y ≤ B := by
  have hunit' : (0 : ℚ) < unit := by exact_mod_cast hunit
  rw [← Nat.cast_le (α := ℚ), hd, Nat.cast_mul, mul_le_mul_iff_left₀ hunit']

theorem two_zpow_eq_quarters : (2 : ℚ) ^ e = 4 * 2 ^ (e - 2) := by
  rw [zpow_sub₀ two_ne_zero]
  norm_num
  ring

theorem le_quarters {a : ℚ} : a * 2 ^ e ≤ x ↔ 4 * a ≤ x / 2 ^ (e - 2) := by
  rw [le_div_iff₀ (by positivity), two_zpow_eq_quarters]
  ring_nf

theorem quarters_le {a : ℚ} : x ≤ a * 2 ^ e ↔ x / 2 ^ (e - 2) ≤ 4 * a := by
  rw [div_le_iff₀ (by positivity), two_zpow_eq_quarters]
  ring_nf

/-- The test on whole numbers is the one on ratios. -/
theorem inInterval_iff (hm : 0 < m) (c : ℕ) (p : ℤ) :
    inInterval m e c p = true ↔ Near m e (c * 10 ^ p) := by
  have hunit : 0 < 2 ^ (e - 2).toNat * 10 ^ (-p).toNat := by positivity
  have hd : ((c * 10 ^ p.toNat * 2 ^ (2 - e).toNat : ℕ) : ℚ) =
      c * 10 ^ p / 2 ^ (e - 2) * (2 ^ (e - 2).toNat * 10 ^ (-p).toNat : ℕ) := by
    have hten := zpow_eq_div (b := 10) (by omega) p
    have htwo := zpow_eq_div (b := 2) (by omega) (e - 2)
    rw [Nat.cast_ofNat] at hten htwo
    rw [neg_sub] at htwo
    rw [hten, htwo]
    push_cast
    field_simp
  have hbelow : ((if m = 2 ^ 52 ∧ e > leastExponent then 4 * m - 1 else 4 * m - 2 : ℕ) : ℚ) =
      4 * (m - reach m e) := by
    unfold reach
    split
    · rw [Nat.cast_sub (by omega)]
      push_cast
      ring
    · rw [Nat.cast_sub (by omega)]
      push_cast
      ring
  have habove : ((4 * m + 2 : ℕ) : ℚ) = 4 * (m + 1 / 2) := by
    push_cast
    ring
  unfold inInterval
  dsimp only
  split
  · rename_i heven
    rw [Bool.and_eq_true, decide_eq_true_eq, decide_eq_true_eq, mul_le_iff_le_ratio hunit hd,
      le_mul_iff_ratio_le hunit hd, hbelow, habove, ← le_quarters, ← quarters_le]
    constructor
    · rintro ⟨hlow, hhigh⟩
      exact ⟨hlow, hhigh, fun hodd => by omega⟩
    · intro h
      exact ⟨h.low, h.high⟩
  · rename_i hodd
    rw [Bool.and_eq_true, decide_eq_true_eq, decide_eq_true_eq, ← not_le, ← not_le,
      le_mul_iff_ratio_le hunit hd, mul_le_iff_le_ratio hunit hd, hbelow, habove, ← le_quarters,
      ← quarters_le, not_le, not_le]
    constructor
    · rintro ⟨hlow, hhigh⟩
      exact ⟨hlow.le, hhigh.le, fun _ => ⟨hlow, hhigh⟩⟩
    · intro h
      exact h.odd (by omega)

/-! ## Grids -/

/-- A grid point that is found lies in the interval. -/
theorem near_of_onGrid? (hm : 0 < m) {n : ℕ} {d : DecimalDigits} (h : onGrid? m e n = some d) :
    Near m e (d.coefficient * 10 ^ d.exponent) := by
  unfold onGrid? at h
  dsimp only at h
  split at h
  · rename_i hfound
    cases h
    simp only [Bool.and_eq_true] at hfound
    exact (inInterval_iff hm _ _).mp hfound.1.2
  · split at h
    · rename_i hfound
      cases h
      exact (inInterval_iff hm _ _).mp hfound
    · cases h

theorem exists_onGrid? {n low : ℕ} {p : ℤ}
    (hp : floorLog10 (m * 2 ^ e.toNat) (2 ^ (-e).toNat) - (n - 1 : ℤ) = p)
    (hlow : m * 2 ^ e.toNat * 10 ^ (-p).toNat / (2 ^ (-e).toNat * 10 ^ p.toNat) = low)
    (h : (low ≠ 0 ∧ inInterval m e low p = true) ∨ inInterval m e (low + 1) p = true) :
    ∃ d, onGrid? m e n = some d := by
  unfold onGrid?
  dsimp only
  rw [hp, hlow]
  split
  · exact ⟨_, rfl⟩
  · rename_i hnot
    split
    · exact ⟨_, rfl⟩
    · rename_i hhigh
      rcases h with ⟨hne, hin⟩ | hin
      · exact absurd (by simp [hne, hin, hhigh]) hnot
      · exact absurd hin hhigh

theorem natCast_div_bounds {a b : ℕ} (hb : 0 < b) :
    ((a / b : ℕ) : ℚ) ≤ a / b ∧ (a / b : ℚ) < (a / b : ℕ) + 1 := by
  refine ⟨Nat.cast_div_le, ?_⟩
  have hlt : a < b * (a / b + 1) := Nat.lt_mul_div_succ a hb
  rw [div_lt_iff₀ (by exact_mod_cast hb), mul_comm]
  exact_mod_cast hlt

/-- Of the two points of a fine grid that enclose a number one lies in its interval. -/
theorem near_of_fine {low : ℕ} {g : ℚ} (hlt : m < 2 ^ 53) (hg : 0 < g) (hfine : g * 10 ^ 16 ≤ m * 2 ^ e)
    (hbelow : low * g ≤ m * 2 ^ e) (habove : m * 2 ^ e < (low + 1) * g) :
    (low ≠ 0 ∧ Near m e (low * g)) ∨ Near m e ((low + 1 : ℕ) * g) := by
  have hpow : (0 : ℚ) < 2 ^ e := by positivity
  have hm : (m : ℚ) < 2 ^ 53 := by exact_mod_cast hlt
  have hnonzero : low ≠ 0 := by
    rintro rfl
    norm_num at habove hfine
    linarith
  have hnext : ((low + 1 : ℕ) : ℚ) * g = low * g + g := by
    push_cast
    ring
  -- The interval of a power of two hardly reaches down, but the point above it is near enough then; of
  -- any other number the nearer point is.
  by_cases hpower : m = 2 ^ 52 ∧ leastExponent < e
  · right
    refine Near.of_above (by rw [Nat.cast_succ]; exact habove.le) ?_
    have hcast : (m : ℚ) = 2 ^ 52 := by
      rw [hpower.1]
      norm_num
    rw [hcast] at hfine hbelow
    rw [hnext, hcast]
    norm_num at hfine hbelow ⊢
    linarith
  · have hreach : reach m e = 1 / 2 := by rw [reach, if_neg hpower]
    have hhalf : g / 2 < 2 ^ e / 2 := by
      have hmul := mul_lt_mul_of_pos_right hm hpow
      norm_num at hfine hmul
      linarith
    by_cases hnear : m * 2 ^ e - low * g ≤ g / 2
    · refine Or.inl ⟨hnonzero, Near.of_below ?_ hbelow⟩
      rw [hreach, sub_mul]
      linarith
    · right
      refine Near.of_above (by rw [Nat.cast_succ]; exact habove.le) ?_
      rw [hnext, add_mul]
      linarith

/-- With seventeen digits one of the two neighbours on the grid is near enough. -/
theorem exists_onGrid?_seventeen (hm : 0 < m) (hlt : m < 2 ^ 53) : ∃ d, onGrid? m e 17 = some d := by
  have hnum : 0 < m * 2 ^ e.toNat := by positivity
  have hden : 0 < 2 ^ (-e).toNat := by positivity
  have hvalue := @ratio_eq_mul_zpow 2 m (by omega) e
  rw [Nat.cast_ofNat] at hvalue
  have hfloor := (floorLog10_spec hnum hden).1
  rw [hvalue] at hfloor
  refine exists_onGrid? rfl rfl ?_
  generalize hp : floorLog10 (m * 2 ^ e.toNat) (2 ^ (-e).toNat) - ((17 : ℕ) - 1 : ℤ) = p
  have hfine : (10 : ℚ) ^ p * 10 ^ 16 ≤ m * 2 ^ e := by
    refine le_trans (le_of_eq ?_) hfloor
    rw [← zpow_natCast, ← zpow_add₀ (by norm_num), ← hp]
    congr 1
    omega
  have hscaled := @ratio_scaled 10 (m * 2 ^ e.toNat) _ (by omega) hden p
  rw [hvalue, Nat.cast_ofNat] at hscaled
  obtain ⟨hfloorLow, hfloorHigh⟩ := natCast_div_bounds (a := m * 2 ^ e.toNat * 10 ^ (-p).toNat)
    (b := 2 ^ (-e).toNat * 10 ^ p.toNat) (by positivity)
  rw [hscaled] at hfloorLow hfloorHigh
  generalize m * 2 ^ e.toNat * 10 ^ (-p).toNat / (2 ^ (-e).toNat * 10 ^ p.toNat) = low at *
  have hten : (0 : ℚ) < 10 ^ p := by positivity
  rw [le_div_iff₀ hten] at hfloorLow
  rw [div_lt_iff₀ hten] at hfloorHigh
  rw [inInterval_iff hm, inInterval_iff hm]
  exact near_of_fine hlt hten hfine hfloorLow hfloorHigh

theorem strip_value (fuel : ℕ) (d : DecimalDigits) :
    ((d.strip fuel).coefficient * 10 ^ (d.strip fuel).exponent : ℚ) =
      d.coefficient * 10 ^ d.exponent := by
  induction fuel generalizing d with
  | zero => rfl
  | succ fuel ih =>
    rw [DecimalDigits.strip]
    split
    · rename_i h
      obtain ⟨c, hc⟩ : 10 ∣ d.coefficient := Nat.dvd_of_mod_eq_zero h.2
      rw [ih, hc, Nat.mul_div_cancel_left c (by omega), zpow_add_one₀ (by norm_num)]
      push_cast
      ring
    · rfl

/-- The digits that are taken lie in the interval of the number. -/
theorem near_shortest (hm : 0 < m) (hlt : m < 2 ^ 53) :
    Near m e ((shortest m e).coefficient * 10 ^ (shortest m e).exponent) := by
  unfold shortest
  cases hfind : (List.range 17).findSome? fun n => onGrid? m e (n + 1) with
  | none =>
    obtain ⟨d, hd⟩ := exists_onGrid?_seventeen (e := e) hm hlt
    have hnone := List.findSome?_eq_none_iff.mp hfind 16 (List.mem_range.mpr (by omega))
    rw [hd] at hnone
    cases hnone
  | some d =>
    obtain ⟨n, _, hd⟩ := List.exists_of_findSome?_eq_some hfind
    dsimp only
    rw [strip_value]
    exact near_of_onGrid? hm hd

/-! ## Reading back -/

theorem two_zpow_lt_ten_zpow : (2 : ℚ) ^ (1200 : ℤ) < 10 ^ (400 : ℤ) := by
  have h := pow_lt_pow_left₀ (by norm_num : (2 ^ 3 : ℚ) < 10) (by norm_num) (n := 400) (by omega)
  rwa [← pow_mul, ← zpow_natCast, ← zpow_natCast] at h

/-- A decimal in the interval of a number is no longer and no shorter than four hundred digits. -/
theorem Near.size_bounds {c s : ℕ} {k : ℤ} (h : Near m e (c * 10 ^ k)) (hc : IsCanonical m e)
    (hm : 0 < m) (hsize : 10 ^ s ≤ c ∧ c < 10 ^ (s + 1)) : -400 ≤ s + 1 + k ∧ s + 1 + k ≤ 400 := by
  have hbase : (1 : ℚ) < 10 := by norm_num
  have hten : (0 : ℚ) < 10 ^ k := by positivity
  have htwo : (0 : ℚ) < 2 ^ e := by positivity
  have hm' : (1 : ℚ) ≤ m := by exact_mod_cast hm
  have hmlt : (m : ℚ) + 1 ≤ 2 ^ 53 := by exact_mod_cast hc.mantissa
  have hleast : (2 : ℚ) ^ (-1074 : ℤ) ≤ 2 ^ e := zpow_le_zpow_right₀ one_le_two hc.least
  have hgreatest : (2 : ℚ) ^ e ≤ 2 ^ (971 : ℤ) := zpow_le_zpow_right₀ one_le_two hc.greatest
  have hreach := reach_le (m := m) (e := e)
  have hlow : (10 : ℚ) ^ (s + k) ≤ c * 10 ^ k := by
    rw [zpow_add₀ (by norm_num), zpow_natCast]
    exact mul_le_mul_of_nonneg_right (by exact_mod_cast hsize.1) hten.le
  have hhigh : (c : ℚ) * 10 ^ k < 10 ^ (s + 1 + k) := by
    have hcast : ((s : ℤ) + 1) = ((s + 1 : ℕ) : ℤ) := by omega
    rw [hcast, zpow_add₀ (by norm_num), zpow_natCast]
    exact mul_lt_mul_of_pos_right (by exact_mod_cast hsize.2) hten
  have hbelow : (10 : ℚ) ^ (-400 : ℤ) < c * 10 ^ k := by
    have hhalf : 1 / 2 * 2 ^ e ≤ (m - reach m e) * 2 ^ e :=
      mul_le_mul_of_nonneg_right (by linarith) htwo.le
    have hsmall : (10 : ℚ) ^ (-400 : ℤ) < 1 / 2 * 2 ^ (-1074 : ℤ) := by
      have hbig : (2 : ℚ) ^ (1075 : ℤ) < 10 ^ (400 : ℤ) :=
        (zpow_le_zpow_right₀ one_le_two (by omega)).trans_lt two_zpow_lt_ten_zpow
      have hsplit : (1 / 2 : ℚ) * 2 ^ (-1074 : ℤ) = (2 ^ (1075 : ℤ))⁻¹ := by
        rw [← zpow_neg, one_div, ← zpow_neg_one, ← zpow_add₀ two_ne_zero]
        rfl
      rw [hsplit, zpow_neg]
      exact inv_strictAnti₀ (by positivity) hbig
    calc (10 : ℚ) ^ (-400 : ℤ) < 1 / 2 * 2 ^ (-1074 : ℤ) := hsmall
      _ ≤ 1 / 2 * 2 ^ e := mul_le_mul_of_nonneg_left hleast (by norm_num)
      _ ≤ (m - reach m e) * 2 ^ e := hhalf
      _ ≤ c * 10 ^ k := h.low
  have habove : (c : ℚ) * 10 ^ k < 10 ^ (400 : ℤ) := by
    have hnext : (m + 1 / 2) * (2 : ℚ) ^ e ≤ 2 ^ 53 * 2 ^ e :=
      mul_le_mul_of_nonneg_right (by linarith) htwo.le
    have hlarge : (2 : ℚ) ^ 53 * 2 ^ (971 : ℤ) < 10 ^ (400 : ℤ) := by
      rw [← zpow_natCast, ← zpow_add₀ two_ne_zero]
      exact (zpow_le_zpow_right₀ one_le_two (by omega)).trans_lt two_zpow_lt_ten_zpow
    calc (c : ℚ) * 10 ^ k ≤ (m + 1 / 2) * 2 ^ e := h.high
      _ ≤ 2 ^ 53 * 2 ^ e := hnext
      _ ≤ 2 ^ 53 * 2 ^ (971 : ℤ) := mul_le_mul_of_nonneg_left hgreatest (by positivity)
      _ < 10 ^ (400 : ℤ) := hlarge
  have hfirst : -400 < (s : ℤ) + 1 + k := by
    rw [← zpow_lt_zpow_iff_right₀ hbase]
    exact hbelow.trans hhigh
  have hlast : (s : ℤ) + k < 400 := by
    rw [← zpow_lt_zpow_iff_right₀ hbase]
    exact hlow.trans_lt habove
  omega

/-- A decimal in the interval of a number is read as the number. -/
theorem ofDecimal_eq {c : ℕ} {k : ℤ} (h : Near m e (c * 10 ^ k)) (hc : IsCanonical m e) (hm : 0 < m)
    (hpos : 0 < c) (negative : Bool) : ofDecimal negative c k = .finite negative m e := by
  obtain ⟨s, hlength, hsize⟩ := length_toDigits_spec hpos
  obtain ⟨hlow, hhigh⟩ := h.size_bounds hc hm hsize
  have hvalue := @ratio_eq_mul_zpow 10 c (by omega) k
  rw [Nat.cast_ofNat] at hvalue
  unfold ofDecimal
  dsimp only
  rw [hlength, Nat.cast_succ, if_neg (by omega), if_neg (by omega)]
  refine round_eq ?_ hc (by positivity) (by positivity) negative
  rw [hvalue]
  exact h

/-- Finite numbers are kept in one form. -/
def IsProper : Binary64 → Prop
  | .finite _ m e => IsCanonical m e
  | _ => True

end Binary64

/-- A number is read back from its text. -/
theorem read?_text {x : Binary64} (hx : x.IsProper) : jsonFloat.read? (jsonFloat.text x) = some x := by
  cases x with
  | nan => rfl
  | infinite negative => cases negative <;> decide
  | finite negative m e =>
    obtain ⟨whole, fraction, exponent, htext, hnumber, _, hwrites⟩ := exists_magnitude m e
    rw [read?_text_finite]
    rcases Nat.eq_zero_or_pos m with rfl | hm
    · have he : e = Binary64.leastExponent := hx.normal.resolve_left (by norm_num)
      have hzero : jsonFloat.magnitude 0 e = ['0', '.', '0'] := rfl
      rw [hzero, he]
      rfl
    · obtain ⟨zeros, hdigits, hpower⟩ := hwrites hm.ne'
      have hnear := Binary64.near_shortest (e := e) hm hx.mantissa
      have hcoefficient := Binary64.shortest_ne_zero e hm.ne'
      rw [htext, readScientific?_parts hnumber, hdigits, hpower, Option.map_some]
      generalize Binary64.shortest m e = d at *
      refine congrArg some (Binary64.ofDecimal_eq ?_ hx hm (by positivity) negative)
      have hvalue : ((d.coefficient * 10 ^ zeros : ℕ) : ℚ) * 10 ^ (d.exponent - zeros) =
          d.coefficient * 10 ^ d.exponent := by
        rw [zpow_sub₀ (by norm_num), zpow_natCast]
        push_cast
        field_simp
      rw [hvalue]
      exact hnear

end ConsentGate.Number
