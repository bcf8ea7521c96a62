import ConsentGate.Proofs.Text.Letters

/-! Lower case, a second time.

Nothing that comes out of a run of the mapping is in a run itself, which is a matter of the table
(`leavesOut_lowerRuns`), and the two special letters come out as letters that stay. So a text in lower case
is made of characters that stay as they are wherever they stand (`isLowered_of_mem_lower`), and lower
case leaves such a text alone (`lower_of_isLowered`). -/
namespace ConsentGate.Text
set_option autoImplicit false

/-! ## Runs -/

namespace CaseRun

theorem covers_iff {r : CaseRun} {n : Nat} : r.covers n = true ↔
    r.first ≤ n ∧ n ≤ r.last ∧ (n - r.first) % r.step = 0 := by
  simp [covers, and_assoc]

theorem exists_of_shift? {runs : List CaseRun} {n m : Nat} (h : shift? runs n = some m) :
    ∃ r ∈ runs, r.covers n = true ∧ (n + r.shift).toNat = m := by
  induction runs with
  | nil => cases h
  | cons r runs ih =>
    rw [shift?] at h
    split at h
    · cases h
    · split at h
      · rename_i hcovers
        exact ⟨r, List.mem_cons_self, hcovers, Option.some.inj h⟩
      · obtain ⟨q, hq, hn⟩ := ih h
        exact ⟨q, List.mem_cons_of_mem r hq, hn⟩

/-- Where a run ends up, it does not meet the other one: it is in front of it or behind it, or it lies
between the characters of one that takes every second. -/
def leavesOut (r q : CaseRun) : Bool :=
  (r.last + r.shift).toNat < q.first || q.last < (r.first + r.shift).toNat ||
    (q.step == 2 && (r.step == 2 || r.first == r.last) && 0 < (r.first + r.shift).toNat &&
      ((r.first + r.shift).toNat + q.first) % 2 == 1)

theorem not_covers_of_leavesOut {r q : CaseRun} (h : r.leavesOut q = true) {n : Nat}
    (hn : r.covers n = true) : ¬q.covers (n + r.shift).toNat = true := by
  rw [covers_iff] at hn ⊢
  simp only [leavesOut, Bool.or_eq_true, Bool.and_eq_true, decide_eq_true_eq, beq_iff_eq] at h
  obtain ⟨hfirst, hlast, hstep⟩ := hn
  rintro ⟨hfirst', hlast', hstep'⟩
  obtain (hbefore | hbehind) | ⟨⟨⟨hq, htwo | hone⟩, hpos⟩, hodd⟩ := h
  · omega
  · omega
  · rw [htwo] at hstep
    rw [hq] at hstep'
    omega
  · rw [hq] at hstep'
    omega

/-- The dotted capital I is no letter of the mapping, but does not stay either. -/
theorem leavesOut_lowerRuns :
    (lowerRuns.all fun r => (⟨304, 304, 1, 0⟩ :: lowerRuns).all fun q => r.leavesOut q) = true := by
  decide +kernel

theorem shift?_lowerRuns {n m : Nat} (h : shift? lowerRuns n = some m) :
    shift? lowerRuns m = none ∧ m ≠ 304 := by
  obtain ⟨r, hr, hn, rfl⟩ := exists_of_shift? h
  have hout : ∀ q ∈ ⟨304, 304, 1, 0⟩ :: lowerRuns, ¬q.covers (n + r.shift).toNat = true :=
    fun q hq => not_covers_of_leavesOut
      (List.all_eq_true.mp (List.all_eq_true.mp leavesOut_lowerRuns r hr) q hq) hn
  constructor
  · rw [Option.eq_none_iff_forall_ne_some]
    intro k hk
    obtain ⟨q, hq, hm, -⟩ := exists_of_shift? hk
    exact hout q (List.mem_cons_of_mem _ hq) hm
  · intro heq
    refine hout _ List.mem_cons_self ?_
    rw [heq]
    rfl

end CaseRun

/-! ## Characters -/

/-- Lower case leaves the character as it is, wherever it stands. -/
def IsLowered (c : Char) : Prop := c.toNat ≠ 931 ∧ lowerChar c = [c]

instance (c : Char) : Decidable (IsLowered c) := inferInstanceAs (Decidable (_ ∧ _))

/-- What is no character is read as the first one. -/
theorem toNat_ofNat (n : Nat) : (Char.ofNat n).toNat = n ∨ (Char.ofNat n).toNat = 0 := by
  by_cases hvalid : n.isValidChar
  · exact Or.inl (by rw [Char.ofNat, dif_pos hvalid]; rfl)
  · exact Or.inr (by rw [Char.ofNat, dif_neg hvalid]; rfl)

theorem isLowered_of_shift? {c : Char} (h : CaseRun.shift? lowerRuns c.toNat = none)
    (hdotted : c.toNat ≠ 304) : IsLowered c := by
  constructor
  · intro hsigma
    rw [hsigma] at h
    cases h
  · rw [lowerChar, if_neg hdotted, shiftCase, h]

theorem isLowered_shiftCase {c : Char} (hdotted : c.toNat ≠ 304) :
    IsLowered (shiftCase lowerRuns c) := by
  cases h : CaseRun.shift? lowerRuns c.toNat with
  | none =>
    have hc : shiftCase lowerRuns c = c := by rw [shiftCase, h]
    rw [hc]
    exact isLowered_of_shift? h hdotted
  | some m =>
    obtain ⟨hm, hne⟩ := CaseRun.shift?_lowerRuns h
    have himage : shiftCase lowerRuns c = Char.ofNat m := by rw [shiftCase, h]
    rw [himage]
    rcases toNat_ofNat m with htoNat | htoNat
    · exact isLowered_of_shift? (by rw [htoNat]; exact hm) (by rw [htoNat]; exact hne)
    · exact isLowered_of_shift? (by rw [htoNat]; rfl) (by rw [htoNat]; decide)

theorem isLowered_of_mem_lowerAt {behind ahead : Bool} {c d : Char} (h : d ∈ lowerAt behind c ahead) :
    IsLowered d := by
  unfold lowerAt at h
  split at h
  · obtain rfl := List.mem_singleton.mp h
    cases behind && !ahead <;> decide
  · unfold lowerChar at h
    split at h
    · rcases List.mem_cons.mp h with rfl | h
      · decide
      · obtain rfl := List.mem_singleton.mp h
        decide
    · rename_i hdotted
      obtain rfl := List.mem_singleton.mp h
      exact isLowered_shiftCase hdotted

theorem isLowered_of_mem_lowerAfter {behind : Bool} {s : List Char} {c : Char}
    (h : c ∈ lowerAfter behind s) : IsLowered c := by
  induction s generalizing behind with
  | nil => cases h
  | cons d s ih =>
    rw [lowerAfter_cons, List.mem_append] at h
    exact h.elim isLowered_of_mem_lowerAt ih

theorem isLowered_of_mem_lower {s : List Char} {c : Char} (h : c ∈ lower s) : IsLowered c :=
  isLowered_of_mem_lowerAfter h

theorem lowerAfter_of_isLowered {s : List Char} (h : ∀ c ∈ s, IsLowered c) (behind : Bool) :
    lowerAfter behind s = s := by
  induction s generalizing behind with
  | nil => rfl
  | cons c s ih =>
    obtain ⟨⟨hsigma, hc⟩, hs⟩ := List.forall_mem_cons.mp h
    rw [lowerAfter_cons, lowerAt, if_neg hsigma, hc, ih hs]
    rfl

theorem lower_of_isLowered {s : List Char} (h : ∀ c ∈ s, IsLowered c) : lower s = s :=
  lowerAfter_of_isLowered h false

end ConsentGate.Text
