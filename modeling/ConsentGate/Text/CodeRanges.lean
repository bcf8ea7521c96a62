/-! Sets of characters given by ranges of code points.

A set is a list of closed ranges in ascending order, so a search may stop at the first range that
begins beyond the point asked for. -/
namespace ConsentGate.Text
set_option autoImplicit false

/-- Ascending, disjoint, closed ranges of code points. -/
abbrev CodeRanges := List (Nat × Nat)

namespace CodeRanges

def has : CodeRanges → Nat → Bool
  | [], _ => false
  | (lo, hi) :: rest, n => if n < lo then false else if n ≤ hi then true else has rest n

theorem mem_of_has {r : CodeRanges} {n : Nat} (h : r.has n = true) :
    ∃ p ∈ r, p.1 ≤ n ∧ n ≤ p.2 := by
  induction r with
  | nil => simp [has] at h
  | cons p rest ih =>
    obtain ⟨lo, hi⟩ := p
    by_cases hlo : n < lo
    · simp [has, hlo] at h
    · by_cases hhi : n ≤ hi
      · exact ⟨(lo, hi), List.mem_cons_self .., Nat.le_of_not_lt hlo, hhi⟩
      · obtain ⟨p, hp, hn⟩ := ih (by simpa [has, hlo, hhi] using h)
        exact ⟨p, List.mem_cons_of_mem _ hp, hn⟩

end CodeRanges

end ConsentGate.Text
