import ConsentGate.Sorting.Merge
import ConsentGate.Sorting.Run

/-! Sorting with a comparison that may fail.

The list is cut into runs, which are merged pairwise. The power of a boundary between two runs is the
depth at which halving the list again and again would separate their middles; runs are merged across
deep boundaries first. Equal items keep their order. Where the comparison is no order the steps alone
decide where items end up, and the first comparison that fails ends it. -/
namespace ConsentGate.Sorting
set_option autoImplicit false
-- Powers are those of the core library, also where Mathlib knows others.
attribute [local instance (high)] instPowNat

variable {α ε : Type}

/-- How long a run is made at least: the list's length halved until it is below sixty-four, and one
more if a half was left over. -/
def leastRun (n : Nat) : Nat :=
  if n < 64 then n
  else
    let shift := n.log2 - 5
    if n % 2 ^ shift = 0 then n / 2 ^ shift else n / 2 ^ shift + 1

/-- The depth at which the binary digits of `a / n` and `b / n` first differ, for `a < b`. -/
def depth (n : Nat) : (fuel a b : Nat) → Nat
  | 0, _, _ => 0
  | fuel + 1, a, b =>
    if n ≤ a then depth n fuel (2 * (a - n)) (2 * (b - n)) + 1
    else if n ≤ b then 1
    else depth n fuel (2 * a) (2 * b) + 1

/-- The power of the boundary after a run that begins at `start`; the next run has length `next`. -/
def power (n start length next : Nat) : Nat :=
  depth n n (2 * start + length) (2 * start + length + length + next)

/-- A run that waits to be merged, with the power of the boundary after it. -/
structure Pending (α : Type) where
  run : List α
  power : Nat

/-- Merges the latest runs as long as the boundary between them is deeper than the one to come. -/
def collapse (lt : α → α → Except ε Bool) (depth threshold : Nat) :
    List (Pending α) → Except ε (List (Pending α) × Nat)
  | top :: below :: rest => do
    if depth < below.power then
      let (merged, threshold) ← merge lt threshold below.run top.run
      collapse lt depth threshold (⟨merged, below.power⟩ :: rest)
    else return (top :: below :: rest, threshold)
  | runs => .ok (runs, threshold)
termination_by runs => runs.length

/-- Merges all runs, the latest being first. Of three, the outer one that is shorter goes first. -/
def finish (lt : α → α → Except ε Bool) (threshold : Nat) : List (Pending α) → Except ε (List α)
  | [] => .ok []
  | [last] => .ok last.run
  | [top, below] => do return (← merge lt threshold below.run top.run).1
  | top :: middle :: low :: rest => do
    if low.run.length < top.run.length then
      let (merged, threshold) ← merge lt threshold low.run middle.run
      finish lt threshold (top :: ⟨merged, low.power⟩ :: rest)
    else
      let (merged, threshold) ← merge lt threshold middle.run top.run
      finish lt threshold (⟨merged, middle.power⟩ :: low :: rest)
termination_by runs => runs.length

/-- Takes the next run from the items, until none are left. -/
def sortRuns (lt : α → α → Except ε Bool) (n : Nat) :
    (fuel threshold : Nat) → List (Pending α) → List α → Except ε (List α)
  | 0, threshold, runs, _ => finish lt threshold runs
  | _, threshold, runs, [] => finish lt threshold runs
  | fuel + 1, threshold, runs, items => do
    let (next, rest) ← longRun lt (leastRun n) items
    match runs with
    | [] => sortRuns lt n fuel threshold [⟨next, 0⟩] rest
    | top :: below => do
      let start := (below.map (·.run.length)).sum
      let p := power n start top.run.length next.length
      let (runs, threshold) ← collapse lt p threshold (top :: below)
      match runs with
      | [] => sortRuns lt n fuel threshold [⟨next, 0⟩] rest
      | top :: below => sortRuns lt n fuel threshold (⟨next, 0⟩ :: ⟨top.run, p⟩ :: below) rest

def sort (lt : α → α → Except ε Bool) (items : List α) : Except ε (List α) :=
  sortRuns lt items.length items.length leastStretch [] items

end ConsentGate.Sorting
