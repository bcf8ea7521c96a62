/-! Runs: items at the start of a list that are in order already.

Items in strictly falling order are a run as well, turned round. A run that is too short grows by
items put in their places by halving. The comparison `lt` may fail, and it need not be an order: every
step says which items it compares, so that the outcome is fixed also then. -/
namespace ConsentGate.Sorting
set_option autoImplicit false

variable {α ε : Type}

/-- The rest of a falling run, `last` being its latest item and `done` those before it; the run comes
back turned round, with the items after it. -/
def falling (lt : α → α → Except ε Bool) (last : α) (done : List α) :
    List α → Except ε (List α × List α)
  | [] => .ok (last :: done, [])
  | x :: rest => do
    if ← lt x last then falling lt x (last :: done) rest
    else return (last :: done, x :: rest)

/-- The rest of a run in order; `done` holds the items before `last`, the latest first. -/
def rising (lt : α → α → Except ε Bool) (last : α) (done : List α) :
    List α → Except ε (List α × List α)
  | [] => .ok ((last :: done).reverse, [])
  | x :: rest => do
    if ← lt x last then return ((last :: done).reverse, x :: rest)
    else rising lt x (last :: done) rest

/-- The run at the start, in order, and the items after it. -/
def run (lt : α → α → Except ε Bool) : List α → Except ε (List α × List α)
  | [] => .ok ([], [])
  | [x] => .ok ([x], [])
  | x :: y :: rest => do
    if ← lt y x then falling lt y [x] rest else rising lt y [x] rest

/-- Puts an item among sorted ones, after those that it does not stand before. -/
def place (lt : α → α → Except ε Bool) (x : α) (sorted : List α) : Except ε (List α) :=
  match h : sorted.drop (sorted.length / 2) with
  | [] => .ok [x]
  | y :: after => do
    have : after.length < sorted.length ∧
        (sorted.take (sorted.length / 2)).length < sorted.length := by
      have e := congrArg List.length h
      simp only [List.length_drop, List.length_cons] at e
      rw [List.length_take]
      omega
    if ← lt x y then return (← place lt x (sorted.take (sorted.length / 2))) ++ y :: after
    else return sorted.take (sorted.length / 2) ++ y :: (← place lt x after)
termination_by sorted.length
decreasing_by
  · exact this.2
  · exact this.1

/-- The run at the start made at least `least` long, as far as there are items. -/
def longRun (lt : α → α → Except ε Bool) (least : Nat) (items : List α) :
    Except ε (List α × List α) := do
  let (sorted, rest) ← run lt items
  let missing := least - sorted.length
  let sorted ← (rest.take missing).foldlM (fun sorted x => place lt x sorted) sorted
  return (sorted, rest.drop missing)

end ConsentGate.Sorting
