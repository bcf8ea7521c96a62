/-! Where a key belongs in a sorted list.

The search starts at a hint and goes away from it in strides of growing width; the stretch between the
last two places is then halved. -/
namespace ConsentGate.Sorting
set_option autoImplicit false

variable {α ε : Type}

/-- Goes on in strides while `p` holds; the last offset at which it did, and the one that ended it. -/
def stride (p : Nat → Except ε Bool) (limit last offset : Nat) : Except ε (Nat × Nat) := do
  if offset < limit then
    if ← p offset then stride p limit offset (2 * offset + 1) else return (last, offset)
  else return (last, limit)
termination_by limit - offset

/-- The first place from `low` up to `high` at which `p` no longer holds. -/
def halve (p : Nat → Except ε Bool) (low high : Nat) : Except ε Nat := do
  if low < high then
    let middle := low + (high - low) / 2
    if ← p middle then halve p (middle + 1) high else halve p low middle
  else return low
termination_by high - low

/-- The first of `n` places at which `p` no longer holds. -/
def boundary (p : Nat → Except ε Bool) (n hint : Nat) : Except ε Nat := do
  if ← p hint then
    let (last, offset) ← stride (fun k => p (hint + k)) (n - hint) 0 1
    halve p (hint + last + 1) (hint + offset)
  else
    let (last, offset) ← stride (fun k => do return !(← p (hint - k))) (hint + 1) 0 1
    halve p (hint + 1 - offset) (hint - last)

/-- Whether the item at a place satisfies a condition. -/
def holdsAt (items : List α) (p : α → Except ε Bool) (i : Nat) : Except ε Bool :=
  match items[i]? with
  | some x => p x
  | none => .ok false

/-- How many items stand before a key. -/
def countBefore (lt : α → α → Except ε Bool) (key : α) (items : List α) (hint : Nat) :
    Except ε Nat :=
  boundary (holdsAt items fun x => lt x key) items.length hint

/-- How many items a key does not stand before. -/
def countUpTo (lt : α → α → Except ε Bool) (key : α) (items : List α) (hint : Nat) :
    Except ε Nat :=
  boundary (holdsAt items fun x => do return !(← lt key x)) items.length hint

end ConsentGate.Sorting
