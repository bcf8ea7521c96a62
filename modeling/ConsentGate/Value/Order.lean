import ConsentGate.Sorting.Basic
import ConsentGate.Value.Basic

/-! The order of keys.

Texts go by code points, numbers of every kind by value, bytes, dates and timestamps as usual, and
tuples by the first items that differ. Values of two kinds, and of any other kind, cannot be put in
order; nor can a timestamp with an offset and one without. -/
namespace ConsentGate.Value
open Calendar Number
set_option autoImplicit false

/-! ## Equality -/

/-- The same instant, or the same wall clock where neither has an offset. -/
def sameTime (t u : Timestamp) : Bool :=
  t.offset.isSome == u.offset.isSome && t.instant == u.instant

mutual
/-- Whether two keys are equal. A thing that is none of the known kinds equals no other. -/
def same : Value → Value → Bool
  | .null, .null => true
  | .str s, .str t => s == t
  | .date d, .date e => d == e
  | .datetime t, .datetime u => sameTime t u
  | .bytes bs, .bytes cs => bs == cs
  | .level l, .level m => l == m
  | .tuple items, .tuple others => sameItems items others
  | v, w =>
    match v.quantity?, w.quantity? with
    | some x, some y => x.same y
    | _, _ => false

def sameItems : List Value → List Value → Bool
  | [], [] => true
  | v :: rest, w :: others => same v w && sameItems rest others
  | _, _ => false
end

/-! ## Order -/

mutual
/-- Whether a key stands before another, unless they cannot be put in order. -/
def lt? : Value → Value → Except Fault Bool
  | .str s, .str t => .ok (decide (s < t))
  | .date d, .date e => .ok (decide (d.ordinal < e.ordinal))
  | .datetime t, .datetime u =>
    if t.offset.isSome = u.offset.isSome then .ok (decide (t.instant < u.instant))
    else .error .wrongType
  | .bytes bs, .bytes cs => .ok (decide (bs < cs))
  | .tuple items, .tuple others => ltItems? items others
  | v, w =>
    match v.quantity?, w.quantity? with
    | some x, some y => x.lt? y
    | _, _ => .error .wrongType

/-- Items go by the first that differ; where none do, the shorter list comes first. -/
def ltItems? : List Value → List Value → Except Fault Bool
  | [], others => .ok (!others.isEmpty)
  | _ :: _, [] => .ok false
  | v :: rest, w :: others => if same v w then ltItems? rest others else lt? v w
end

/-- The fields of a map by their keys. Keys that are texts can always be sorted; among others the
first two compared that cannot be put in order end it. -/
def sortByKey {α : Type} (fields : List (Value × α)) : Except Fault (List (Value × α)) :=
  if fields.all fun f => f.1.isStr then
    .ok (fields.mergeSort fun a b => decide (¬ b.1.textD < a.1.textD))
  else Sorting.sort (fun a b => lt? a.1 b.1) fields

end ConsentGate.Value
