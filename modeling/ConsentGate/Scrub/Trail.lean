import ConsentGate.Failure
import ConsentGate.Log
import ConsentGate.Value.Basic

/-! What scrubbing leaves behind besides its result.

A trail lists the paths of the fields that were touched, by what happened to them, and the lines
logged. Trails are joined by appending each list; so the trail of a whole is the join of the trails of
its parts. -/
namespace ConsentGate.Scrub
set_option autoImplicit false

structure Trail where
  removed : List String := []
  tokenized : List String := []
  generalized : List String := []
  failed : List String := []
  log : Log := []
  deriving DecidableEq, Repr

namespace Trail

def empty : Trail := {}

def join (s t : Trail) : Trail :=
  ⟨s.removed ++ t.removed, s.tokenized ++ t.tokenized, s.generalized ++ t.generalized,
    s.failed ++ t.failed, s.log ++ t.log⟩

/-- How many fields were removed, tokenised, generalised or dropped on a fault. -/
def changed (t : Trail) : Nat :=
  t.removed.length + t.tokenized.length + t.generalized.length + t.failed.length

@[simp] theorem empty_join (t : Trail) : empty.join t = t := by
  simp [empty, join]

@[simp] theorem join_empty (t : Trail) : t.join empty = t := by
  simp [empty, join]

theorem join_assoc (s t u : Trail) : (s.join t).join u = s.join (t.join u) := by
  simp [join]

end Trail

/-- A result or a fault, with the trail left until then. -/
structure Attempt (α : Type) where
  result : Except Fault α
  trail : Trail

namespace Attempt

variable {α β : Type}

def ok (a : α) : Attempt α := ⟨.ok a, .empty⟩

def fail (f : Fault) : Attempt α := ⟨.error f, .empty⟩

def map (f : α → β) (x : Attempt α) : Attempt β := ⟨x.result.map f, x.trail⟩

/-- Goes on with the result, unless there is none; the trails are joined. -/
def andThen (x : Attempt α) (f : α → Attempt β) : Attempt β :=
  match x.result with
  | .error e => ⟨.error e, x.trail⟩
  | .ok a =>
    let y := f a
    ⟨y.result, x.trail.join y.trail⟩

@[simp] theorem map_result (f : α → β) (x : Attempt α) : (x.map f).result = x.result.map f := rfl

@[simp] theorem map_trail (f : α → β) (x : Attempt α) : (x.map f).trail = x.trail := rfl

@[simp] theorem ok_andThen (a : α) (f : α → Attempt β) : (ok a).andThen f = f a := by
  simp [ok, andThen]

theorem andThen_of_error {x : Attempt α} {e : Fault} (h : x.result = .error e)
    (f : α → Attempt β) : x.andThen f = ⟨.error e, x.trail⟩ := by
  simp [andThen, h]

theorem andThen_of_ok {x : Attempt α} {a : α} (h : x.result = .ok a) (f : α → Attempt β) :
    x.andThen f = ⟨(f a).result, x.trail.join (f a).trail⟩ := by
  simp [andThen, h]

end Attempt

end ConsentGate.Scrub
