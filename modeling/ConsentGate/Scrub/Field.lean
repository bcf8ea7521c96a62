import ConsentGate.Credential.Scan
import ConsentGate.Field.Rules
import ConsentGate.Hasher
import ConsentGate.Scrub.Trail
import ConsentGate.Text.CaseFold
import ConsentGate.Value.Model
import ConsentGate.Value.Moment

/-! Scrubbing of fields.

A field whose key is stripped at every level is removed, and so is every text that names the entity or
its tenant or carries a credential. Personal fields are removed, tokenised or kept according to the
level. What is left is scrubbed inside; at the strict level dates lose their day. A field that meets a
fault is dropped and recorded, and its neighbours are not affected. -/
namespace ConsentGate.Scrub
open ConsentGate.Field Text
set_option autoImplicit false
-- Parts of a text are found as the core library does it, also where Mathlib knows another way.
attribute [local instance (high)] List.instDecidableIsInfixOfDecidableEq

/-- What the scrubbing of one entity depends on. -/
structure Context where
  hasher : Hasher
  rules : Rules
  scanValues : Bool
  /-- The kinds of credentials that a line scanner finds. -/
  detect : List Char → List String
  level : Level
  /-- The entity's type as log lines show it. -/
  typeText : String
  /-- Folded identifiers that no text may contain. -/
  forbidden : List (List Char)

namespace Context

/-- The text contains an identifier of the entity or its tenant. -/
def referencesIdentity (c : Context) (s : String) : Bool :=
  let folded := caseFold s.toList
  c.forbidden.any fun raw => decide (raw <:+: folded)

def isUnsafeText (c : Context) (s : String) : Bool :=
  c.referencesIdentity s || (c.scanValues && Credential.isPresentBy c.detect s.toList)

def isUnsafe (c : Context) : Value → Bool
  | .str s => c.isUnsafeText s
  | _ => false

end Context

/-! ## One field -/

/-- The field is gone and recorded as removed. -/
def remove (path : String) : Attempt (Option Value) := ⟨.ok none, { removed := [path] }⟩

/-- A date under a date-like key loses its day; everything else is kept. -/
def keepOrGeneralize (c : Context) (name : List Char) (path : String) (v : Value) :
    Attempt (Option Value) :=
  if c.level = .strict ∧ c.rules.isDateKey name ∧ v.isDate (c.rules.isEpochKey name) then
    match v.generalizeDate path with
    | .ok w => ⟨.ok (some w), { generalized := [path] }⟩
    | .error f => .fail (.named f)
  else .ok (some v)

/-- A value without parts. -/
def scrubLeaf (c : Context) (name : List Char) (path : String) (v : Value) :
    Attempt (Option Value) :=
  if c.isUnsafe v then remove path
  else
    match v.check path with
    | .error f => .fail (.named f)
    | .ok () => keepOrGeneralize c name path v

/-- A field by the category of its key; `byValue` scrubs its value. -/
def scrubField (c : Context) (name : List Char) (path : String) (v : Value)
    (byValue : Unit → Attempt (Option Value)) : Attempt (Option Value) :=
  let category := c.rules.classify name
  if category.isStripped then remove path
  else if category.isPersonal then
    match c.level with
    | .strict => remove path
    | .moderate =>
      if c.isUnsafe v then remove path
      else ⟨(c.hasher.tokenize v).map some, { tokenized := [path] }⟩
    | .minimal => byValue ()
  else byValue ()

def failureLine (c : Context) (path : String) (f : Fault) : LogLine :=
  .event .warning "field_scrub_failed"
    [("entity_type", c.typeText), ("field", path), ("error", f.name)]

/-- The field as it enters the result: a fault drops it and is recorded. -/
def settle (c : Context) (key : Value) (path : String) (x : Attempt (Option Value)) :
    Fields × Trail :=
  match x.result with
  | .ok (some v) => ([(key, v)], x.trail)
  | .ok none => ([], x.trail)
  | .error f => ([], x.trail.join { failed := [path], log := [failureLine c path f] })

/-! ## Values with parts -/

mutual
/-- A value under the key `name` at a path. -/
def scrubValue (c : Context) (name : List Char) (path : String) :
    Value → Attempt (Option Value)
  | .map fields => (scrubFields c path fields).map fun kept => some (.map kept)
  | .list items => (scrubItems c name path 0 items).map fun kept => some (.list kept)
  | v => scrubLeaf c name path v

/-- The items of a list from index `i` on; a fault in one of them is a fault of the list. -/
def scrubItems (c : Context) (name : List Char) (path : String) (i : Nat) :
    List Value → Attempt (List Value)
  | [] => .ok []
  | v :: rest =>
    (scrubValue c name (Value.itemPath path i) v).andThen fun kept =>
      (scrubItems c name path (i + 1) rest).map fun others => kept.toList ++ others

/-- The fields of a map. Only a key without text makes the whole map fail. -/
def scrubFields (c : Context) (path : String) : List (Value × Value) → Attempt Fields
  | [] => .ok []
  | (key, v) :: rest =>
    match key.plain with
    | .error f => .fail f
    | .ok name =>
      let path' := Value.fieldPath path (String.ofList name)
      let (kept, trail) :=
        settle c key path' (scrubField c name path' v fun _ => scrubValue c name path' v)
      let others := scrubFields c path rest
      ⟨others.result.map (kept ++ ·), trail.join others.trail⟩
end

end ConsentGate.Scrub
