/-! What can go wrong.

A `Failure` is one that this library names: it has a message, which never carries a property value, and
says whether a retry may help. The kinds form a tree under the general failure. A `Fault` is any way
in which a step can end without a result: a named failure, or an operation applied to a value that it
does not take. -/
namespace ConsentGate
set_option autoImplicit false

/-! ## Kinds -/

inductive FailureKind where
  | general
  | invalidArgument
  | invalidEntity
  | propertyDecode
  | invalidConsent
  | consentLookup
  | scrub
  | configuration
  | storage
  | isolation
  deriving DecidableEq, Repr

namespace FailureKind

def name : FailureKind → String
  | .general => "DataNetworkError"
  | .invalidArgument => "InvalidArgumentError"
  | .invalidEntity => "InvalidEntityError"
  | .propertyDecode => "PropertyDecodeError"
  | .invalidConsent => "InvalidConsentError"
  | .consentLookup => "ConsentLookupError"
  | .scrub => "ScrubError"
  | .configuration => "ConfigurationError"
  | .storage => "StorageError"
  | .isolation => "IsolationError"

def parent? : FailureKind → Option FailureKind
  | .general => none
  | .invalidEntity => some .invalidArgument
  | .isolation => some .storage
  | _ => some .general

/-- The kinds above a kind, the nearest first. -/
def ancestors (k : FailureKind) : List FailureKind :=
  match k.parent? with
  | none => []
  | some p =>
    match p.parent? with
    | none => [p]
    | some q => [p, q]

end FailureKind

/-! ## Failures -/

inductive Failure where
  | general (message : String)
  | invalidArgument (argument reason : String)
  | invalidEntity (reason : String)
  /-- A property holds a value of type `actual` where `expected` was asked for. -/
  | propertyDecode (key expected actual : String)
  | invalidConsent (reason : String)
  | consentLookup (tenant reason : String)
  | scrub (entityType reason : String)
  | configuration (reason : String)
  | storage (operation reason : String) (retryable : Bool) (retryAfter : Option Int)
  /-- The network's location overlaps that of the production store. -/
  | isolation (network production : String)
  deriving DecidableEq, Repr

namespace Failure

def kind : Failure → FailureKind
  | .general .. => .general
  | .invalidArgument .. => .invalidArgument
  | .invalidEntity .. => .invalidEntity
  | .propertyDecode .. => .propertyDecode
  | .invalidConsent .. => .invalidConsent
  | .consentLookup .. => .consentLookup
  | .scrub .. => .scrub
  | .configuration .. => .configuration
  | .storage .. => .storage
  | .isolation .. => .isolation

/-- Why two locations may not be used together. -/
def overlapReason (network production : String) : String :=
  "data network location " ++ network ++ " overlaps production store " ++ production

def message : Failure → String
  | .general message => message
  | .invalidArgument argument reason => "Invalid " ++ argument ++ ": " ++ reason
  | .invalidEntity reason => "Invalid entity: " ++ reason
  | .propertyDecode key expected actual =>
    "Property '" ++ key ++ "' cannot be decoded as " ++ expected ++ " (found " ++ actual ++ ")"
  | .invalidConsent reason => "Invalid consent record: " ++ reason
  | .consentLookup tenant reason => "Consent lookup for tenant " ++ tenant ++ " failed: " ++ reason
  | .scrub entityType reason => "Failed to scrub " ++ entityType ++ " entity: " ++ reason
  | .configuration reason => "Configuration error: " ++ reason
  | .storage operation reason _ _ => "Storage " ++ operation ++ " failed: " ++ reason
  | .isolation network production => "Storage open failed: " ++ overlapReason network production

def retryable : Failure → Bool
  | .consentLookup .. => true
  | .storage _ _ retryable _ => retryable
  | _ => false

end Failure

/-! ## Faults -/

inductive Fault where
  | named (f : Failure)
  /-- Canonical JSON met a value of a type that it does not take. -/
  | unsupported (typeName : String)
  | wrongType
  | wrongValue
  | noSuchMember
  | outOfRange
  /-- A failure of something outside, known by its name alone. -/
  | external (name : String)
  deriving DecidableEq, Repr

namespace Fault

def name : Fault → String
  | .named f => f.kind.name
  | .unsupported _ => "TypeError"
  | .wrongType => "TypeError"
  | .wrongValue => "ValueError"
  | .noSuchMember => "AttributeError"
  | .outOfRange => "OverflowError"
  | .external name => name

def message? : Fault → Option String
  | .named f => some f.message
  | .unsupported typeName => some (typeName ++ " is not a PropertyValue")
  | _ => none

def retryable : Fault → Bool
  | .named f => f.retryable
  | _ => false

end Fault

/-! ## Results -/

theorem exists_eq_ok {ε α : Type} {x : Except ε α} (h : x.isOk = true) : ∃ a, x = .ok a := by
  cases x with
  | error e => cases h
  | ok a => exact ⟨a, rfl⟩

theorem exists_ok_of_any {ε α : Type} {x : Except ε α} {p : α → Bool}
    (h : x.toOption.any p = true) : ∃ a, x = .ok a ∧ p a = true := by
  cases x with
  | error e => cases h
  | ok a => exact ⟨a, rfl, h⟩

theorem bind_eq_ok {ε α β : Type} {x : Except ε α} {f : α → Except ε β} {b : β} :
    (x >>= f) = .ok b ↔ ∃ a, x = .ok a ∧ f a = .ok b := by
  cases x with
  | error e =>
    constructor
    · intro h
      cases h
    · rintro ⟨a, h, _⟩
      cases h
  | ok a =>
    constructor
    · intro h
      exact ⟨a, rfl, h⟩
    · rintro ⟨a', h, hf⟩
      cases h
      exact hf

theorem bind_eq_error {ε α β : Type} {x : Except ε α} {f : α → Except ε β} {e : ε} :
    (x >>= f) = .error e ↔ x = .error e ∨ ∃ a, x = .ok a ∧ f a = .error e := by
  cases x with
  | error e' =>
    constructor
    · intro h
      cases h
      exact Or.inl rfl
    · rintro (h | ⟨a, h, _⟩)
      · cases h
        rfl
      · cases h
  | ok a =>
    constructor
    · intro h
      exact Or.inr ⟨a, rfl, h⟩
    · rintro (h | ⟨a', h, hf⟩)
      · cases h
      · cases h
        exact hf

theorem map_eq_ok {ε α β : Type} {x : Except ε α} {f : α → β} {b : β} :
    x.map f = .ok b ↔ ∃ a, x = .ok a ∧ f a = b := by
  cases x with
  | error e =>
    constructor
    · intro h
      cases h
    · rintro ⟨a, h, _⟩
      cases h
  | ok a =>
    constructor
    · intro h
      exact ⟨a, rfl, Except.ok.inj h⟩
    · rintro ⟨a', h, hf⟩
      cases h
      exact congrArg Except.ok hf

theorem exists_of_map_eq_ok {ε α : Type} {x : Except ε α} (h : x.map (fun _ => ()) = .ok ()) :
    ∃ a, x = .ok a := by
  obtain ⟨a, ha, _⟩ := map_eq_ok.mp h
  exact ⟨a, ha⟩

theorem eq_error_of_map {ε α : Type} {x : Except ε α} {e : ε} (h : x.map (fun _ => ()) = .error e) :
    x = .error e := by
  cases x <;> cases h
  rfl

theorem mapError_eq_ok {ε δ α : Type} {x : Except ε α} {f : ε → δ} {a : α} :
    x.mapError f = .ok a ↔ x = .ok a := by
  cases x with
  | error e => exact ⟨nofun, nofun⟩
  | ok b => exact ⟨congrArg Except.ok ∘ Except.ok.inj, congrArg Except.ok ∘ Except.ok.inj⟩

theorem mapError_eq_error {ε δ α : Type} {x : Except ε α} {f : ε → δ} {d : δ} :
    x.mapError f = .error d ↔ ∃ e, x = .error e ∧ f e = d := by
  cases x with
  | error e =>
    constructor
    · intro h
      exact ⟨e, rfl, Except.error.inj h⟩
    · rintro ⟨e', h, hf⟩
      cases h
      exact congrArg Except.error hf
  | ok b =>
    constructor
    · intro h
      cases h
    · rintro ⟨e', h, _⟩
      cases h

end ConsentGate
