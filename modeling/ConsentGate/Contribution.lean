import ConsentGate.Consent.Validator
import ConsentGate.Entity.Domain
import ConsentGate.Ledger.Store

/-! Contribution of an entity: consent, scrubbing, storing.

`contribute` runs one entity through four collaborators, each of which may change a state of any kind
and may fail. It never fails itself except for what is no entity or has no type; every other fault
ends in the outcome `failed`, before anything is written. `Network` puts in the real collaborators. -/
namespace ConsentGate
open Consent Ledger Scrub Text
set_option autoImplicit false

inductive Outcome where
  | accepted
  | rejectedNoConsent
  | rejectedOutOfScope
  | failed
  deriving DecidableEq, Repr

def Outcome.name : Outcome → String
  | .accepted => "accepted"
  | .rejectedNoConsent => "rejected_no_consent"
  | .rejectedOutOfScope => "rejected_out_of_scope"
  | .failed => "failed"

/-- A step over a state that may end in a fault; the state is kept also then. -/
abbrev Step (σ α : Type) := σ → Except Fault α × σ

/-- The collaborators of a contribution. -/
structure Collaborators (σ : Type) where
  validate : Value → String → Step σ Decision
  scrub : Entity → String → Level → Step σ Scrubbed
  clock : Step σ Value
  store : Scrubbed → Provenance → Step σ Unit

namespace Collaborators

variable {σ : Type}

/-- What the stages before the last line come to. -/
inductive Ending where
  | rejected (d : Decision)
  | stored (d : Decision)

/-- The provenance of a contribution. -/
def provenance (domain type : String) (d : Decision) (s : Scrubbed) (now : Value) : Provenance :=
  ⟨domain, type, s.tenantHash, d.level, d.version, now⟩

/-- The stages for an entity of a type: nothing is scrubbed without consent, and nothing is stored
that was not scrubbed at the level of that consent. -/
def stages (w : Collaborators σ) (e : Entity) (domain type : String) : Step σ Ending := fun s =>
  match w.validate e.tenantId type s with
  | (.error f, s) => (.error f, s)
  | (.ok d, s) =>
    if !d.permits then (.ok (.rejected d), s)
    else
      match w.scrub e type d.level s with
      | (.error f, s) => (.error f, s)
      | (.ok scrubbed, s) =>
        match w.clock s with
        | (.error f, s) => (.error f, s)
        | (.ok now, s) =>
          match w.store scrubbed (provenance domain type d scrubbed now) s with
          | (.error f, s) => (.error f, s)
          | (.ok (), s) => (.ok (.stored d), s)

/-- The outcome of the stages and the line that reports it. -/
def report (e : Entity) (domain type : String) : Except Fault Ending → Outcome × LogLine
  | .error f =>
    (.failed,
      .event .error "contribution_failed"
        [("entity_type", type), ("domain", domain), ("tenant_id", e.tenantId.messageText),
          ("error", f.name)])
  | .ok (.rejected d) =>
    if d.hasConsent then
      (.rejectedOutOfScope,
        .event .info "contribution_rejected_out_of_scope"
          [("entity_type", type), ("domain", domain)])
    else
      (.rejectedNoConsent,
        .event .info "contribution_rejected_no_consent"
          [("entity_type", type), ("domain", domain)])
  | .ok (.stored d) =>
    (.accepted,
      .event .info "contribution_accepted"
        [("entity_type", type), ("domain", domain), ("scrubbing_level", d.level.name)])

/-- The entity with its type, if it is one that can be contributed. -/
def admissible (e : Option Entity) : Except Failure (Entity × String) :=
  match e with
  | none => .error (.invalidEntity "an Entity is required")
  | some e =>
    match e.type.str?.filter fun t => !allBlank t.toList with
    | some type => .ok (e, type)
    | none => .error (.invalidEntity "entity type is required")

/-- Contributes an entity; `none` stands for whatever is no entity. -/
def contribute (w : Collaborators σ) (e : Option Entity) (s : σ) :
    Except Failure (Outcome × LogLine) × σ :=
  match admissible e with
  | .error f => (.error f, s)
  | .ok (e, type) =>
    let (ending, s) := w.stages e e.domain type s
    (.ok (report e e.domain type ending), s)

end Collaborators

/-! ## The real collaborators -/

/-- Everything that a contribution reads or changes, with the lines logged so far. -/
structure Network where
  validator : Validator
  scrubber : Scrubber
  ingestedAt : Value
  store : Store
  log : Log := []

namespace Network

def validate (tenant : Value) (type : String) : Step Network Decision := fun n =>
  let (result, log, validator) := n.validator.validate tenant (.str type)
  (result, { n with validator := validator, log := n.log ++ log })

def scrub (e : Entity) (type : String) (level : Level) : Step Network Scrubbed := fun n =>
  let (result, log) := n.scrubber.scrub (some e) (.str type) (.level level)
  (result, { n with log := n.log ++ log })

def append (s : Scrubbed) (p : Provenance) : Step Network Unit := fun n =>
  let (result, log, store) := n.store.append (some s) (some p)
  (result, { n with store := store, log := n.log ++ log })

def collaborators : Collaborators Network where
  validate := validate
  scrub := scrub
  clock := fun n => (.ok n.ingestedAt, n)
  store := append

/-- Contributes an entity and logs how it ended. -/
def contribute (n : Network) (e : Option Entity) : Except Failure Outcome × Network :=
  match collaborators.contribute e n with
  | (.error f, n) => (.error f, n)
  | (.ok (outcome, line), n) => (.ok outcome, { n with log := n.log ++ [line] })

/-- Whether the entity was written. -/
def process (n : Network) (e : Option Entity) : Except Failure Bool × Network :=
  let (result, n) := n.contribute e
  (result.map (· == .accepted), n)

end Network

end ConsentGate
