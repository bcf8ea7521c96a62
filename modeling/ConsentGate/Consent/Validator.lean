import ConsentGate.Consent.Cache
import ConsentGate.Consent.Source
import ConsentGate.Log

/-! Consent decisions that fail closed.

Whatever cannot positively establish consent leads to a denial: no tenant, no record, a failed lookup,
a malformed payload. Only an entity type that is empty is a fault of the caller. -/
namespace ConsentGate.Consent
open Number Text
set_option autoImplicit false

/-- A cache of records; that a tenant has none is kept as well. -/
abbrev RecordCache := Cache (Option Record)

structure Validator where
  source : Source
  cache : Option RecordCache
  now : Quantity := .whole 1000
  /-- How many lookups have reached the source. -/
  lookups : Nat := 0

/-- The record that an answer gives. -/
def Answer.toRecord : Answer → Except Fault (Option Record)
  | .absent => .ok none
  | .record r => .ok (some r)
  | .payload .null => .ok none
  | .payload (.map fields) => (Record.ofPayload (.map fields)).map some
  | .payload v => .error (invalid ("unsupported consent payload " ++ v.typeName))

/-- Every failure of a source is a failed lookup. -/
def asLookupFault (tenant : String) : Fault → Fault
  | .named (.consentLookup t reason) => .named (.consentLookup t reason)
  | f => .named (.consentLookup tenant f.name)

namespace Validator

/-- Forgets what is cached for a tenant. -/
def invalidate (v : Validator) (tenant : String) : Validator :=
  { v with cache := v.cache.map fun c => (c.invalidate tenant).2 }

/-! ## Changes -/

def setConsent (v : Validator) (tenant : String) (answer : Answer) : Validator :=
  let v := { v with source := v.source.set tenant answer }
  if v.source.tells then v.invalidate tenant else v

def removeConsent (v : Validator) (tenant : String) : Validator :=
  let v := { v with source := v.source.remove tenant }
  if v.source.tells then v.invalidate tenant else v

def advance (v : Validator) (elapsed : Value) : Except Fault Validator := do
  return { v with now := ← later v.now elapsed }

/-! ## Lookup -/

/-- Asks the source; tenants invalidated meanwhile are forgotten. -/
def consult (v : Validator) (tenant : String) : Except Fault (Option Record) × Validator :=
  let (reply, source) := v.source.ask tenant
  let v := { v with source := source, lookups := v.lookups + 1 }
  let v := reply.invalidated.foldl invalidate v
  ((reply.answer.mapError (asLookupFault tenant)).bind Answer.toRecord, v)

/-- Hands a record on and keeps it in the cache, if there is one, unless the generation has changed. -/
def keep (v : Validator) (tenant : String) (record : Option Record) (generation : Nat) :
    Except Fault (Option Record) × Validator :=
  match v.cache with
  | none => (.ok record, v)
  | some c =>
    let (kept, c) := c.put v.now tenant record (some (generation : Int))
    (kept.map fun _ => record, { v with cache := some c })

/-- The record of a tenant, from the cache or else from the source. -/
def lookup (v : Validator) (tenant : String) : Except Fault (Option Record) × Validator :=
  match v.cache with
  | none => v.consult tenant
  | some c =>
    let (hit, c) := c.get v.now tenant
    let v := { v with cache := some c }
    match hit with
    | .error f => (.error f, v)
    | .ok (some record) => (.ok record, v)
    | .ok none =>
      let (result, v) := v.consult tenant
      match result with
      | .error f => (.error f, v)
      | .ok record => v.keep tenant record c.generation

/-! ## Decisions -/

def boolName (b : Bool) : String := if b then "True" else "False"

/-- The decision that a record leads to. -/
def judge (tenant entityType : String) : Option Record → Decision × Log
  | none =>
    (Decision.denied standardVersion,
      [.event .debug "consent_denied"
        [("reason", "no_record"), ("tenant_id", tenant), ("entity_type", entityType)]])
  | some r =>
    if !r.hasConsent then
      (Decision.denied r.version,
        [.event .debug "consent_denied"
          [("reason", "opted_out"), ("tenant_id", tenant), ("entity_type", entityType)]])
    else
      let includes := r.allows entityType
      (⟨true, r.level, r.version, includes⟩,
        if includes then []
        else
          [.event .debug "consent_out_of_scope"
            [("tenant_id", tenant), ("entity_type", entityType),
              ("categories", ",".intercalate r.sortedCategories)]])

/-- Decides whether a tenant may contribute entities of a type. -/
def validate (v : Validator) (tenant entityType : Value) :
    Except Fault Decision × Log × Validator :=
  match entityType with
  | .str type =>
    if allBlank type.toList then
      (.error (.named (.invalidArgument "entity_type" "must be a non-empty string")), [], v)
    else
      match tenant.str?.filter fun t => !allBlank t.toList with
      | none =>
        (.ok (Decision.denied standardVersion),
          [.event .debug "consent_denied" [("reason", "no_tenant"), ("entity_type", type)]], v)
      | some tenant =>
        match v.lookup tenant with
        | (.error f, v) =>
          (.ok (Decision.denied standardVersion),
            [.event .warning "consent_lookup_failed"
              [("tenant_id", tenant), ("entity_type", type), ("error", f.name),
                ("retryable", boolName f.retryable)]], v)
        | (.ok record, v) =>
          let (decision, log) := judge tenant type record
          (.ok decision, log, v)
  | _ => (.error (.named (.invalidArgument "entity_type" "must be a non-empty string")), [], v)

end Validator

end ConsentGate.Consent
