import ConsentGate.Entity.Basic
import ConsentGate.Text.Blank
import ConsentGate.Value.Model
import ConsentGate.Value.Moment
import ConsentGate.Value.Text

/-! Entities read from payloads of other services.

A payload is a map with keys in camel case. Its type must be a text that is not blank, properties and
metadata must stay within the value model, and the times must be readable. -/
namespace ConsentGate.Entity
open Calendar
set_option autoImplicit false

/-- The properties of a payload; whatever counts as nothing stands for none. -/
def payloadProperties (fields : Fields) : Except Failure Fields :=
  let v := Value.getD fields "properties"
  match v with
  | .map properties => .ok properties
  | v =>
    if v.truthy then .error (.invalidEntity "properties must be an object") else .ok []

def payloadMetadata (fields : Fields) : Except Failure (Option Fields) :=
  match Value.getD fields "metadata" with
  | .null => .ok none
  | .map metadata => .ok (some metadata)
  | _ => .error (.invalidEntity "metadata must be an object")

/-- A failure met in a payload, as a failure of the entity. -/
def asInvalid {α : Type} (r : Except Failure α) : Except Failure α :=
  r.mapError fun f => .invalidEntity f.message

def payloadTime? (fields : Fields) (name : String) : Except Failure (Option Timestamp) :=
  match Value.getD fields name with
  | .null => .ok none
  | v => (v.toTimestamp name).map some

def payloadType (fields : Fields) : Except Failure String :=
  match Value.getD fields "type" with
  | .str s =>
    if Text.allBlank s.toList then .error (.invalidEntity "type must be a non-empty string")
    else .ok s
  | _ => .error (.invalidEntity "type must be a non-empty string")

/-- The text of what stands under a key; whatever counts as nothing has the default. -/
def payloadText (fields : Fields) (name default : String) : Except Fault String :=
  let v := Value.getD fields name
  if v.truthy then v.plainString else .ok default

/-- The parts of a payload that are checked. -/
structure PayloadParts where
  properties : Fields
  metadata : Option Fields
  createdAt : Option Timestamp
  updatedAt : Option Timestamp
  deletedAt : Option Timestamp

def checkMetadata : Option Fields → Except Failure Unit
  | none => .ok ()
  | some metadata => (Value.map metadata).check "metadata"

/-- Properties and metadata, which must stay within the value model, and the times. -/
def payloadParts (fields : Fields) : Except Failure PayloadParts := do
  let properties ← payloadProperties fields
  let metadata ← payloadMetadata fields
  asInvalid do
    (Value.map properties).check "properties"
    checkMetadata metadata
    let createdAt ← payloadTime? fields "createdAt"
    let updatedAt ← payloadTime? fields "updatedAt"
    let deletedAt ← payloadTime? fields "deletedAt"
    return ⟨properties, metadata, createdAt, updatedAt, deletedAt⟩

def ofFields (now : Timestamp) (fields : Fields) : Except Fault Entity := do
  let type ← (payloadType fields).mapError .named
  let parts ← (payloadParts fields).mapError .named
  let id ← payloadText fields "id" ""
  let version ← payloadText fields "version" "1.0"
  let createdAt := parts.createdAt.getD now
  return {
    id := .str id
    type := .str type
    properties := .map parts.properties
    metadata := (parts.metadata.map Value.map).getD .null
    tenantId := Value.getD fields "tenantId"
    version := .str version
    source := Value.getD fields "source"
    createdAt := .datetime createdAt
    updatedAt := .datetime (parts.updatedAt.getD createdAt)
    createdBy := Value.getD fields "createdBy"
    updatedBy := Value.getD fields "updatedBy"
    isDeleted := .bool (Value.getD fields "isDeleted").truthy
    deletedAt := .ofTime parts.deletedAt
    deletedBy := Value.getD fields "deletedBy" }

/-- The entity that a payload describes; `now` is when it was created if it does not say. -/
def ofPayload (now : Timestamp) : Value → Except Fault Entity
  | .map fields => ofFields now fields
  | _ => .error (.named (.invalidEntity "payload must be a mapping"))

end ConsentGate.Entity
