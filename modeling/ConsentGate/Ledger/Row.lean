import ConsentGate.Ledger.Cell
import ConsentGate.Scrub.Entity
import ConsentGate.Value.JsonReader

/-! Rows of the ledger.

A row has a scrubbed entity's attributes and the provenance of its contribution in typed columns; times
are in UTC. The open-ended properties and metadata are kept as canonical JSON. An entity becomes a row
in two steps: a draft has times and JSON encoded, and in the row every attribute is cast to the type
of its column. -/
namespace ConsentGate.Ledger
open Calendar Scrub
set_option autoImplicit false

/-- Provenance that is stored beside a scrubbed entity. -/
structure Provenance where
  domain : String
  entityType : String
  tenantHash : String
  level : Level
  consentVersion : String
  ingestedAt : Value

/-! ## Drafts -/

/-- What an entity's row is made of; attributes are still as the entity has them. -/
structure Draft where
  id : Value
  type : Value
  provenance : Provenance
  ingestedAt : Option Timestamp
  version : Value
  source : Value
  createdAt : Option Timestamp
  updatedAt : Option Timestamp
  isDeleted : Value
  deletedAt : Option Timestamp
  properties : List Char
  metadata : List Char

/-- A time column: nothing, or a timestamp in UTC. -/
def timeColumn : Value → Except Fault (Option Timestamp)
  | .null => .ok none
  | .datetime t =>
    match t.toUtc? with
    | some u => .ok (some u)
    | none => .error .outOfRange
  | _ => .error .noSuchMember

/-- The draft of a scrubbed entity. -/
def Draft.of (s : Scrubbed) (p : Provenance) : Except Fault Draft := do
  let ingestedAt ← timeColumn p.ingestedAt
  let createdAt ← timeColumn s.createdAt
  let updatedAt ← timeColumn s.updatedAt
  let deletedAt ← timeColumn s.deletedAt
  let properties ← s.properties.json
  let metadata ← s.metadata.json
  return {
    id := s.id
    type := s.type
    provenance := p
    ingestedAt := ingestedAt
    version := s.version
    source := s.source
    createdAt := createdAt
    updatedAt := updatedAt
    isDeleted := s.isDeleted
    deletedAt := deletedAt
    properties := properties
    metadata := metadata }

/-! ## Rows -/

structure Row where
  id : String
  type : Option String
  provenance : Provenance
  ingestedAt : Option Timestamp
  version : Option String
  source : Option String
  createdAt : Option Timestamp
  updatedAt : Option Timestamp
  isDeleted : Option Bool
  deletedAt : Option Timestamp
  properties : List Char
  metadata : List Char

/-- The row of a draft. All cells are made before any is cast, and the identifier must be there. -/
def Row.of (d : Draft) : Except Fault Row := do
  let id ← Cell.of d.id
  let type ← Cell.of d.type
  let version ← Cell.of d.version
  let source ← Cell.of d.source
  let isDeleted ← Cell.of d.isDeleted
  if [id, type, version, source].all (·.type.castsToText) ∧ isDeleted.type.castsToFlag then
    let idText ← id.toText
    let type ← type.toText
    let version ← version.toText
    let source ← source.toText
    let isDeleted ← isDeleted.toFlag
    match idText with
    | none => .error .wrongValue
    | some id =>
      return {
        id := id
        type := type
        provenance := d.provenance
        ingestedAt := d.ingestedAt
        version := version
        source := source
        createdAt := d.createdAt
        updatedAt := d.updatedAt
        isDeleted := isDeleted
        deletedAt := d.deletedAt
        properties := d.properties
        metadata := d.metadata }
  else .error .wrongValue

/-- An identifier that is a text stays as it is. -/
theorem Row.id_of {d : Draft} {r : Row} {s : String} (h : Row.of d = .ok r) (hid : d.id = .str s) :
    r.id = s := by
  rw [Row.of, hid, Cell.of_str] at h
  simp only [bind, Except.bind, Cell.toText_str, pure, Except.pure] at h
  repeat' split at h
  all_goals cases h
  rfl

/-- The columns of a row as they are read back, JSON decoded. -/
def Row.columns (r : Row) : List (String × Value) :=
  let text (s : Option String) : Value := (s.map Value.str).getD .null
  [("id", .str r.id), ("type", text r.type), ("entity_type", .str r.provenance.entityType),
    ("domain", .str r.provenance.domain),
    ("original_tenant_hash", .str r.provenance.tenantHash),
    ("scrubbing_level", .str r.provenance.level.name),
    ("consent_version", .str r.provenance.consentVersion),
    ("ingested_at", Value.ofTime r.ingestedAt), ("scrubbed", .bool true),
    ("version", text r.version), ("source", text r.source),
    ("created_at", Value.ofTime r.createdAt), ("updated_at", Value.ofTime r.updatedAt),
    ("is_deleted", (r.isDeleted.map Value.bool).getD .null),
    ("deleted_at", Value.ofTime r.deletedAt), ("properties", (Value.ofJson? r.properties).getD .null),
    ("metadata", (Value.ofJson? r.metadata).getD .null)]

end ConsentGate.Ledger
