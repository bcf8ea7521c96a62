import ConsentGate.Entity.Basic
import ConsentGate.Scrub.Field

/-! Scrubbing of a whole entity.

The result has a hashed identifier in place of the entity's own and no tenant; properties and metadata
are scrubbed field by field, and the metadata tell how and when that was done. Whoever hands over
something that cannot be scrubbed at all learns why. -/
namespace ConsentGate.Scrub
open Calendar Text
set_option autoImplicit false

structure Scrubber where
  hasher : Hasher
  rules : Field.Rules
  /-- Whether texts are searched for credentials. -/
  scanValues : Bool
  /-- What the line scanner of another library finds, as `Credential.scanLine` does. -/
  detect : List Char → List String
  /-- When the scrubbing takes place. -/
  clock : Timestamp

structure Audit where
  entityType : Value
  level : Level
  patternVersion : String
  trail : Trail

/-- A scrubbed entity. -/
structure Scrubbed where
  id : Value
  type : Value
  properties : Value
  metadata : Value
  audit : Audit
  version : Value
  source : Value
  createdAt : Value
  updatedAt : Value
  isDeleted : Value
  deletedAt : Value

/-! ## Provenance -/

def scrubbedKey : String := "scrubbed"

def levelKey : String := "scrubbing_level"

def typeKey : String := "entity_type"

def timeKey : String := "scrubbed_at"

def tenantHashKey : String := "original_tenant_id_hash"

def versionKey : String := "pattern_version"

/-- The keys that tell how an entity was scrubbed; an entity may not bring them along. -/
def provenanceKeys : List String :=
  [scrubbedKey, levelKey, typeKey, timeKey, tenantHashKey, versionKey]

def isProvenanceKey (key : Value) : Bool := provenanceKeys.any fun name => key.isText name

/-- The hash of the tenant as the metadata tell it, empty if they do not. -/
def Scrubbed.tenantHash (s : Scrubbed) : String :=
  match s.metadata with
  | .map fields => ((Value.getD fields tenantHashKey).str?).getD ""
  | _ => ""

/-! ## Attributes -/

/-- An identifier as it must not show up: without the blanks around it, and folded. -/
def forbiddenText (s : List Char) : Option (List Char) :=
  if allBlank s then none else some (caseFold (trim s))

def forbiddenTexts (e : Entity) : List (List Char) :=
  [e.id, e.tenantId].filterMap fun v => v.str?.bind fun s => forbiddenText s.toList

/-- What scrubbing takes from an identifier and its tenant: the texts that must not show up, and the
hashes, or why there are none. -/
structure Identity where
  forbidden : List (List Char)
  tenantHash : Except Fault String
  idHash : Except Fault String

/-- A time attribute: at the strict level only its month is kept, which only a timestamp has. -/
def baseTime (level : Level) (v : Value) : Except Fault Value :=
  match level, v with
  | .strict, .datetime t => .ok (.datetime t.monthStart)
  | .strict, .null => .ok .null
  | .strict, .str _ | .strict, .bytes _ | .strict, .date _ => .error .wrongType
  | .strict, _ => .error .noSuchMember
  | _, v => .ok v

namespace Scrubber

def identity (s : Scrubber) (e : Entity) : Identity :=
  ⟨forbiddenTexts e, s.hasher.hashTenant e.tenantId, s.hasher.hashIdentifier e.id e.tenantId⟩

/-- The identity of texts of code points. Folding keeps surrogates, so a text with one in it shows up in no
text of characters. -/
def codedIdentity (s : Scrubber) (id tenant : List CodePoint) : Identity :=
  ⟨[id, tenant].filterMap fun t => (characters? t).bind forbiddenText, s.hasher.hashCodes tenant [],
    s.hasher.hashCodes id tenant⟩

def contextOf (s : Scrubber) (who : Identity) (typeText : String) (level : Level) : Context :=
  ⟨s.hasher, s.rules, s.scanValues, s.detect, level, typeText, who.forbidden⟩

def context (s : Scrubber) (e : Entity) : String → Level → Context := s.contextOf (s.identity e)

/-- The fields that tell how an entity was scrubbed. -/
def provenance (s : Scrubber) (entityType : Value) (level : Level) (tenantHash : String) : Fields :=
  [(.str scrubbedKey, .bool true), (.str levelKey, .str level.name), (.str typeKey, entityType),
    (.str timeKey, .str (String.ofList s.clock.isoText)), (.str tenantHashKey, .str tenantHash),
    (.str versionKey, .str s.rules.version)]

def doneLine (typeText : String) (level : Level) (t : Trail) : LogLine :=
  .event .debug "scrubbed_entity"
    [("entity_type", typeText), ("level", level.name), ("fields_changed", natString t.changed),
      ("failed", natString t.failed.length)]

/-! ## The entity -/

/-- Properties and metadata, scrubbed. -/
def scrubParts (c : Context) (properties metadata : Fields) : Attempt (Fields × Fields) :=
  (scrubFields c "properties" properties).andThen fun properties =>
    (scrubFields c "metadata" (metadata.filter fun field => !isProvenanceKey field.1)).map
      fun metadata => (properties, metadata)

/-- The scrubbed entity made of scrubbed properties and metadata. -/
def assemble (s : Scrubber) (who : Identity) (c : Context) (e : Entity) (entityType : Value)
    (trail : Trail) (properties metadata : Fields) : Except Fault Scrubbed := do
  let tenantHash ← who.tenantHash
  let id ← who.idHash
  let source :=
    match e.source with
    | .str text => if c.referencesIdentity text then .null else .str text
    | v => v
  let createdAt ← baseTime c.level e.createdAt
  let updatedAt ← baseTime c.level e.updatedAt
  let deletedAt ← baseTime c.level e.deletedAt
  return {
    id := .str id
    type := e.type
    properties := .map properties
    metadata := .map (metadata ++ s.provenance entityType c.level tenantHash)
    audit := ⟨entityType, c.level, s.rules.version, trail⟩
    version := e.version
    source := source
    createdAt := createdAt
    updatedAt := updatedAt
    isDeleted := e.isDeleted
    deletedAt := deletedAt }

/-- Scrubs an entity whose parts are maps. -/
def scrubMaps (s : Scrubber) (who : Identity) (e : Entity) (entityType : Value) (level : Level)
    (properties metadata : Fields) : Except Fault Scrubbed × Log :=
  let c := s.contextOf who entityType.messageText level
  let parts := scrubParts c properties metadata
  match parts.result with
  | .error f => (.error f, parts.trail.log)
  | .ok (properties, metadata) =>
    match s.assemble who c e entityType parts.trail properties metadata with
    | .error f => (.error f, parts.trail.log)
    | .ok scrubbed =>
      (.ok scrubbed, parts.trail.log ++ [doneLine c.typeText level parts.trail])

/-- Properties and metadata of an entity that can be scrubbed. -/
def parts? (e : Entity) (typeText : String) : Except Failure (Fields × Fields) :=
  match e.properties with
  | .map properties =>
    match e.metadata with
    | .map metadata => .ok (properties, metadata)
    | .null => .ok (properties, [])
    | _ => .error (.scrub typeText "metadata is not a mapping")
  | _ => .error (.scrub typeText "properties is not a mapping")

/-- Why an entity of a type cannot be scrubbed at a level, or else its parts. -/
def accept (e : Option Entity) (entityType level : Value) :
    Except Failure (Entity × Level × Fields × Fields) :=
  match e with
  | none => .error (.invalidEntity "an Entity is required")
  | some e =>
    if !entityType.truthy then .error (.invalidEntity "entity type is required")
    else
      match level with
      | .level l => do
        let (properties, metadata) ← parts? e entityType.messageText
        if e.copyable then return (e, l, properties, metadata)
        else
          .error (.scrub entityType.messageText "entity could not be copied (RuntimeError)")
      | _ => .error (.invalidArgument "level" "must be a ScrubbingLevel")

/-- Scrubs an entity, known by its identity; `none` stands for whatever is no entity. -/
def scrubAs (s : Scrubber) (identity : Entity → Identity) (e : Option Entity)
    (entityType level : Value) : Except Fault Scrubbed × Log :=
  match accept e entityType level with
  | .error f => (.error (.named f), [])
  | .ok (e, l, properties, metadata) => s.scrubMaps (identity e) e entityType l properties metadata

def scrub (s : Scrubber) (e : Option Entity) (entityType level : Value) :
    Except Fault Scrubbed × Log :=
  s.scrubAs s.identity e entityType level

/-- Scrubs an entity whose identifier and tenant are texts of code points. -/
def scrubCoded (s : Scrubber) (id tenant : List CodePoint) (e : Option Entity)
    (entityType level : Value) : Except Fault Scrubbed × Log :=
  s.scrubAs (fun _ => s.codedIdentity id tenant) e entityType level

end Scrubber

end ConsentGate.Scrub
