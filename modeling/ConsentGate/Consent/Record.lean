import ConsentGate.Calendar.IsoReader
import ConsentGate.Failure
import ConsentGate.Text.Blank
import ConsentGate.Text.LowerCase
import ConsentGate.Value.Text

/-! Consent records of tenants and decisions drawn from them.

A record that lists no category allows every entity type. A payload of tenant administration is read
strictly: whatever is not of the expected form makes it invalid. -/
namespace ConsentGate.Consent
open Calendar Text
set_option autoImplicit false

def standardVersion : String := "1.0"

/-! ## Levels -/

/-- The level that a text names, in any case and with blanks around it. -/
def levelOfText? (s : List Char) : Option Level :=
  Level.all.find? fun l => lower l.name.toList == lower (trim s)

def invalid (reason : String) : Fault := .named (.invalidConsent reason)

def parseLevel (v : Value) : Except Fault Level :=
  match v.str?.bind fun s => levelOfText? s.toList with
  | some l => .ok l
  | none => do
    let text ← v.shown
    .error (invalid ("scrubbing level must be Strict, Moderate, or Minimal (got " ++
      String.ofList text ++ ")"))

/-! ## Records -/

structure Record where
  hasConsent : Bool
  level : Level := .strict
  version : String := standardVersion
  categories : List String := []
  date : Option Timestamp := none
  deriving DecidableEq, Repr

namespace Record

def allows (r : Record) (entityType : String) : Bool :=
  r.categories.isEmpty || r.categories.contains entityType

/-- The categories without repetition, by code points. -/
def sortedCategories (r : Record) : List String :=
  r.categories.eraseDups.mergeSort fun a b => decide (¬ b < a)

def readFlag : Option Value → Except Fault Bool
  | none => .ok false
  | some (.bool b) => .ok b
  | some _ => .error (invalid "consent flag must be a boolean")

def readLevel : Option Value → Except Fault Level
  | none => .ok .strict
  | some (.level l) => .ok l
  | some v => parseLevel v

def readVersion : Option Value → Except Fault String
  | none => .ok standardVersion
  | some (.str s) =>
    if allBlank s.toList then .error (invalid "consent version must be a non-empty string")
    else .ok s
  | some _ => .error (invalid "consent version must be a non-empty string")

/-- Texts all of them, or nothing. -/
def texts? (items : List Value) : Option (List String) := items.mapM Value.str?

def readCategories (v : Value) : Except Fault (List String) :=
  let failure := invalid "categories must be a list of entity type names"
  match v with
  | .null => .ok []
  | .list items | .tuple items | .set items => (texts? items).elim (.error failure) .ok
  | _ => .error failure

def readDate : Value → Except Fault (Option Timestamp)
  | .null => .ok none
  | .datetime t => .ok (some t)
  | .str s =>
    let text := spellOutZ s.toList
    match readTimestamp text with
    | .ok t => .ok (some t)
    | .error fault =>
      .error (invalid ("consent date is not ISO-8601: " ++ String.ofList (fault.message text)))
  | _ => .error (invalid "consent date must be a datetime or ISO-8601 string")

/-- The record that a payload describes. -/
def ofPayload : Value → Except Fault Record
  | .map fields => do
    let hasConsent ← readFlag (Value.get? fields "dataNetworkConsent")
    let level ← readLevel (Value.get? fields "piiScrubbingLevel")
    let version ← readVersion (Value.get? fields "consentVersion")
    let categories ← readCategories (Value.getD fields "dataNetworkCategories")
    let date ← readDate (Value.getD fields "consentDate")
    return ⟨hasConsent, level, version, categories, date⟩
  | _ => .error (invalid "payload must be a mapping")

end Record

/-! ## Decisions -/

/-- What consent says about one tenant and one entity type. -/
structure Decision where
  hasConsent : Bool
  level : Level
  version : String
  includesType : Bool
  deriving DecidableEq, Repr

namespace Decision

/-- The answer where consent cannot be established. -/
def denied (version : String) : Decision := ⟨false, .strict, version, false⟩

/-- The tenant opted in and the type is in scope. -/
def permits (d : Decision) : Bool := d.hasConsent && d.includesType

end Decision

end ConsentGate.Consent
