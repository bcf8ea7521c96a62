import ConsentGate.Field.Category
import ConsentGate.Field.Key
import ConsentGate.Text.PatternReader

/-! The rules by which keys are classified.

`Tables` is the policy as it is written down; `Rules` is the same with its names normalised and its
patterns read. Only keys are looked at, never values. The order of precedence is: names removed always,
references to the tenant, derived secrets, personal data in the order of the table. -/
namespace ConsentGate.Field
open Text
set_option autoImplicit false
-- Parts of a text are found as the core library does it, also where Mathlib knows another way.
attribute [local instance (high)] List.instDecidableIsInfixOfDecidableEq

structure Tables where
  /-- Names that are removed at every level. -/
  alwaysRemove : List String
  /-- Patterns for the whole of a normalised key. -/
  personal : List (Category × List String)
  /-- A key that contains one of these holds something derived from a secret. -/
  secretParts : List String
  tenant : List String
  /-- A key that contains one of these is date-like. -/
  dateParts : List String
  /-- Of those, the ones whose numbers are seconds since 1970. -/
  epochParts : List String
  version : String

def standardTables : Tables where
  alwaysRemove :=
    ["password", "password_hash", "passwd", "secret", "api_key", "apikey", "access_token",
      "refresh_token", "private_key", "ssn", "ssn_tin", "tin", "tax_id", "taxid",
      "social_security_number"]
  personal :=
    [(.personalIdentifier,
        ["passport(_number|_no)?", "drivers?_licen[cs]e(_number|_no)?", "licen[cs]e_number",
          "national_id(_number)?"]),
      (.contact,
        ["(primary_|secondary_|work_|home_|personal_)?e_?mail(_address)?",
          "(primary_|work_|home_)?phone(_number)?", "mobile(_phone|_number)?", "fax(_number)?",
          "(street_|home_|mailing_|billing_|shipping_)?address(_line_?\\d)?",
          "postal_code|postcode|zip_code|zip"]),
      (.personalDetail,
        ["(first|last|full|middle|given|family|maiden|display)_name",
          "(user|customer|client|contact)_?name", "name",
          "date_of_birth|dob|birth_date|birthdate|birthday", "age", "gender|sex"]),
      (.financial,
        ["(bank_)?account_(number|no)", "bank_account", "credit_card(_number)?|card_number",
          "routing_number", "iban", "swift(_code)?|bic"]),
      (.device, ["ip(_address)?", "mac(_address)?", "device_id"])]
  secretParts := ["encrypted", "hash", "token", "secret", "key"]
  tenant := ["tenant(_id|_name|_slug)?"]
  dateParts := ["date", "timestamp", "created_at", "updated_at", "deleted_at"]
  epochParts := ["timestamp", "created_at", "updated_at", "deleted_at"]
  version := "2"

structure Rules where
  alwaysRemove : List (List Char)
  personal : List (Category × List Pattern)
  secretParts : List (List Char)
  tenant : List Pattern
  dateParts : List (List Char)
  epochParts : List (List Char)
  version : String

def Tables.rules (t : Tables) : Rules where
  alwaysRemove := t.alwaysRemove.map fun name => normalize name.toList
  personal := t.personal.map fun (category, patterns) => (category, patterns.map Pattern.ofText)
  secretParts := t.secretParts.map String.toList
  tenant := t.tenant.map Pattern.ofText
  dateParts := t.dateParts.map String.toList
  epochParts := t.epochParts.map String.toList
  version := t.version

def standardRules : Rules := standardTables.rules

/-- Whether one of the parts occurs in a text. -/
def containsPart (parts : List (List Char)) (s : List Char) : Bool :=
  parts.any fun part => decide (part <:+: s)

/-- Whether one of the patterns takes the whole of a text. -/
def matchesOne (patterns : List Pattern) (s : List Char) : Bool :=
  patterns.any fun p => p.matchesAll s

namespace Rules

/-- The category of a key in normal form. -/
def categoryOf (r : Rules) (key : List Char) : Category :=
  if r.alwaysRemove.contains key then .alwaysRemove
  else if matchesOne r.tenant key then .tenantReference
  else if containsPart r.secretParts key then .derivedSecret
  else
    match r.personal.find? fun (_, patterns) => matchesOne patterns key with
    | some (category, _) => category
    | none => .none

def classify (r : Rules) (key : List Char) : Category := r.categoryOf (normalize key)

def isDateKey (r : Rules) (key : List Char) : Bool := containsPart r.dateParts (normalize key)

def isEpochKey (r : Rules) (key : List Char) : Bool := containsPart r.epochParts (normalize key)

end Rules

end ConsentGate.Field
