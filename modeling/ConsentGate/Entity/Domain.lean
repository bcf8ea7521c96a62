import ConsentGate.Entity.Basic
import ConsentGate.Text.Blank

/-! The business domain of an entity.

Metadata may name it; else it is the first part of the source before a point; else it is unknown. -/
namespace ConsentGate.Entity
open Text
set_option autoImplicit false

def unknownDomain : String := "Unknown"

/-- A text without blanks around it, unless nothing is left. -/
def trimmed? (s : List Char) : Option String :=
  match trim s with
  | [] => none
  | t => some (String.ofList t)

def domainOfMetadata? : Value → Option String
  | .map fields => (Value.getD fields "domain").str?.bind fun s => trimmed? s.toList
  | _ => none

def domainOfSource? (v : Value) : Option String :=
  v.str?.bind fun s => trimmed? ((trim s.toList).takeWhile (· != '.'))

def domain (e : Entity) : String :=
  (domainOfMetadata? e.metadata <|> domainOfSource? e.source).getD unknownDomain

end ConsentGate.Entity
