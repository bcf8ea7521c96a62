import ConsentGate.Failure
import ConsentGate.Value.Basic

/-! The value model: the values that properties may hold.

Supported are nothing, booleans, numbers, texts, dates, timestamps, lists of supported values and maps
from texts to supported values. `check` names the first value that is not, by its path: an index in
brackets for a list item, a dot and the key for a field. -/
namespace ConsentGate.Value
set_option autoImplicit false

/-- Supported values without parts. -/
def isScalar : Value → Bool
  | .null | .bool _ | .int _ | .float _ | .decimal _ | .str _ | .date _ | .datetime _ => true
  | _ => false

def itemPath (path : String) (i : Nat) : String := path ++ "[" ++ Text.natString i ++ "]"

def fieldPath (path key : String) : String := path ++ "." ++ key

mutual
def check (path : String) : Value → Except Failure Unit
  | .list items => checkItems path 0 items
  | .map fields => checkFields path fields
  | v => if v.isScalar then .ok () else .error (.propertyDecode path "PropertyValue" v.typeName)

def checkItems (path : String) (i : Nat) : List Value → Except Failure Unit
  | [] => .ok ()
  | v :: rest => do
    v.check (itemPath path i)
    checkItems path (i + 1) rest

def checkFields (path : String) : List (Value × Value) → Except Failure Unit
  | [] => .ok ()
  | (.str key, v) :: rest => do
    v.check (fieldPath path key)
    checkFields path rest
  | (key, _) :: _ => .error (.propertyDecode (path ++ ".<key>") "str" key.typeName)
end

end ConsentGate.Value
