import ConsentGate.Calendar.Timestamp
import ConsentGate.Level
import ConsentGate.Number.Quantity

/-! Values that other services hand over.

Property values are open-ended, so one type holds whatever may arrive: what the value model supports,
and what it does not but must be told apart from it. A map keeps its fields in the order of
insertion; keys are values too, mostly texts. It stands for any mapping that can be gone through. Where a
dictionary is asked for, in the check and in texts made of values, it is one. -/
namespace ConsentGate
open Calendar Number
set_option autoImplicit false

inductive Value where
  | null
  | bool (b : Bool)
  | int (n : Int)
  | float (x : Binary64)
  | decimal (d : Decimal)
  | str (s : String)
  | date (d : Date)
  | datetime (t : Timestamp)
  | bytes (bs : List UInt8)
  | list (items : List Value)
  | tuple (items : List Value)
  | set (items : List Value)
  | map (fields : List (Value × Value))
  | level (l : Level)
  /-- A thing that is none of the others, and no mapping of another type either. -/
  | foreign
  /-- A thing that cannot be copied. -/
  | uncopyable

/-- The fields of a map in the order of insertion. -/
abbrev Fields := List (Value × Value)

namespace Value

def typeName : Value → String
  | .null => "NoneType"
  | .bool _ => "bool"
  | .int _ => "int"
  | .float _ => "float"
  | .decimal _ => "Decimal"
  | .str _ => "str"
  | .date _ => "date"
  | .datetime _ => "datetime"
  | .bytes _ => "bytes"
  | .list _ => "list"
  | .tuple _ => "tuple"
  | .set _ => "set"
  | .map _ => "dict"
  | .level _ => "ScrubbingLevel"
  | .foreign => "Opaque"
  | .uncopyable => "Uncopyable"

/-- Whether a value counts as something: nothing, zero, false and whatever is empty do not. -/
def truthy : Value → Bool
  | .null => false
  | .bool b => b
  | .int n => n != 0
  | .float x => !x.isZero
  | .decimal d => d.isNonzero
  | .str s => s != ""
  | .bytes bs => !bs.isEmpty
  | .list items => !items.isEmpty
  | .tuple items => !items.isEmpty
  | .set items => !items.isEmpty
  | .map fields => !fields.isEmpty
  | _ => true

/-- A timestamp as a value, nothing where there is none. -/
def ofTime : Option Timestamp → Value
  | some t => .datetime t
  | none => .null

def str? : Value → Option String
  | .str s => some s
  | _ => none

theorem str?_eq_some {v : Value} {s : String} : v.str? = some s ↔ v = .str s := by
  constructor
  · intro h
    cases v with
    | str t => exact congrArg Value.str (Option.some.inj h)
    | _ => cases h
  · intro h
    rw [h]
    rfl

def isStr (v : Value) : Bool := v.str?.isSome

theorem isStr_iff {v : Value} : v.isStr = true ↔ ∃ s, v = .str s := by
  unfold isStr
  rw [Option.isSome_iff_exists]
  exact exists_congr fun s => str?_eq_some

/-- The text that a value is, the empty one for any other value. -/
def textD (v : Value) : String := v.str?.getD ""

/-- The number that a value is; true and false count as one and zero. -/
def quantity? : Value → Option Quantity
  | .bool b => some (.whole (if b then 1 else 0))
  | .int n => some (.whole n)
  | .float x => some (.float x)
  | .decimal d => some (.decimal d)
  | _ => none

/-- Whether the value is the given text. -/
def isText (name : String) : Value → Bool
  | .str s => s == name
  | _ => false

/-- The value under a key that is a text. -/
def get? (fields : Fields) (name : String) : Option Value :=
  (fields.find? fun field => field.1.isText name).map (·.2)

/-- The value under a key, nothing where the key is absent. -/
def getD (fields : Fields) (name : String) : Value := (get? fields name).getD .null

/-! ## Copying -/

mutual
/-- Whether a value can be copied in full. -/
def copyable : Value → Bool
  | .uncopyable => false
  | .list items => allCopyable items
  | .tuple items => allCopyable items
  | .set items => allCopyable items
  | .map fields => fieldsCopyable fields
  | _ => true

def allCopyable : List Value → Bool
  | [] => true
  | v :: rest => v.copyable && allCopyable rest

def fieldsCopyable : List (Value × Value) → Bool
  | [] => true
  | (k, v) :: rest => k.copyable && v.copyable && fieldsCopyable rest
end

end Value

end ConsentGate
