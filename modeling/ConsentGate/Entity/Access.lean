import ConsentGate.Number.Numeral
import ConsentGate.Text.Blank
import ConsentGate.Value.Model
import ConsentGate.Value.Moment
import ConsentGate.Value.Text

/-! Typed access to properties.

An absent property, and one that holds nothing, gives the default. A value that cannot be read as the
type asked for is a failure; a number is never rounded. An integer of too many digits has no text, and
a decimal that stands for more digits than memory can hold is made no integer. -/
namespace ConsentGate.Entity
open Number Text
set_option autoImplicit false

def getText (fields : Fields) (key : String) (default : Value) : Except Fault Value :=
  match Value.getD fields key with
  | .null => .ok default
  | .str s => .ok (.str s)
  | .date d => .ok (.str (String.ofList d.isoText))
  | .datetime t => .ok (.str (String.ofList t.isoText))
  | v =>
    if v.isScalar then v.plainString.map .str
    else .error (.named (v.decodeFailure key "str"))

/-- The integer that a value equals or writes. -/
def toInt? : Value → Option Int
  | .int n => some n
  | .float x => x.toInt?
  | .decimal d => d.toInt?
  | .str s => readInt? s.toList
  | _ => none

/-- The greatest count of digits of which memory is asked for, when a decimal is made an integer. -/
def memoryDigits : Nat := 2711437152599294

/-- Whether a decimal has more digits before the point than there can be memory for. -/
def isVast : Value → Bool
  | .decimal (.finite _ coefficient exponent) =>
    coefficient ≠ 0 ∧ memoryDigits < Decimal.digitCount coefficient + exponent
  | _ => false

def getInt (fields : Fields) (key : String) (default : Value) : Except Fault Value :=
  match Value.getD fields key with
  | .null => .ok default
  | v =>
    if isVast v then .error (.external "MemoryError")
    else
      match toInt? v with
      | some n => .ok (.int n)
      | none => .error (.named (v.decodeFailure key "int"))

def getTimestamp (fields : Fields) (key : String) (default : Value) : Except Fault Value :=
  match Value.getD fields key with
  | .null => .ok default
  | v => ((v.toTimestamp key).map Value.datetime).mapError .named

end ConsentGate.Entity
