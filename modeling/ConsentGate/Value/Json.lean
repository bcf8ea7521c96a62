import ConsentGate.Calendar.IsoText
import ConsentGate.Failure
import ConsentGate.Number.Shortest
import ConsentGate.Text.CodePoint
import ConsentGate.Text.Quoted
import ConsentGate.Value.Order

/-! Canonical JSON.

No blank is written, and everything outside printable ASCII is escaped. Dates, timestamps and
decimals become texts. Keys are sorted before they become texts, and what cannot be sorted has no
text. Of several other faults the first in writing order is reported. -/
namespace ConsentGate.Value
open Calendar Number Text
set_option autoImplicit false

/-! ## Texts -/

/-- A UTF-16 unit as an escape of four hexadecimal digits. -/
def unitEscape (n : Nat) : List Char := '\\' :: 'u' :: hexDigits 4 n

def jsonChar (c : Char) : List Char :=
  let n := c.toNat
  if c = doubleQuote then ['\\', doubleQuote]
  else if c = '\\' then ['\\', '\\']
  else if n = 10 then ['\\', 'n']
  else if n = 13 then ['\\', 'r']
  else if n = 9 then ['\\', 't']
  else if n = 12 then ['\\', 'f']
  else if n = 8 then ['\\', 'b']
  else if 32 ≤ n ∧ n < 127 then [c]
  else if n < 65536 then unitEscape n
  else unitEscape (55296 + (n - 65536) / 1024) ++ unitEscape (56320 + (n - 65536) % 1024)

def jsonText (s : List Char) : List Char :=
  doubleQuote :: (s.flatMap jsonChar ++ [doubleQuote])

/-- A code point as a text of code points is written: a surrogate is escaped like any other unit. -/
def jsonCode : CodePoint → List Char
  | .char c => jsonChar c
  | .high n => unitEscape (55296 + n)
  | .low n => unitEscape (56320 + n)

def jsonCodes (t : List CodePoint) : List Char :=
  doubleQuote :: (t.flatMap jsonCode ++ [doubleQuote])

def jsonInt (n : Int) : Except Fault (List Char) :=
  match writeInt? n with
  | some s => .ok s
  | none => .error .wrongValue

/-! ## Keys -/

/-- The text of a key. -/
def jsonKey : Value → Except Fault (List Char)
  | .str s => .ok s.toList
  | .null => .ok "null".toList
  | .bool b => .ok (if b then "true".toList else "false".toList)
  | .int n => jsonInt n
  | .float x => .ok (jsonFloat.text x)
  | _ => .error .wrongType

/-! ## Values -/

/-- The fields of an object, each with its text or the fault met in it. -/
def jsonObject (fields : List (Value × Except Fault (List Char))) :
    Except Fault (List Char) := do
  let texts ← (← sortByKey fields).mapM fun (k, text) => do
    let key ← jsonKey k
    let text ← text
    return jsonText key ++ ':' :: text
  return '\x7b' :: ([','].intercalate texts ++ ['\x7d'])

mutual
def json : Value → Except Fault (List Char)
  | .null => .ok "null".toList
  | .bool b => .ok (if b then "true".toList else "false".toList)
  | .int n => jsonInt n
  | .float x => .ok (jsonFloat.text x)
  | .decimal d => .ok (jsonText d.text)
  | .str s => .ok (jsonText s.toList)
  | .date d => .ok (jsonText d.isoText)
  | .datetime t => .ok (jsonText t.isoText)
  | .list items => do return '[' :: ([','].intercalate (← jsonItems items) ++ [']'])
  | .tuple items => do return '[' :: ([','].intercalate (← jsonItems items) ++ [']'])
  | .map fields => jsonObject (jsonFields fields)
  | v => .error (.unsupported v.typeName)

def jsonItems : List Value → Except Fault (List (List Char))
  | [] => .ok []
  | v :: rest => do
    let text ← v.json
    let texts ← jsonItems rest
    return text :: texts

def jsonFields : List (Value × Value) → List (Value × Except Fault (List Char))
  | [] => []
  | (k, v) :: rest => (k, v.json) :: jsonFields rest
end

end ConsentGate.Value
