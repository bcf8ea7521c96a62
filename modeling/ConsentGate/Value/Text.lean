import ConsentGate.Calendar.IsoText
import ConsentGate.Failure
import ConsentGate.Number.Shortest
import ConsentGate.Text.Quoted
import ConsentGate.Value.Basic

/-! The text of a value.

`shown` is the form in which a value stands inside another value's text, with texts quoted; `plain` is
the form in which it stands alone. An integer of too many digits has no text, nor has anything that
holds one. -/
namespace ConsentGate.Value
open Calendar Number Text
set_option autoImplicit false

/-- Items between brackets, separated by commas. -/
def bracketed (opening closing : String) (items : List (List Char)) : List Char :=
  opening.toList ++ [',', ' '].intercalate items ++ closing.toList

def intText (n : Int) : Except Fault (List Char) :=
  match writeInt? n with
  | some s => .ok s
  | none => .error .wrongValue

def boolText (b : Bool) : List Char := if b then "True".toList else "False".toList

/-- A function call with the given arguments. -/
def callText (name : String) (args : List (List Char)) : List Char :=
  bracketed (name ++ "(") ")" args

def natText (n : Nat) : List Char := Nat.toDigits 10 n

def offsetShown (o : Offset) : List Char :=
  if o.micros = 0 then "datetime.timezone.utc".toList
  else callText "datetime.timezone" [durationText o.micros]

/-- A timestamp by its numbers; seconds and microseconds are left out where they are zero. -/
def timestampShown (t : Timestamp) : List Char :=
  let d := t.date
  let c := t.time
  let seconds :=
    if c.microsecond ≠ 0 then [natText c.second, natText c.microsecond]
    else if c.second ≠ 0 then [natText c.second]
    else []
  let zone :=
    match t.offset with
    | some o => ["tzinfo=".toList ++ offsetShown o]
    | none => []
  callText "datetime.datetime"
    ([natText d.year, natText d.month, natText d.day, natText c.hour, natText c.minute] ++
      seconds ++ zone)

def dateShown (d : Date) : List Char :=
  callText "datetime.date" [natText d.year, natText d.month, natText d.day]

mutual
def shown : Value → Except Fault (List Char)
  | .null => .ok "None".toList
  | .bool b => .ok (boolText b)
  | .int n => intText n
  | .float x => .ok (plainFloat.text x)
  | .decimal d => .ok (callText "Decimal" [quoted d.text])
  | .str s => .ok (quoted s.toList)
  | .date d => .ok (dateShown d)
  | .datetime t => .ok (timestampShown t)
  | .bytes bs => .ok (quotedBytes bs)
  | .list items => do return bracketed "[" "]" (← shownItems items)
  | .tuple items => do
    match ← shownItems items with
    | [item] => return '(' :: item ++ [',', ')']
    | texts => return bracketed "(" ")" texts
  | .set items => do
    match ← shownItems items with
    | [] => return "set()".toList
    | texts => return bracketed "\x7b" "\x7d" texts
  | .map fields => do return bracketed "\x7b" "\x7d" (← shownFields fields)
  | .level l => .ok ("<ScrubbingLevel.".toList ++ l.tag.toList ++ ": ".toList ++
      quoted l.name.toList ++ ['>'])
  | .foreign => .ok "<opaque>".toList
  | .uncopyable => .ok "<uncopyable>".toList

def shownItems : List Value → Except Fault (List (List Char))
  | [] => .ok []
  | v :: rest => do
    let text ← v.shown
    let texts ← shownItems rest
    return text :: texts

def shownFields : List (Value × Value) → Except Fault (List (List Char))
  | [] => .ok []
  | (k, v) :: rest => do
    let key ← k.shown
    let text ← v.shown
    let texts ← shownFields rest
    return (key ++ ':' :: ' ' :: text) :: texts
end

def plain : Value → Except Fault (List Char)
  | .str s => .ok s.toList
  | .decimal d => .ok d.text
  | .date d => .ok d.isoText
  | .datetime t => .ok (t.textWith ' ')
  | .level l => .ok ("ScrubbingLevel.".toList ++ l.tag.toList)
  | v => v.shown

/-- The plain text as a string. -/
def plainString (v : Value) : Except Fault String := v.plain.map String.ofList

/-- The plain text inside a message; what has no text is left out. -/
def messageText (v : Value) : String := String.ofList (v.plain.toOption.getD [])

end ConsentGate.Value
