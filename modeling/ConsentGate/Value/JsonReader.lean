import ConsentGate.Number.FloatText
import ConsentGate.Text.CodePoint
import ConsentGate.Text.Quoted
import ConsentGate.Value.Basic

/-! JSON text read as a value.

Besides the standard's grammar the names of the special floating-point numbers are read. A number is
an integer unless it has a fraction or an exponent. Of a repeated key the last value counts, at the
place of the first. The text that is read is one of code points (`takeText?`); as no value has a surrogate
in it, a half of a pair that stands alone becomes the replacement character there. -/
namespace ConsentGate.Value
open Number Text
set_option autoImplicit false

def isJsonBlank (c : Char) : Bool := c == ' ' || c == '\t' || c == '\n' || c == '\r'

def skipBlanks (s : List Char) : List Char := s.dropWhile isJsonBlank

/-! ## Texts -/

def hexValue? (c : Char) : Option Nat :=
  if '0' ≤ c ∧ c ≤ '9' then some (c.toNat - 48)
  else if 'a' ≤ c ∧ c ≤ 'f' then some (c.toNat - 87)
  else if 'A' ≤ c ∧ c ≤ 'F' then some (c.toNat - 55)
  else none

/-- The number of four hexadecimal digits at the start, and what follows them. -/
def takeUnit? : List Char → Option (Nat × List Char)
  | a :: b :: c :: d :: rest => do
    let a ← hexValue? a
    let b ← hexValue? b
    let c ← hexValue? c
    let d ← hexValue? d
    return (((a * 16 + b) * 16 + c) * 16 + d, rest)
  | _ => none

/-- The code point of an escape that begins with a unit, and what follows it. A higher half takes the lower
one of the next escape with it. -/
def takeEscapedUnit? (s : List Char) : Option (CodePoint × List Char) := do
  let (n, rest) ← takeUnit? s
  match CodePoint.ofUnit n, rest with
  | .high a, '\\' :: 'u' :: more =>
    let (m, rest') ← takeUnit? more
    match CodePoint.ofUnit m with
    | .low b => return (.char (CodePoint.pair a b), rest')
    | _ => return (.high a, rest)
  | p, rest => return (p, rest)

def simpleEscape? (c : Char) : Option Char :=
  if c = doubleQuote ∨ c = '\\' ∨ c = '/' then some c
  else if c = 'b' then some (Char.ofNat 8)
  else if c = 'f' then some (Char.ofNat 12)
  else if c = 'n' then some '\n'
  else if c = 'r' then some '\r'
  else if c = 't' then some '\t'
  else none

/-- One code point of a text and what follows it; none at the closing quote. -/
def takeTextChar? : List Char → Option (Option CodePoint × List Char)
  | [] => none
  | c :: rest =>
    if c = doubleQuote then some (none, rest)
    else if c = '\\' then
      match rest with
      | [] => none
      | e :: rest =>
        if e = 'u' then (takeEscapedUnit? rest).map fun (p, rest) => (some p, rest)
        else (simpleEscape? e).map fun c => (some (.char c), rest)
    else if c.toNat < 32 then none
    else some (some (.char c), rest)

/-- The code points up to the closing quote, and what follows it. -/
def takeText? : (fuel : Nat) → List Char → Option (List CodePoint × List Char)
  | 0, _ => none
  | fuel + 1, s => do
    match ← takeTextChar? s with
    | (none, rest) => return ([], rest)
    | (some p, rest) =>
      let (t, rest) ← takeText? fuel rest
      return (p :: t, rest)

/-! ## Numbers -/

def isJsonDigit (c : Char) : Bool := '0' ≤ c && c ≤ '9'

/-- The digits at the start. -/
def leadingDigits (s : List Char) : List Char := s.takeWhile isJsonDigit

/-- The whole part of a number: a zero alone, or digits that do not begin with one. -/
def takeWhole? (s : List Char) : Option (List Char × List Char) :=
  match s with
  | '0' :: rest => some (['0'], rest)
  | s =>
    let digits := leadingDigits s
    if digits.isEmpty then none else some (digits, s.drop digits.length)

/-- A point and digits, if they are there. -/
def takeFraction (s : List Char) : List Char × List Char :=
  match s with
  | '.' :: rest =>
    let digits := leadingDigits rest
    if digits.isEmpty then ([], s) else ('.' :: digits, rest.drop digits.length)
  | s => ([], s)

/-- An exponent, if it is there. -/
def takeExponent (s : List Char) : List Char × List Char :=
  match s with
  | e :: rest =>
    if e = 'e' ∨ e = 'E' then
      let (sign, rest) :=
        match rest with
        | '+' :: rest => (['+'], rest)
        | '-' :: rest => (['-'], rest)
        | rest => ([], rest)
      let digits := leadingDigits rest
      if digits.isEmpty then ([], s) else (e :: sign ++ digits, rest.drop digits.length)
    else ([], s)
  | [] => ([], [])

def takeNumber? (s : List Char) : Option (Value × List Char) := do
  let (sign, rest) :=
    match s with
    | '-' :: rest => (['-'], rest)
    | s => ([], s)
  let (whole, rest) ← takeWhole? rest
  let (fraction, rest) := takeFraction rest
  let (exponent, rest) := takeExponent rest
  if fraction.isEmpty ∧ exponent.isEmpty then
    let n ← readInt? (sign ++ whole)
    return (.int n, rest)
  else
    let x ← jsonFloat.read? (sign ++ whole ++ fraction ++ exponent)
    return (.float x, rest)

/-! ## Values -/

/-- The names that stand for a value. -/
def names : List (List Char × Value) :=
  [("null".toList, .null), ("true".toList, .bool true), ("false".toList, .bool false),
    ("NaN".toList, .float .nan), ("Infinity".toList, .float (.infinite false)),
    ("-Infinity".toList, .float (.infinite true))]

def takeName? (s : List Char) : Option (Value × List Char) :=
  names.findSome? fun (name, v) =>
    if name.isPrefixOf s then some (v, s.drop name.length) else none

/-- Sets the value under a text key. -/
def putField (key : String) (v : Value) : Fields → Fields
  | [] => [(.str key, v)]
  | (k, w) :: rest => if k.isText key then (k, v) :: rest else (k, w) :: putField key v rest

mutual
/-- A value at the start, and what follows it. -/
def takeValue? : (fuel : Nat) → List Char → Option (Value × List Char)
  | 0, _ => none
  | fuel + 1, s =>
    match s with
    | [] => none
    | c :: rest =>
      if c = doubleQuote then
        (takeText? (rest.length + 1) rest).map fun (t, rest) => (.str (ofCodes t), rest)
      else if c = '[' then
        match skipBlanks rest with
        | ']' :: rest => some (.list [], rest)
        | rest => (takeItems? fuel rest).map fun (items, rest) => (.list items, rest)
      else if c = '\x7b' then
        match skipBlanks rest with
        | '\x7d' :: rest => some (.map [], rest)
        | rest => (takeFields? fuel rest []).map fun (fields, rest) => (.map fields, rest)
      else
        match takeName? s with
        | some result => some result
        | none => takeNumber? s

/-- Items up to the closing bracket. -/
def takeItems? : (fuel : Nat) → List Char → Option (List Value × List Char)
  | 0, _ => none
  | fuel + 1, s => do
    let (v, rest) ← takeValue? fuel s
    match skipBlanks rest with
    | ',' :: rest =>
      let (items, rest) ← takeItems? fuel (skipBlanks rest)
      return (v :: items, rest)
    | ']' :: rest => return ([v], rest)
    | _ => none

/-- Fields up to the closing brace, after those read so far. -/
def takeFields? : (fuel : Nat) → List Char → Fields → Option (Fields × List Char)
  | 0, _, _ => none
  | fuel + 1, s, before =>
    match s with
    | [] => none
    | c :: rest =>
      if c = doubleQuote then do
        let (key, rest) ← takeText? (rest.length + 1) rest
        match skipBlanks rest with
        | ':' :: rest =>
          let (v, rest) ← takeValue? fuel (skipBlanks rest)
          let fields := putField (ofCodes key) v before
          match skipBlanks rest with
          | ',' :: rest => takeFields? fuel (skipBlanks rest) fields
          | '\x7d' :: rest => return (fields, rest)
          | _ => none
        | _ => none
      else none
end

/-- The value that a whole text writes, blanks around it being ignored. -/
def ofJson? (s : List Char) : Option Value := do
  let (v, rest) ← takeValue? (2 * s.length + 2) (skipBlanks s)
  if (skipBlanks rest).isEmpty then return v else none

end ConsentGate.Value
