import ConsentGate.Text.Blank
import ConsentGate.Text.Digit

/-! Numbers read from text.

An integer numeral has an optional sign and decimal digits of any script, single underscores between
digits allowed, blanks around it ignored. A numeral of more than 4300 digits is refused, and an
integer of more than 4300 digits has no text. -/
namespace ConsentGate.Number
open Text
set_option autoImplicit false

/-- The greatest count of digits with which an integer is read or written. -/
def digitLimit : Nat := 4300

/-- The values of digits that may have single underscores between them. -/
def groupedDigits? : List Char → Option (List Nat)
  | [] => none
  | [c] => (digitValue? c).map ([·])
  | c :: '_' :: rest => do
    let d ← digitValue? c
    let ds ← groupedDigits? rest
    return d :: ds
  | c :: rest => do
    let d ← digitValue? c
    let ds ← groupedDigits? rest
    return d :: ds

/-- A sign, if one is there, and what follows it. -/
def takeSign : List Char → Bool × List Char
  | '-' :: rest => (true, rest)
  | '+' :: rest => (false, rest)
  | rest => (false, rest)

/-- The integer that a numeral writes. -/
def readInt? (s : List Char) : Option Int :=
  let (negative, rest) := takeSign (trim s)
  match groupedDigits? rest with
  | none => none
  | some ds =>
    if ds.length > digitLimit then none
    else
      let n : Int := ofDigits ds
      some (if negative then -n else n)

/-- The text of an integer, if it is short enough to have one. -/
def writeInt? (n : Int) : Option (List Char) :=
  let digits := Nat.toDigits 10 n.natAbs
  if digits.length > digitLimit then none
  else some (if n < 0 then '-' :: digits else digits)

/-- The values of the digits at the start, and what follows them. -/
def takeDigits : List Char → List Nat × List Char
  | [] => ([], [])
  | c :: rest =>
    match digitValue? c with
    | some d => let (ds, rest') := takeDigits rest; (d :: ds, rest')
    | none => ([], c :: rest)

/-- A decimal numeral without sign: digits with at most one point among them, and an exponent after
the letter e in either case. Its value is `coefficient · 10 ^ exponent`. -/
def readScientific? (s : List Char) : Option (Nat × Int) :=
  let (whole, rest) := takeDigits s
  let (places, rest) :=
    match rest with
    | '.' :: rest => takeDigits rest
    | rest => ([], rest)
  if whole.isEmpty ∧ places.isEmpty then none
  else
    let coefficient := ofDigits (whole ++ places)
    match rest with
    | [] => some (coefficient, -(places.length : Int))
    | e :: rest =>
      if e = 'e' ∨ e = 'E' then
        let (negative, rest) := takeSign rest
        match takeDigits rest with
        | (d :: ds, []) =>
          let k : Int := ofDigits (d :: ds)
          some (coefficient, (if negative then -k else k) - places.length)
        | _ => none
      else none

end ConsentGate.Number
