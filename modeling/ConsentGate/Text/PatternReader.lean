import ConsentGate.Text.Digit
import ConsentGate.Text.Pattern

/-! Patterns read from text.

The notation has literal characters, sets of them in brackets, a backslash before d for any decimal
digit, groups in parentheses, alternatives separated by bars, and a question mark behind what may be
absent. -/
namespace ConsentGate.Text.Pattern
set_option autoImplicit false

/-- The characters up to the closing bracket, and what follows it. -/
def takeSet? : List Char → Option (List Char × List Char)
  | [] => none
  | ']' :: rest => some ([], rest)
  | c :: rest => (takeSet? rest).map fun (cs, rest) => (c :: cs, rest)

/-- A question mark makes what stands before it optional. -/
def withSuffix (p : Pattern) : List Char → Pattern × List Char
  | '?' :: rest => (opt p, rest)
  | rest => (p, rest)

mutual
/-- Alternatives up to a closing parenthesis or the end. -/
def takeChoice? : (fuel : Nat) → List Char → Option (Pattern × List Char)
  | 0, _ => none
  | fuel + 1, s => do
    let (p, rest) ← takeSequence? fuel s
    match rest with
    | '|' :: rest =>
      let (q, rest) ← takeChoice? fuel rest
      return (.either p q, rest)
    | rest => return (p, rest)

/-- Parts up to a bar, a closing parenthesis or the end. -/
def takeSequence? : (fuel : Nat) → List Char → Option (Pattern × List Char)
  | 0, _ => none
  | fuel + 1, s =>
    match s with
    | [] => some (.empty, [])
    | '|' :: _ => some (.empty, s)
    | ')' :: _ => some (.empty, s)
    | s => do
      let (p, rest) ← takePart? fuel s
      let (p, rest) := withSuffix p rest
      let (q, rest) ← takeSequence? fuel rest
      return (.seq p q, rest)

/-- A group, a set or a character. -/
def takePart? : (fuel : Nat) → List Char → Option (Pattern × List Char)
  | 0, _ => none
  | fuel + 1, s =>
    match s with
    | '(' :: rest => do
      let (p, rest) ← takeChoice? fuel rest
      match rest with
      | ')' :: rest => return (p, rest)
      | _ => none
    | '[' :: rest => do
      let (cs, rest) ← takeSet? rest
      return (.char fun c => cs.contains c, rest)
    | '\\' :: 'd' :: rest => some (.char isDigit, rest)
    | c :: rest => some (.char fun d => c == d, rest)
    | [] => none
end

def read? (s : List Char) : Option Pattern :=
  match takeChoice? (3 * s.length + 3) s with
  | some (p, []) => some p
  | _ => none

/-- The pattern that a text writes; a text that is no pattern stands for itself. -/
def ofText (s : String) : Pattern := (read? s.toList).getD (lit s)

end ConsentGate.Text.Pattern
