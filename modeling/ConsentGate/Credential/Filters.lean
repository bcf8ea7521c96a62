import ConsentGate.Credential.Shapes

/-! Candidates that are no credentials.

What a shape matches may still be a placeholder, an identifier or an example; and a line may say that
it is allowed to hold a secret. -/
namespace ConsentGate.Credential
open Text Pattern
set_option autoImplicit false
-- Parts of a text are found as the core library does it, also where Mathlib knows another way.
attribute [local instance (high)] List.instDecidableIsInfixOfDecidableEq

/-! ## Sequences -/

/-- The upper-case form of a character, if it lies in ASCII. Besides the small letters these are the
dotless i, the long s, the sharp s and the ligatures of f, i, l, s and t. -/
def upperAscii? (c : Char) : Option (List Char) :=
  let n := c.toNat
  if n < 128 then some [c.toUpper]
  else
    ([(223, "SS"), (305, "I"), (383, "S"), (64256, "FF"), (64257, "FI"), (64258, "FL"),
      (64259, "FFI"), (64260, "FFL"), (64261, "ST"), (64262, "ST")].lookup n).map String.toList

/-- The upper-case form of a text, if it lies in ASCII. -/
def upperAsciiText? (s : List Char) : Option (List Char) :=
  (s.mapM upperAscii?).map List.flatten

def capitals : List Char := "ABCDEFGHIJKLMNOPQRSTUVWXYZ".toList

def numerals : List Char := "0123456789".toList

def hexNumerals : List Char := "0123456789ABCDEFABCDEF".toList

/-- Alphabets written out, in which examples are often cut. -/
def writtenAlphabets : List (List Char) :=
  [capitals ++ capitals ++ numerals ++ ['+', '/'],
    numerals ++ capitals ++ capitals ++ ['+', '/'],
    numerals ++ capitals ++ numerals ++ capitals,
    numerals ++ numerals,
    hexNumerals ++ hexNumerals,
    capitals ++ ['=', '/']]

/-- A piece of an alphabet written out, in any case. -/
def isSequential (s : List Char) : Bool :=
  match upperAsciiText? s with
  | none => false
  | some s => writtenAlphabets.any fun alphabet => decide (s <:+: alphabet)

/-! ## Identifiers and placeholders -/

def uuid : Pattern :=
  let hex (n : Nat) : Pattern :=
    exactly n (anyCase fun c => ('a' ≤ c && c ≤ 'f') || isNumeral c)
  sequence [hex 8, lit "-", hex 4, lit "-", hex 4, lit "-", hex 4, lit "-", hex 12]

/-- What follows the name of an identifier: an s that may be there, and the end of the word. -/
def identifierEnd : Pattern :=
  .seq (opt (litAnyCase "s"))
    (.char fun c => !anyCase (fun c => isLower c || isNumeral c) c)

def identifierStart : Pattern :=
  .seq (choice (["id", "myid", "userid"].map litAnyCase)) identifierEnd

def identifierInside : Pattern := .seq (litAnyCase "_id") identifierEnd

/-- The part of a line before the first place where a text stands in it. -/
def beforeFirst? (s : List Char) : List Char → Option (List Char)
  | [] => if s.isEmpty then some [] else none
  | c :: rest =>
    if s.isPrefixOf (c :: rest) then some [] else (beforeFirst? s rest).map (c :: ·)

/-- The line names an identifier before the candidate. -/
def isLikelyIdentifier (line s : List Char) : Bool :=
  match beforeFirst? s line with
  | none => false
  | some before => (identifierStart.matchHere? before).isSome || identifierInside.occursIn before

/-- A placeholder of a template; what is too short to tell counts as one. -/
def isTemplated (s : List Char) : Bool :=
  match s, s.getLast? with
  | '\x7b' :: _, some '\x7d' => true
  | '<' :: _, some '>' => true
  | ['$'], _ => true
  | '$' :: '\x7b' :: _, some '\x7d' => true
  | [], _ => true
  | _, _ => false

def hasLetter (s : List Char) : Bool := s.any fun c => isUpper c || isLower c

/-! ## Lines -/

/-- The note by which a line is allowed to hold a secret, between the given comment marks. -/
def allowNote (opening closing : Pattern) : Pattern :=
  sequence [opening, many (fun c => c == ' ' || c == '\t'), many (· == ' '), lit "pragma:",
    opt (lit " "), .either (lit "allow") (lit "white"), lit "list",
    .char (fun c => c == ' ' || c == '-'), lit "secret", .run isInLine 0 none true, closing,
    many (fun c => c == ' ' || c == '\t'), .atEnd]

def allowNotes : List Pattern :=
  [allowNote (lit "#") .empty, allowNote (lit "//") .empty,
    allowNote (lit "/*") (.seq (many (· == ' ')) (lit "*/")),
    allowNote (.char (· == apostrophe)) .empty, allowNote (lit "--") .empty,
    allowNote
      (.seq (lit "<!--") (.run (fun c => c == '#' || c == ' ' || c == '\t') 0 none true))
      (.seq (.run (· == ' ') 0 none true) (lit "-->"))]

def isAllowed (line : List Char) : Bool := allowNotes.any fun note => note.occursIn line

/-- Whether a candidate is dropped. Only for keywords the line is searched for identifiers. -/
def isDropped (byKeyword : Bool) (line s : List Char) : Bool :=
  isSequential s || uuid.occursIn s || (byKeyword && isLikelyIdentifier line s) ||
    isTemplated s || s.head? == some '$' || !hasLetter s || isAllowed line

end ConsentGate.Credential
