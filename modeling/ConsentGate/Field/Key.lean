import ConsentGate.Text.Blank
import ConsentGate.Text.LowerCase

/-! Property keys in one spelling.

Services spell one key in many ways: `firstName`, `First-Name`, `first_name`. The normal form
has words in lower case joined by single underscores. A word begins at a capital after a small letter
or digit, and at the last capital of an acronym that is followed by a small letter; blanks, dashes,
points and underscores separate words. -/
namespace ConsentGate.Field
open Text
set_option autoImplicit false

def isCapital (c : Char) : Bool := 'A' ≤ c && c ≤ 'Z'

def isSmall (c : Char) : Bool := 'a' ≤ c && c ≤ 'z'

def isSmallOrDigit (c : Char) : Bool := isSmall c || ('0' ≤ c && c ≤ '9')

/-- Whether a word begins at a capital between the given neighbours. -/
def beginsWord (before : Char) (after : Option Char) : Bool :=
  isSmallOrDigit before || (isCapital before && after.any isSmall)

/-- Puts an underscore before each capital that begins a word; `before` is the character in front. -/
def splitAfter : (before : Char) → List Char → List Char
  | _, [] => []
  | before, c :: rest =>
    (if isCapital c && beginsWord before rest.head? then ['_', c] else [c]) ++ splitAfter c rest

def splitWords : List Char → List Char
  | [] => []
  | c :: rest => c :: splitAfter c rest

def isSeparator (c : Char) : Bool := isBlank c || c == '-' || c == '.' || c == '_'

/-- The words of a text joined by single underscores. `started` says that a word stands before,
`pending` that separators were skipped since. -/
def joinWords : (started pending : Bool) → List Char → List Char
  | _, _, [] => []
  | started, pending, c :: rest =>
    if isSeparator c then joinWords started true rest
    else (if started && pending then ['_', c] else [c]) ++ joinWords true false rest

/-- The normal form of a key. -/
def normalize (key : List Char) : List Char :=
  joinWords false false (lower (splitWords (trim key)))

end ConsentGate.Field
