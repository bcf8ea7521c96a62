import ConsentGate.Text.CodeRanges

/-! Blank characters and trimming.

A blank is a character that separates words: the bidirectional classes of white space, segment and
paragraph separators together with the space separators. Every table of this library that speaks of
white space means this set. -/
namespace ConsentGate.Text
set_option autoImplicit false

def blankRanges : CodeRanges :=
  [(9, 13), (28, 32), (133, 133), (160, 160), (5760, 5760), (8192, 8202), (8232, 8233),
   (8239, 8239), (8287, 8287), (12288, 12288)]

def isBlank (c : Char) : Bool := blankRanges.has c.toNat

/-- The text without the blanks at its end. -/
def trimEnd : List Char → List Char
  | [] => []
  | c :: rest =>
    match trimEnd rest with
    | [] => if isBlank c then [] else [c]
    | d :: kept => c :: d :: kept

/-- The text without the blanks at its two ends. -/
def trim (s : List Char) : List Char := trimEnd (s.dropWhile isBlank)

/-- Whether nothing but blanks is there. -/
def allBlank (s : List Char) : Bool := s.all isBlank

end ConsentGate.Text
