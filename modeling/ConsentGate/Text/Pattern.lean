import ConsentGate.Text.Caseless

/-! Patterns over texts.

A pattern can match at one place in several ways; `ways` lists them all in order of preference, the
left alternative first and the longer repetition first unless the shorter one is asked for. What a
search finds is the first way at the first place. A later part of a pattern that fails under one way
is tried under the next, which is all there is to backtracking. -/
namespace ConsentGate.Text
set_option autoImplicit false

/-- Where a match stands: the text still to come, and what was captured so far. -/
structure Scan where
  rest : List Char
  captured : List (Nat × List Char)

inductive Pattern where
  | empty
  | char (accepts : Char → Bool)
  | text (same : Char → Char → Bool) (s : List Char)
  | seq (p q : Pattern)
  | either (p q : Pattern)
  /-- Characters that the test accepts, at least and at most so many of them. -/
  | run (accepts : Char → Bool) (least : Nat) (most : Option Nat) (shortFirst : Bool)
  | oneOrMore (p : Pattern)
  /-- Remembers the text that a pattern takes under a number. -/
  | capture (n : Nat) (p : Pattern)
  /-- The text remembered under a number once more. -/
  | again (n : Nat)
  /-- The pattern must match here but takes nothing. -/
  | ahead (p : Pattern)
  | atEnd

namespace Pattern

/-! ## Ways to match -/

/-- What may follow a run of accepted characters, the shortest run first. -/
def runRests (accepts : Char → Bool) : (most : Option Nat) → List Char → List (List Char)
  | some 0, s => [s]
  | _, [] => [[]]
  | most, c :: rest =>
    (c :: rest) :: (if accepts c then runRests accepts (most.map (· - 1)) rest else [])

/-- What may follow one or more steps, more steps first; a step that takes nothing is not
repeated. -/
def iterate (step : Scan → List Scan) : (fuel : Nat) → Scan → List Scan
  | 0, _ => []
  | fuel + 1, s =>
    (step s).flatMap fun t =>
      (if t.rest.length < s.rest.length then iterate step fuel t else []) ++ [t]

/-- The text between an earlier and a later place. -/
def taken (before after : List Char) : List Char := before.take (before.length - after.length)

def ways : Pattern → Scan → List Scan
  | .empty, s => [s]
  | .char accepts, s =>
    match s.rest with
    | [] => []
    | c :: rest => if accepts c then [{ s with rest := rest }] else []
  | .text same t, s =>
    match dropText? same t s.rest with
    | some rest => [{ s with rest := rest }]
    | none => []
  | .seq p q, s => (p.ways s).flatMap q.ways
  | .either p q, s => p.ways s ++ q.ways s
  | .run accepts least most shortFirst, s =>
    let rests := (runRests accepts most s.rest).drop least
    (if shortFirst then rests else rests.reverse).map fun rest => { s with rest := rest }
  | .oneOrMore p, s => iterate p.ways (s.rest.length + 1) s
  | .capture n p, s =>
    (p.ways s).map fun t => { t with captured := (n, taken s.rest t.rest) :: t.captured }
  | .again n, s =>
    match s.captured.lookup n with
    | none => []
    | some t =>
      match dropText? sameChar t s.rest with
      | some rest => [{ s with rest := rest }]
      | none => []
  | .ahead p, s => ((p.ways s).take 1).map fun t => { t with rest := s.rest }
  | .atEnd, s => if s.rest.isEmpty then [s] else []

/-! ## Searching -/

/-- A match: the text it takes, and what was captured. -/
structure Found where
  whole : List Char
  captured : List (Nat × List Char)

/-- The preferred match at the start of a text, and what follows it. -/
def matchHere? (p : Pattern) (s : List Char) : Option (Found × List Char) :=
  (p.ways ⟨s, []⟩).head?.map fun t => (⟨taken s t.rest, t.captured⟩, t.rest)

/-- The first match in a text. -/
def search? (p : Pattern) : List Char → Option Found
  | [] => (p.matchHere? []).map (·.1)
  | c :: rest =>
    match p.matchHere? (c :: rest) with
    | some (found, _) => some found
    | none => search? p rest

def occursIn (p : Pattern) (s : List Char) : Bool := (p.search? s).isSome

/-- The matches of a text from left to right, none overlapping the one before it. `skip` characters
still belong to the match before. -/
def findAllAfter (p : Pattern) : (skip : Nat) → List Char → List Found
  | _, [] => []
  | skip + 1, _ :: rest => findAllAfter p skip rest
  | 0, c :: rest =>
    match p.matchHere? (c :: rest) with
    | some (found, _) => found :: findAllAfter p (found.whole.length - 1) rest
    | none => findAllAfter p 0 rest

def findAll (p : Pattern) (s : List Char) : List Found := findAllAfter p 0 s

/-- Whether a pattern takes a whole text. -/
def matchesAll (p : Pattern) (s : List Char) : Bool :=
  (p.ways ⟨s, []⟩).any fun t => t.rest.isEmpty

/-! ## Common shapes -/

def lit (s : String) : Pattern := .text sameChar s.toList

/-- A text in any case. -/
def litAnyCase (s : String) : Pattern := .text sameCaseless s.toList

def opt (p : Pattern) : Pattern := .either p .empty

def many (accepts : Char → Bool) : Pattern := .run accepts 0 none false

def some1 (accepts : Char → Bool) : Pattern := .run accepts 1 none false

def exactly (n : Nat) (accepts : Char → Bool) : Pattern := .run accepts n (some n) false

def sequence (ps : List Pattern) : Pattern := ps.foldr .seq .empty

/-- The alternatives in order of preference; at least one must be given. -/
def choice : List Pattern → Pattern
  | [] => .char fun _ => false
  | [p] => p
  | p :: q :: rest => .either p (choice (q :: rest))

end Pattern

end ConsentGate.Text
