import ConsentGate.Failure
import ConsentGate.Text.Cut

/-! The network's location must not overlap that of the production store.

A location with a scheme is compared as it is written, without slashes at its end. Any other is a path:
it is resolved to an absolute one first, against the current directory, with a leading tilde for a
home directory. Two locations overlap when they are equal or one lies below the other. -/
namespace ConsentGate.Ledger
set_option autoImplicit false
-- Parts of a text are found as the core library does it, also where Mathlib knows another way.
attribute [local instance (high)] List.instDecidableIsInfixOfDecidableEq

/-! ## Paths -/

/-- The parts of a path that name something. -/
def components (path : List Char) : List (List Char) :=
  (Text.cut '/' path).filter fun part => part ≠ [] ∧ part ≠ ['.']

/-- Goes down a path from a directory; two dots lead up, and above the root there is nothing. -/
def descend : (directory path : List (List Char)) → List (List Char)
  | directory, [] => directory
  | directory, part :: rest =>
    if part = ['.', '.'] then descend directory.dropLast rest
    else descend (directory ++ [part]) rest

/-- Where relative paths and tildes lead. -/
structure Surroundings where
  directory : List (List Char)
  home : List (List Char)
  /-- The homes of other users, by name. -/
  homes : List (List Char × List (List Char)) := []

/-- The character that no path holds. -/
def forbidden : Char := Char.ofNat 0

/-- Where a tilde with a user's name after it leads; alone it leads home. -/
def homeOf (s : Surroundings) (user : List Char) : Except Fault (List (List Char)) :=
  if user = [] then .ok s.home
  else if user.contains forbidden then .error .wrongValue
  else
    match s.homes.lookup user with
    | some home => .ok home
    | none => .error (.external "RuntimeError")

/-- The directory from which a path leads, and the components that lead on from there. -/
def startOf (s : Surroundings) (path : List Char) :
    Except Fault (List (List Char) × List (List Char)) :=
  match path, components path with
  | '/' :: _, parts => .ok ([], parts)
  | _, ('~' :: user) :: rest => (homeOf s user).map fun home => (home, rest)
  | _, parts => .ok (s.directory, parts)

/-- The components of a path resolved to an absolute one. -/
def resolve (s : Surroundings) (path : List Char) : Except Fault (List (List Char)) := do
  let (directory, parts) ← startOf s path
  if path.contains forbidden then .error .wrongValue else return descend directory parts

/-- An absolute path. -/
def pathText (parts : List (List Char)) : List Char :=
  if parts.isEmpty then ['/'] else parts.flatMap fun part => '/' :: part

/-! ## Locations -/

def hasScheme (location : List Char) : Bool := decide ("://".toList <:+: location)

/-- A text without slashes at its end. -/
def dropSlashes : List Char → List Char
  | [] => []
  | c :: rest =>
    match dropSlashes rest with
    | [] => if c = '/' then [] else [c]
    | d :: kept => c :: d :: kept

/-- The form in which locations are compared. -/
def normalized (s : Surroundings) (location : List Char) : Except Fault (List Char) :=
  if hasScheme location then .ok (dropSlashes location)
  else (resolve s location).map pathText

/-- The second location is the first or lies below it. -/
def within (outer inner : List Char) : Bool :=
  inner == outer || (dropSlashes outer ++ ['/']).isPrefixOf inner

def overlaps (a b : List Char) : Bool := within a b || within b a

/-- Refuses a network location that overlaps the production store's. -/
def ensureIsolated (s : Surroundings) (network production : String) : Except Fault Unit := do
  let a ← normalized s network.toList
  let b ← normalized s production.toList
  if overlaps a b then .error (.named (.isolation network production)) else return ()

end ConsentGate.Ledger
