import ConsentGate.Credential.Filters
import ConsentGate.Digest.Base64
import ConsentGate.Text.Cut
import ConsentGate.Value.JsonReader

/-! Credentials in texts.

A text is scanned line by line, and what is found in a line depends on that line alone. First all
detectors run over all lines, then the shapes that are looked for besides, which no filter touches. A
finding holds the kind of the credential and the number of its line, never the credential. -/
namespace ConsentGate.Credential
open Text Pattern
set_option autoImplicit false

structure Finding where
  kind : String
  line : Nat
  deriving DecidableEq, Repr

/-! ## Detectors -/

/-- Finds candidates in a line. -/
structure Detector where
  kind : String
  byKeyword : Bool
  candidates : List Char → List (List Char)

/-- The secret part of a match: what was captured, or else the whole. -/
def secretPart (found : Found) : List Char := (found.captured.lookup 1).getD found.whole

/-- All matches of some shapes. -/
def allMatches (shapes : List Pattern) (line : List Char) : List (List Char) :=
  shapes.flatMap fun shape => (shape.findAll line).map secretPart

/-- The first match of each of some shapes. -/
def firstMatches (shapes : List Pattern) (line : List Char) : List (List Char) :=
  shapes.filterMap fun shape => (shape.search? line).map secretPart

/-- One part of a web token with its padding, decoded. -/
def webTokenBytes? (part : List Char) : Option (List UInt8) :=
  match part.length % 4 with
  | 0 => Digest.ofBase64? part
  | 2 => Digest.ofBase64? (part ++ ['=', '='])
  | 3 => Digest.ofBase64? (part ++ ['=', '=', '='])
  | _ => none

/-- Header or claims of a web token are JSON. -/
def isWebTokenObject (part : List Char) : Bool :=
  match webTokenBytes? part with
  | none => false
  | some bytes =>
    match Digest.ofUtf8? bytes with
    | none => false
    | some s => (Value.ofJson? s).isSome

/-- Every part of a web token decodes, the first two to JSON. -/
def isWebToken (s : List Char) : Bool :=
  let parts := cut '.' s
  (parts.take 2).all isWebTokenObject && (parts.drop 2).all fun p => (webTokenBytes? p).isSome

def detectors : List Detector :=
  [⟨"AWS Access Key", false, allMatches [awsKeyId, awsSecretKey]⟩,
    ⟨"Basic Auth Credentials", false, allMatches [basicAuth]⟩,
    ⟨"GitHub Token", false, allMatches [gitHubToken]⟩,
    ⟨"JSON Web Token", false, fun line => (allMatches [webToken] line).filter isWebToken⟩,
    ⟨"Secret Keyword", true, firstMatches keywordShapes⟩,
    ⟨"Private Key", false, allMatches privateKeyHeaders⟩,
    ⟨"Slack Token", false, allMatches [slackToken, slackHook]⟩,
    ⟨"Stripe Access Key", false, allMatches [stripeKey]⟩]

/-- The kinds that one detector finds in a line: one for each candidate that is not dropped, equal
candidates counting once. -/
def Detector.scan (d : Detector) (line : List Char) : List String :=
  ((d.candidates line).eraseDups.filter fun s => !isDropped d.byKeyword line s).map fun _ => d.kind

/-- The kinds that the detectors find in a line. -/
def scanLine (line : List Char) : List String := detectors.flatMap fun d => d.scan line

/-- The kinds that are found in a line besides. -/
def scanLineBesides (line : List Char) : List String :=
  (if accessKeyId.occursIn line then ["AWS Access Key"] else []) ++
    (apiKeyShapes.filter fun shape => shape.occursIn line).map (fun _ => "API Key") ++
    (connectionShapes.filter fun shape => shape.occursIn line).map fun _ => "Connection String"

/-! ## Texts -/

/-- The findings of a line scanner in lines numbered from `first`. -/
def inLines (scan : List Char → List String) : (first : Nat) → List (List Char) → List Finding
  | _, [] => []
  | first, line :: rest => (scan line).map (⟨·, first⟩) ++ inLines scan (first + 1) rest

/-- What a line scanner finds in a text, and behind it what the shapes find that are looked for
besides. -/
def findingsBy (detect : List Char → List String) (s : List Char) : List Finding :=
  inLines detect 1 (lines s) ++ inLines scanLineBesides 1 (lines s)

def findings (s : List Char) : List Finding := findingsBy scanLine s

/-- Whether a line scanner or the shapes besides find anything; a blank text is not scanned. -/
def isPresentBy (detect : List Char → List String) (s : List Char) : Bool :=
  !allBlank s && !(findingsBy detect s).isEmpty

/-- Whether a text holds anything that looks like a credential. -/
def isPresentIn (s : List Char) : Bool := isPresentBy scanLine s

end ConsentGate.Credential
