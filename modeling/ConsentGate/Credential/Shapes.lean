import ConsentGate.Text.Blank
import ConsentGate.Text.Digit
import ConsentGate.Text.Pattern
import ConsentGate.Text.Quoted
import ConsentGate.Text.Word

/-! Shapes that credentials have.

Each shape is a pattern for one line. Where a shape captures something under the number 1, that is the
secret part of it. -/
namespace ConsentGate.Credential
open Text Pattern
set_option autoImplicit false

/-! ## Characters -/

def isUpper (c : Char) : Bool := 'A' ≤ c && c ≤ 'Z'

def isLower (c : Char) : Bool := 'a' ≤ c && c ≤ 'z'

def isNumeral (c : Char) : Bool := '0' ≤ c && c ≤ '9'

def isUpperOrDigit (c : Char) : Bool := isUpper c || isNumeral c

def isAlphanumeric (c : Char) : Bool := isUpper c || isLower c || isNumeral c

def isIdentifier (c : Char) : Bool := isAlphanumeric c || c == '_'

/-- The class in any case. -/
def anyCase (accepts : Char → Bool) (c : Char) : Bool := accepts c || accepts (caseless c)

def isQuote (c : Char) : Bool := c == apostrophe || c == doubleQuote

def isBacktick (c : Char) : Bool := c.toNat == 96

/-- A quote or a back-quote. -/
def isAnyQuote (c : Char) : Bool := isQuote c || isBacktick c

/-- Every character but the line feed. -/
def isInLine (c : Char) : Bool := c != '\n'

/-- At most so many characters of a line, as few as will do. -/
def gap (most : Nat) : Pattern := .run isInLine 0 (some most) true

def blanks : Pattern := many isBlank

/-! ## Cloud and service keys -/

def awsKeyId : Pattern :=
  .seq (choice [.seq (lit "A3T") (.char isUpperOrDigit), lit "ABIA", lit "ACCA", lit "AKIA",
      lit "ASIA"])
    (exactly 16 isUpperOrDigit)

def awsSecretKey : Pattern :=
  sequence [litAnyCase "aws", gap 20,
    choice (["key", "pwd", "pw", "password", "pass", "token"].map litAnyCase), gap 20,
    .char isQuote,
    .capture 1 (exactly 40 (anyCase fun c => isAlphanumeric c || c == '/' || c == '+')),
    .char isQuote]

/-- The characters that separate the parts of an address. -/
def addressMarks : List Char :=
  [':', '/', '?', '#', '[', ']', '@', '!', '$', '&', apostrophe, '(', ')', '*', '+', ',', ';', '=']

def isAddressPart (c : Char) : Bool := !addressMarks.contains c && !isBlank c

/-- User and password in an address. -/
def basicAuth : Pattern :=
  sequence [lit "://", some1 isAddressPart, lit ":", .capture 1 (some1 isAddressPart), lit "@"]

def gitHubToken : Pattern :=
  sequence [.capture 1 (choice (["ghp", "gho", "ghu", "ghs", "ghr"].map lit)), lit "_",
    exactly 36 isIdentifier]

def isWebTokenChar (c : Char) : Bool := isIdentifier c || c == '-' || c == '='

/-- Two parts of a web token, joined by a point; a point may follow. -/
def webToken : Pattern :=
  sequence [lit "eyJ", some1 isWebTokenChar, lit ".", some1 isWebTokenChar, opt (lit ".")]

def privateKeyHeaders : List Pattern :=
  ["BEGIN DSA PRIVATE KEY", "BEGIN EC PRIVATE KEY", "BEGIN OPENSSH PRIVATE KEY",
    "BEGIN PGP PRIVATE KEY BLOCK", "BEGIN PRIVATE KEY", "BEGIN RSA PRIVATE KEY",
    "BEGIN SSH2 ENCRYPTED PRIVATE KEY", "PuTTY-User-Key-File-2"].map lit

def slackToken : Pattern :=
  sequence [litAnyCase "xox", choice (["a", "b", "p", "o", "s", "r"].map litAnyCase), lit "-",
    .oneOrMore (.seq (some1 isDigit) (lit "-")),
    some1 (anyCase fun c => isLower c || isNumeral c)]

def slackHook : Pattern :=
  sequence [litAnyCase "https://hooks.slack.com/services/T", some1 (anyCase isIdentifier),
    litAnyCase "/B", some1 (anyCase isIdentifier), lit "/", some1 (anyCase isIdentifier)]

def stripeKey : Pattern :=
  sequence [choice [lit "r", lit "s"], lit "k_live_", exactly 24 isAlphanumeric]

/-! ## Keywords followed or preceded by a quoted secret -/

/-- A word that announces a secret, and the rest of the identifier that it begins. -/
def keyword (word : String → Pattern) : Pattern :=
  let joined (a b : String) : Pattern := sequence [word a, opt (word "_"), word b]
  .seq
    (choice
      [joined "api" "key", joined "auth" "key", joined "service" "key", joined "account" "key",
        joined "db" "key", joined "database" "key", joined "priv" "key", joined "private" "key",
        joined "client" "key", joined "db" "pass", joined "database" "pass", joined "key" "pass",
        word "password", word "passwd", word "pwd", word "secret",
        word (String.ofList ("contrase".toList ++ [Char.ofNat 241, 'a'])), word "contrasena"])
    (many isWordChar)

/-- A bracket or quotes that close the keyword's place. -/
def closing : Pattern := .run (fun c => c == ']' || isQuote c) 0 (some 2) false

def verticalTab : Char := Char.ofNat 11

/-- A text between two equal quotes that begins with a word character and does not end in a comma; it
is captured as the secret. -/
def quotedSecret : Pattern :=
  let inside (c : Char) : Bool := c != verticalTab && !isQuote c
  sequence
    [.capture 2 (.char isAnyQuote),
      .capture 1
        (sequence [.ahead (some1 isWordChar), many inside,
          .char fun c => inside c && c != ',' && !isBacktick c]),
      .again 2]

/-- The comparisons and assignments that stand between a keyword and its secret. -/
def comparison : Pattern :=
  .either (.run (· == '=') 1 (some 3) false) (.seq (lit "!=") (opt (lit "=")))

def keywordShapes : List Pattern :=
  [sequence [keyword litAnyCase, closing, lit ":", blanks, quotedSecret],
    sequence [quotedSecret, blanks, .run (fun c => c == '!' || c == '=') 2 (some 3) false, blanks,
      many isWordChar, keyword lit],
    sequence [keyword litAnyCase, closing, blanks, comparison, blanks, quotedSecret],
    sequence [keyword litAnyCase, .run (fun c => !isBlank c) 0 (some 50) true, blanks, quotedSecret,
      lit ";"],
    sequence [keyword litAnyCase, closing, blanks, lit "=", opt (lit ">"), blanks,
      quotedSecret]]

/-! ## Shapes that are looked for besides -/

def accessKeyId : Pattern := .seq (lit "AKIA") (exactly 16 isUpperOrDigit)

/-- The names under which keys are assigned. -/
def keyName : Pattern :=
  let joined (a b : String) : Pattern :=
    sequence [litAnyCase a, opt (.char fun c => c == '_' || c == '-'), litAnyCase b]
  choice [joined "api" "key", litAnyCase "apikey", joined "secret" "key", joined "auth" "token",
    joined "access" "token"]

def assignedKey : Pattern :=
  let quote := opt (.char isQuote)
  sequence [quote, keyName, quote, blanks, .char (fun c => c == ':' || c == '='), blanks, quote,
    .run (anyCase fun c => isIdentifier c || c == '-') 20 none false]

def apiKeyShapes : List Pattern :=
  [assignedKey,
    .seq (lit "sk-") (.run isAlphanumeric 20 none false),
    sequence [lit "gh", .char (fun c => c == 'p' || c == 'o' || c == 's'), lit "_",
      exactly 36 isAlphanumeric],
    sequence [lit "-----BEGIN ", opt (.seq (some1 isUpper) (lit " ")),
      lit "PRIVATE KEY-----"]]

/-- A part of a connection string: a name, an equals sign and a value. -/
def setting (name : Pattern) : Pattern :=
  sequence [name, blanks, lit "=", blanks, some1 (· != ';')]

def connectionShapes : List Pattern :=
  [sequence
      [choice [.seq (litAnyCase "postgres") (opt (litAnyCase "ql")), litAnyCase "mysql",
          .seq (litAnyCase "mongodb") (opt (litAnyCase "+srv")), litAnyCase "redis",
          litAnyCase "amqp"],
        lit "://", some1 fun c => !isBlank c && !isQuote c],
    sequence
      [setting (litAnyCase "Server"), lit ";", blanks, setting (litAnyCase "Database"), lit ";",
        blanks,
        setting (.either (sequence [litAnyCase "User", blanks, litAnyCase "Id"])
          (litAnyCase "Uid")),
        lit ";", blanks, setting (.either (litAnyCase "Password") (litAnyCase "Pwd"))]]

end ConsentGate.Credential
