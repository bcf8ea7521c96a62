import ConsentGate.Digest.Hmac
import ConsentGate.Text.Blank
import ConsentGate.Text.CodePoint
import ConsentGate.Text.LowerCase
import ConsentGate.Value.Json
import ConsentGate.Value.Text

/-! One-way hashes of identifiers and tokens for personal values.

A hash is the beginning of a keyed digest of a text. The same text gives the same hash everywhere the
same salt is used, so repeated contributions can be joined, while nobody without the salt can find the
text by guessing. -/
namespace ConsentGate
open Digest Text
set_option autoImplicit false
-- Powers are those of the core library, also where Mathlib knows others.
attribute [local instance (high)] instPowNat

structure Hasher where
  key : List UInt8
  /-- How many hexadecimal digits are kept. -/
  length : Nat
  bounds : 8 ≤ length ∧ length ≤ 64

namespace Hasher

def standardLength : Nat := 32

def tokenMark : String := "TOKEN_"

def saltVariable : String := "DATANET_HASH_SALT"

/-! ## Salts -/

/-- An item as a byte. -/
def byteOf : Value → Except Fault UInt8
  | .int n => if 0 ≤ n ∧ n < 256 then .ok (UInt8.ofNat n.toNat) else .error .wrongValue
  | .bool b => .ok (if b then 1 else 0)
  | _ => .error .wrongType

/-- So many zero bytes. -/
def zeroBytes (n : Int) : Except Fault (List UInt8) :=
  if n < -2 ^ (63 : Nat) ∨ 2 ^ (63 : Nat) ≤ n then .error .outOfRange
  else if n < 0 then .error .wrongValue
  else if n ≥ 2 ^ (40 : Nat) then .error (.external "MemoryError")
  else .ok (List.replicate n.toNat 0)

/-- The key that a salt stands for: a text in UTF-8, bytes as they are, a number as so many zero bytes,
and a collection as the bytes that it lists. -/
def saltBytes : Value → Except Fault (List UInt8)
  | .str s => .ok (utf8 s.toList)
  | .bytes bs => .ok bs
  | .int n => zeroBytes n
  | .bool b => zeroBytes (if b then 1 else 0)
  | .list items => items.mapM byteOf
  | .tuple items => items.mapM byteOf
  | .set items => items.mapM byteOf
  | .map fields => fields.mapM fun field => byteOf field.1
  | _ => .error .wrongType

def ofSalt (salt : Value) (length : Int) : Except Fault Hasher :=
  if !salt.truthy then
    .error (.named (.configuration "hash salt must be a non-empty string"))
  else if h : 8 ≤ length ∧ length ≤ 64 then do
    let key ← saltBytes salt
    return ⟨key, length.toNat, by omega⟩
  else
    .error (.named (.configuration
      ("hash length must be between 8 and 64 (got " ++ intString length ++ ")")))

/-- The hasher whose salt is the setting of an environment variable. -/
def ofEnvironment (name : String) (setting : Option String) : Except Fault Hasher :=
  let salt := setting.getD ""
  if salt = "" then
    .error (.named (.configuration ("environment variable " ++ name ++ " is not set")))
  else ofSalt (.str salt) standardLength

/-! ## Hashes -/

def digest (h : Hasher) (s : List Char) : String :=
  String.ofList ((hex (hmac h.key (utf8 s))).take h.length)

/-- The text that is hashed for an identifier, with the tenant behind it if there is one. Only with a
tenant can an identifier be something else than a text. -/
def identifierText (value tenant : Value) : Except Fault (List Char) :=
  if tenant.truthy then do
    let value ← value.plain
    let tenant ← tenant.plain
    return value ++ ':' :: tenant
  else
    match value with
    | .str s => .ok s.toList
    | _ => .error .noSuchMember

/-- The hash of an identifier; an empty one stays empty. -/
def hashIdentifier (h : Hasher) (value tenant : Value) : Except Fault String :=
  if value.truthy then (identifierText value tenant).map h.digest else .ok ""

/-- The hash of a tenant; a missing one stays empty. -/
def hashTenant (h : Hasher) (tenant : Value) : Except Fault String :=
  h.hashIdentifier tenant .null

/-- The hash of a text of code points. One with a surrogate in it has no UTF-8 form to be hashed. -/
def digestCodes (h : Hasher) (t : List CodePoint) : Except Fault String :=
  match characters? t with
  | some s => .ok (h.digest s)
  | none => .error (.external "UnicodeEncodeError")

/-- The hash of an identifier that is a text of code points, with the tenant's behind it if there is one; an
empty one stays empty. -/
def hashCodes (h : Hasher) (id tenant : List CodePoint) : Except Fault String :=
  if id.isEmpty then .ok ""
  else h.digestCodes (if tenant.isEmpty then id else id ++ .char ':' :: tenant)

/-- The text of a value in which spellings that mean the same agree. -/
def canonicalText : Value → Except Fault (List Char)
  | .str s => .ok (lower (trim s.toList))
  | .list items => (Value.list items).json
  | .map fields => (Value.map fields).json
  | .date d => .ok d.isoText
  | .datetime t => .ok t.isoText
  | v => v.plain

/-- The token that takes the place of a value; nothing stays nothing. -/
def tokenize (h : Hasher) : Value → Except Fault Value
  | .null => .ok .null
  | v => (canonicalText v).map fun s => .str (tokenMark ++ h.digest s)

end Hasher

end ConsentGate
