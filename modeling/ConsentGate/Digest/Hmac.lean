import ConsentGate.Digest.Sha256
import ConsentGate.Text.Quoted

/-! Keyed digests (HMAC) over SHA-256 and their hexadecimal text. -/
namespace ConsentGate.Digest
set_option autoImplicit false

/-- The key filled up with zeros to one block; a longer key is replaced by its digest. -/
def blockKey (key : List UInt8) : List UInt8 :=
  let key := if key.length > 64 then sha256 key else key
  key ++ List.replicate (64 - key.length) 0

def hmac (key message : List UInt8) : List UInt8 :=
  let key := blockKey key
  sha256 (key.map (· ^^^ 0x5c) ++ sha256 (key.map (· ^^^ 0x36) ++ message))

/-- Two hexadecimal digits for each byte. -/
def hex (bytes : List UInt8) : List Char :=
  bytes.flatMap fun b => [Nat.digitChar (b.toNat / 16), Nat.digitChar (b.toNat % 16)]

theorem length_hex (bytes : List UInt8) : (hex bytes).length = 2 * bytes.length := by
  induction bytes with
  | nil => rfl
  | cons b rest ih =>
    have h : hex (b :: rest) =
        Nat.digitChar (b.toNat / 16) :: Nat.digitChar (b.toNat % 16) :: hex rest := rfl
    rw [h, List.length_cons, List.length_cons, ih, List.length_cons]
    omega

theorem length_hmac (key message : List UInt8) : (hmac key message).length = 32 :=
  length_sha256 _

/-- A text as bytes in UTF-8. -/
def utf8 (s : List Char) : List UInt8 := s.flatMap String.utf8EncodeChar

end ConsentGate.Digest
