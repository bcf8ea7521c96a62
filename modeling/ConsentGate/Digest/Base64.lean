/-! Base64 in the alphabet for names and addresses, read leniently.

Characters outside the alphabet are skipped. Reading stops at the padding that completes a group of
four; a group that is still open at the end makes the text unreadable. -/
namespace ConsentGate.Digest
set_option autoImplicit false

/-- The six bits that a character stands for; the two last places have two spellings each. -/
def sextet? (c : Char) : Option Nat :=
  if 'A' ≤ c ∧ c ≤ 'Z' then some (c.toNat - 65)
  else if 'a' ≤ c ∧ c ≤ 'z' then some (c.toNat - 71)
  else if '0' ≤ c ∧ c ≤ '9' then some (c.toNat + 4)
  else if c = '-' ∨ c = '+' then some 62
  else if c = '_' ∨ c = '/' then some 63
  else none

/-- Reads on with `held` bits left over from `place` characters of the current group, after `pads`
padding characters in a row. -/
def readBase64 : (place held pads : Nat) → List Char → Option (List UInt8)
  | place, _, _, [] => if place = 0 then some [] else none
  | place, held, pads, c :: rest =>
    if c = '=' then
      if 2 ≤ place then
        if 4 ≤ place + pads + 1 then some [] else readBase64 place held (pads + 1) rest
      else readBase64 place held pads rest
    else
      match sextet? c with
      | none => readBase64 place held pads rest
      | some v =>
        match place with
        | 0 => readBase64 1 v 0 rest
        | 1 => (readBase64 2 (v % 16) 0 rest).map (UInt8.ofNat (held * 4 + v / 16) :: ·)
        | 2 => (readBase64 3 (v % 4) 0 rest).map (UInt8.ofNat (held * 16 + v / 4) :: ·)
        | _ => (readBase64 0 0 0 rest).map (UInt8.ofNat (held * 64 + v) :: ·)

def ofBase64? (s : List Char) : Option (List UInt8) := readBase64 0 0 0 s

/-- The text that bytes write in UTF-8. -/
def ofUtf8? (bytes : List UInt8) : Option (List Char) :=
  (String.fromUTF8? ⟨bytes.toArray⟩).map String.toList

end ConsentGate.Digest
