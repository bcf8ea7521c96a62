import ConsentGate.Text.LowerCase

/-! Characters compared without regard to case, one at a time.

A character counts as its lower-case form; the dotless i counts as i and the long s as s. -/
namespace ConsentGate.Text
set_option autoImplicit false

def caseless (c : Char) : Char :=
  if c.toNat = 305 then 'i'
  else if c.toNat = 383 then 's'
  else
    match lowerChar c with
    | d :: _ => d
    | [] => c

/-- What follows a text at the start of another, if it stands there. -/
def dropText? (same : Char → Char → Bool) : List Char → List Char → Option (List Char)
  | [], s => some s
  | _ :: _, [] => none
  | c :: cs, d :: s => if same c d then dropText? same cs s else none

def sameChar (c d : Char) : Bool := c == d

def sameCaseless (c d : Char) : Bool := caseless c == caseless d

end ConsentGate.Text
