/-! Runs of characters that a case mapping shifts by one distance.

Case pairs come in blocks: either all characters of a block are shifted, or every second one. A
mapping is a list of such runs in ascending order; a character outside every run stays as it is. -/
namespace ConsentGate.Text
set_option autoImplicit false

/-- The code points `first`, `first + step`, …, `last`, each of which moves by `shift`. -/
structure CaseRun where
  first : Nat
  last : Nat
  step : Nat
  shift : Int
  deriving DecidableEq, Repr

namespace CaseRun

def covers (r : CaseRun) (n : Nat) : Bool :=
  r.first ≤ n && n ≤ r.last && (n - r.first) % r.step == 0

/-- The image of a code point under ascending runs. -/
def shift? : List CaseRun → Nat → Option Nat
  | [], _ => none
  | r :: rest, n =>
    if n < r.first then none
    else if r.covers n then some (n + r.shift).toNat
    else shift? rest n

end CaseRun

/-- The image of a character under ascending runs. -/
def shiftCase (runs : List CaseRun) (c : Char) : Char :=
  match CaseRun.shift? runs c.toNat with
  | some n => Char.ofNat n
  | none => c

end ConsentGate.Text
