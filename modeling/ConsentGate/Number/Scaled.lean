import ConsentGate.Number.Binary64
import ConsentGate.Number.Decimal

/-! Exact order among numbers of every kind.

A finite number is a fraction times a power of ten. Two of them are told apart by their signs, then
by their sizes, and only where the sizes are close by exact arithmetic, so that no power of ten is
computed that is longer than the numbers themselves. -/
namespace ConsentGate.Number
set_option autoImplicit false
-- Powers are those of the core library, also where Mathlib knows others.
attribute [local instance (high)] instPowNat

/-- The number `numerator / denominator · 10 ^ exponent`; the denominator is positive. -/
structure Scaled where
  numerator : Int
  denominator : Nat
  exponent : Int
  deriving DecidableEq, Repr

namespace Scaled

/-- A power of ten near the number, off by one at most. -/
def size (x : Scaled) : Int :=
  ((Nat.toDigits 10 x.numerator.natAbs).length : Int) - (Nat.toDigits 10 x.denominator).length +
    x.exponent

/-- Whether one number is less than another whose sign is the same and not zero. -/
def ltSameSign (x y : Scaled) : Bool :=
  if x.size + 2 ≤ y.size then decide (0 < y.numerator)
  else if y.size + 2 ≤ x.size then decide (x.numerator < 0)
  else
    let shift := x.exponent - y.exponent
    decide (x.numerator * 10 ^ shift.toNat * y.denominator <
      y.numerator * 10 ^ (-shift).toNat * x.denominator)

def lt (x y : Scaled) : Bool :=
  if x.numerator.sign ≠ y.numerator.sign then decide (x.numerator.sign < y.numerator.sign)
  else if x.numerator = 0 then false
  else x.ltSameSign y

end Scaled

def Binary64.scaled? (x : Binary64) : Option Scaled := x.ratio?.map fun (p, d) => ⟨p, d, 0⟩

def Decimal.scaled? : Decimal → Option Scaled
  | .finite negative coefficient exponent =>
    some ⟨if negative then -(coefficient : Int) else coefficient, 1, exponent⟩
  | _ => none

end ConsentGate.Number
