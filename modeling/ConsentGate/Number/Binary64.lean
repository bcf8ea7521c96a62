/-! Binary floating-point numbers with 53 significant bits.

A finite number is a sign, a mantissa and an exponent of two. It is kept in one form: the mantissa has
53 bits, or fewer when the exponent is the least one. Every operation is the exact one on ratios of
integers followed by `round`, which takes the nearest number and the even mantissa of two equally
near ones. -/
namespace ConsentGate.Number
set_option autoImplicit false
-- Powers are those of the core library, also where Mathlib knows others.
attribute [local instance (high)] instPowNat

inductive Binary64 where
  | nan
  | infinite (negative : Bool)
  | finite (negative : Bool) (mantissa : Nat) (exponent : Int)
  deriving DecidableEq, Repr

/-- The quotient rounded to the nearest integer, of two equally near ones the even one. -/
def roundDiv (num den : Nat) : Nat :=
  let q := num / den
  let r := num % den
  if 2 * r < den then q
  else if den < 2 * r then q + 1
  else if q % 2 = 0 then q else q + 1

namespace Binary64

def leastExponent : Int := -1074

def greatestExponent : Int := 971

def zero (negative : Bool) : Binary64 := .finite negative 0 leastExponent

/-- The greatest `k` with `2 ^ k ≤ num / den`, for positive arguments. -/
def floorLog2 (num den : Nat) : Int :=
  let k : Int := (num.log2 : Int) - den.log2
  let le : Bool := den * 2 ^ k.toNat ≤ num * 2 ^ (-k).toNat
  if le then k else k - 1

/-- The number nearest to `num / den`. -/
def round (negative : Bool) (num den : Nat) : Binary64 :=
  if num = 0 then zero negative
  else
    let e := max (floorLog2 num den - 52) leastExponent
    let m := roundDiv (num * 2 ^ (-e).toNat) (den * 2 ^ e.toNat)
    let (m, e) := if m = 2 ^ (53 : Nat) then (2 ^ (52 : Nat), e + 1) else (m, e)
    if e > greatestExponent then .infinite negative else .finite negative m e

/-- The number nearest to `coefficient · 10 ^ exponent`. Beyond four hundred digits before or after
the point nothing but infinity or zero is near, so such powers are not computed. -/
def ofDecimal (negative : Bool) (coefficient : Nat) (exponent : Int) : Binary64 :=
  let size : Int := (Nat.toDigits 10 coefficient).length + exponent
  if coefficient = 0 ∨ size < -400 then zero negative
  else if size > 400 then .infinite negative
  else round negative (coefficient * 10 ^ exponent.toNat) (10 ^ (-exponent).toNat)

def ofInt (n : Int) : Binary64 := round (n < 0) n.natAbs 1

def isNegative : Binary64 → Bool
  | .nan => false
  | .infinite negative => negative
  | .finite negative _ _ => negative

/-- Numerator and denominator of a finite number. -/
def ratio? : Binary64 → Option (Int × Nat)
  | .finite negative m e =>
    let n : Int := m * 2 ^ e.toNat
    some (if negative then -n else n, 2 ^ (-e).toNat)
  | _ => none

/-- The number nearest to `num / den`; a zero takes the sign given. -/
def roundInt (zeroNegative : Bool) (num : Int) (den : Nat) : Binary64 :=
  if num = 0 then zero zeroNegative else round (num < 0) num.natAbs den

/-! ## Arithmetic -/

def add : Binary64 → Binary64 → Binary64
  | .nan, _ => .nan
  | _, .nan => .nan
  | .infinite a, .infinite b => if a = b then .infinite a else .nan
  | .infinite a, .finite .. => .infinite a
  | .finite .., .infinite b => .infinite b
  | x@(.finite a _ _), y@(.finite b _ _) =>
    match x.ratio?, y.ratio? with
    | some (p, d), some (q, c) => roundInt (a && b) (p * c + q * d) (d * c)
    | _, _ => .nan

/-- The product with a positive integer that is itself such a number. -/
def scale (k : Nat) : Binary64 → Binary64
  | .nan => .nan
  | .infinite a => .infinite a
  | x@(.finite a _ _) =>
    match x.ratio? with
    | some (p, d) => roundInt a (p * k) d
    | none => .nan

/-! ## Comparison and whole numbers -/

def isZero : Binary64 → Bool
  | .finite _ m _ => m == 0
  | _ => false

/-- The integral part, cut toward zero. -/
def truncate? (x : Binary64) : Option Int := x.ratio?.map fun (p, d) => p.tdiv d

/-- The integer that a finite number without fraction equals. -/
def toInt? (x : Binary64) : Option Int :=
  match x.ratio? with
  | some (p, d) => if p % d = 0 then some (p / d) else none
  | none => none

/-- The difference to the integral part; exact, since it needs no more bits. -/
def fraction? (x : Binary64) : Option Binary64 :=
  x.ratio?.map fun (p, d) => roundInt x.isNegative (p - p.tdiv d * d) d

/-- The nearest integer, of two equally near ones the even one. -/
def nearestInt? (x : Binary64) : Option Int :=
  x.ratio?.map fun (p, d) =>
    let n : Int := roundDiv p.natAbs d
    if p < 0 then -n else n

end Binary64

end ConsentGate.Number
