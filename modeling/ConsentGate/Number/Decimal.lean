import ConsentGate.Number.Numeral
import ConsentGate.Text.LowerCase

/-! Decimal numbers that keep their exponent, so that `1.50` and `1.5` are told apart.

The text of a decimal is positional as long as its exponent is not positive and at most five zeros
follow the point before the first digit; otherwise it is scientific, with one digit before the
point. -/
namespace ConsentGate.Number
open Text
set_option autoImplicit false
-- Powers are those of the core library, also where Mathlib knows others.
attribute [local instance (high)] instPowNat

inductive Decimal where
  | finite (negative : Bool) (coefficient : Nat) (exponent : Int)
  | infinite (negative : Bool)
  /-- No number; the payload is a label with no meaning of its own, zero when there is none. -/
  | nan (negative signaling : Bool) (payload : Nat)
  deriving DecidableEq, Repr

namespace Decimal

def signText (negative : Bool) : List Char := if negative then ['-'] else []

/-- Digits with a point after the first `point` of them, zeros filled in on either side. -/
def placed (digits : List Char) (point : Int) : List Char :=
  if point ≤ 0 then '0' :: '.' :: (List.replicate (-point).toNat '0' ++ digits)
  else if (digits.length : Int) ≤ point then
    digits ++ List.replicate (point.toNat - digits.length) '0'
  else digits.take point.toNat ++ '.' :: digits.drop point.toNat

def text : Decimal → List Char
  | .finite negative coefficient exponent =>
    let digits := Nat.toDigits 10 coefficient
    let left := exponent + digits.length
    let point := if exponent ≤ 0 ∧ -6 < left then left else 1
    let scale := left - point
    signText negative ++ placed digits point ++
      (if scale = 0 then []
        else 'E' :: (if scale < 0 then '-' else '+') :: Nat.toDigits 10 scale.natAbs)
  | .infinite negative => signText negative ++ "Infinity".toList
  | .nan negative signaling payload =>
    signText negative ++ (if signaling then ['s'] else []) ++ "NaN".toList ++
      (if payload = 0 then [] else Nat.toDigits 10 payload)

/-- Whether the number counts as something: everything but zero does. -/
def isNonzero : Decimal → Bool
  | .finite _ coefficient _ => coefficient != 0
  | _ => true

/-- The integer that a finite number without fraction equals. Whatever has more places than digits
is below one. -/
def toInt? : Decimal → Option Int
  | .finite negative coefficient exponent =>
    let places := (-exponent).toNat
    if coefficient = 0 then some 0
    else if (Nat.toDigits 10 coefficient).length ≤ places then none
    else if coefficient % 10 ^ places = 0 then
      let n : Int := coefficient / 10 ^ places * 10 ^ exponent.toNat
      some (if negative then -n else n)
    else none
  | _ => none

/-- Numerator and denominator of a finite number. -/
def ratio? : Decimal → Option (Int × Nat)
  | .finite negative coefficient exponent =>
    let n : Int := coefficient * 10 ^ exponent.toNat
    some (if negative then -n else n, 10 ^ (-exponent).toNat)
  | _ => none

/-- The special values by their names, in any case. -/
def readSpecial? (negative : Bool) (s : List Char) : Option Decimal :=
  let payload? (signaling : Bool) (rest : List Char) : Option Decimal :=
    match takeDigits rest with
    | (ds, []) => some (.nan negative signaling (ofDigits ds))
    | _ => none
  match lower s with
  | 'i' :: 'n' :: 'f' :: rest =>
    if rest = [] ∨ rest = "inity".toList then some (.infinite negative) else none
  | 's' :: 'n' :: 'a' :: 'n' :: rest => payload? true rest
  | 'n' :: 'a' :: 'n' :: rest => payload? false rest
  | _ => none

/-- The decimal that a text writes: blanks around it and underscores anywhere are ignored. -/
def read? (s : List Char) : Option Decimal :=
  let (negative, rest) := takeSign ((trim s).filter (· ≠ '_'))
  match readScientific? rest with
  | some (coefficient, exponent) => some (.finite negative coefficient exponent)
  | none => readSpecial? negative rest

end Decimal

end ConsentGate.Number
