import ConsentGate.Number.Binary64

/-! The shortest decimal text of a binary floating-point number.

Each number stands for the interval of reals that round to it. Among the decimals in that interval
the ones with the fewest digits are taken, and of these the nearest to the number. `shortest` finds
it grid by grid: with `n` digits only the two grid points next to the number can be the answer. The
record `FloatLayout` says how the digits are laid out as text. -/
namespace ConsentGate.Number
set_option autoImplicit false
-- Powers are those of the core library, also where Mathlib knows others.
attribute [local instance (high)] instPowNat

/-- A positive decimal: `coefficient · 10 ^ exponent`. -/
structure DecimalDigits where
  coefficient : Nat
  exponent : Int
  deriving DecidableEq, Repr

namespace DecimalDigits

/-- The digits without zeros at the end. -/
def strip : (fuel : Nat) → DecimalDigits → DecimalDigits
  | 0, d => d
  | fuel + 1, d =>
    if d.coefficient ≠ 0 ∧ d.coefficient % 10 = 0 then
      strip fuel ⟨d.coefficient / 10, d.exponent + 1⟩
    else d

end DecimalDigits

namespace Binary64

/-- The greatest `k` with `10 ^ k ≤ num / den`, for positive arguments. -/
def floorLog10 (num den : Nat) : Int :=
  let k : Int := ((Nat.toDigits 10 num).length : Int) - (Nat.toDigits 10 den).length
  let le : Bool := den * 10 ^ k.toNat ≤ num * 10 ^ (-k).toNat
  if le then k else k - 1

/-- Whether `c · 10 ^ p` rounds to `m · 2 ^ e`: the ends of the interval belong to it when `m` is
even, and below a power of two the grid is twice as fine. -/
def inInterval (m : Nat) (e : Int) (c : Nat) (p : Int) : Bool :=
  let below := if m = 2 ^ (52 : Nat) ∧ e > leastExponent then 4 * m - 1 else 4 * m - 2
  let above := 4 * m + 2
  let d := c * 10 ^ p.toNat * 2 ^ (2 - e).toNat
  let unit := 2 ^ (e - 2).toNat * 10 ^ (-p).toNat
  if m % 2 = 0 then below * unit ≤ d && d ≤ above * unit
  else below * unit < d && d < above * unit

/-- The grid point of `n` digits that lies in the interval and is nearest to the number; of two as
near as each other, the even one. -/
def onGrid? (m : Nat) (e : Int) (n : Nat) : Option DecimalDigits :=
  let num := m * 2 ^ e.toNat
  let den := 2 ^ (-e).toNat
  let p := floorLog10 num den - (n - 1 : Int)
  let scaledNum := num * 10 ^ (-p).toNat
  let scaledDen := den * 10 ^ p.toNat
  let low := scaledNum / scaledDen
  let lowIn := low ≠ 0 && inInterval m e low p
  let highIn := inInterval m e (low + 1) p
  let twice := 2 * (scaledNum % scaledDen)
  let lowNearer : Bool := twice < scaledDen ∨ (twice = scaledDen ∧ low % 2 = 0)
  if lowIn && (!highIn || lowNearer) then some ⟨low, p⟩
  else if highIn then some ⟨low + 1, p⟩
  else none

/-- The shortest decimal that rounds to `m · 2 ^ e`; seventeen digits always suffice. -/
def shortest (m : Nat) (e : Int) : DecimalDigits :=
  match (List.range 17).findSome? fun n => onGrid? m e (n + 1) with
  | some d => d.strip 17
  | none => ⟨m, e⟩

end Binary64

/-! ## Layout -/

/-- How the digits of a number become text. -/
structure FloatLayout where
  /-- Least and greatest power of ten of the first digit that is written without exponent. -/
  positional : Int × Int
  /-- Least count of digits in the exponent. -/
  exponentWidth : Nat
  /-- How an exponent that is not negative begins. -/
  exponentPlus : String
  nan : String
  infinity : String

/-- Numbers from a ten-thousandth up to below ten to the sixteenth are written with a point and at
least one digit after it, all others with a signed exponent of at least two digits. -/
def plainFloat : FloatLayout := ⟨(-4, 15), 2, "+", "nan", "inf"⟩

/-- The layout inside JSON text. -/
def jsonFloat : FloatLayout := { plainFloat with nan := "NaN", infinity := "Infinity" }

namespace FloatLayout

/-- The digits with a point after the first `point` of them. -/
def withPoint (digits : List Char) (point : Int) : List Char :=
  if point ≤ 0 then '0' :: '.' :: (List.replicate (-point).toNat '0' ++ digits)
  else if (digits.length : Int) ≤ point then
    digits ++ List.replicate (point.toNat - digits.length) '0' ++ ['.', '0']
  else digits.take point.toNat ++ '.' :: digits.drop point.toNat

/-- An exponent with its sign. -/
def exponentText (layout : FloatLayout) (k : Int) : List Char :=
  let digits := Nat.toDigits 10 k.natAbs
  'e' :: ((if k < 0 then ['-'] else layout.exponentPlus.toList) ++
    List.replicate (layout.exponentWidth - digits.length) '0' ++ digits)

def magnitude (layout : FloatLayout) (m : Nat) (e : Int) : List Char :=
  if m = 0 then ['0', '.', '0']
  else
    let d := Binary64.shortest m e
    let digits := Nat.toDigits 10 d.coefficient
    let point := d.exponent + digits.length
    if layout.positional.1 ≤ point - 1 ∧ point - 1 ≤ layout.positional.2 then
      withPoint digits point
    else
      (match digits with
        | [] => []
        | [c] => [c]
        | c :: rest => c :: '.' :: rest) ++ layout.exponentText (point - 1)

def text (layout : FloatLayout) : Binary64 → List Char
  | .nan => layout.nan.toList
  | .infinite negative => (if negative then ['-'] else []) ++ layout.infinity.toList
  | .finite negative m e => (if negative then ['-'] else []) ++ layout.magnitude m e

end FloatLayout

end ConsentGate.Number
