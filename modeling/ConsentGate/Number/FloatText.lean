import ConsentGate.Number.Numeral
import ConsentGate.Number.Shortest

/-! Binary floating-point numbers read back from their plain text. -/
namespace ConsentGate.Number
set_option autoImplicit false

/-- The number that a text writes under the given layout's names for the special values. -/
def FloatLayout.read? (layout : FloatLayout) (s : List Char) : Option Binary64 :=
  if s = layout.nan.toList then some .nan
  else
    let (negative, rest) := takeSign s
    if rest = layout.infinity.toList then some (.infinite negative)
    else (readScientific? rest).map fun (c, k) => Binary64.ofDecimal negative c k

end ConsentGate.Number
