/-! How strongly an entity is scrubbed before it is contributed. -/
namespace ConsentGate
set_option autoImplicit false

/-- Chosen per tenant; strict removes most, minimal least. -/
inductive Level where
  | strict
  | moderate
  | minimal
  deriving DecidableEq, Repr

namespace Level

def all : List Level := [.strict, .moderate, .minimal]

def name : Level → String
  | .strict => "Strict"
  | .moderate => "Moderate"
  | .minimal => "Minimal"

/-- The member name that a message shows beside the level's own name. -/
def tag : Level → String
  | .strict => "STRICT"
  | .moderate => "MODERATE"
  | .minimal => "MINIMAL"

def ofName? (s : String) : Option Level := all.find? (·.name = s)

end Level

end ConsentGate
