/-! What the name of a property says about its value. -/
namespace ConsentGate.Field
set_option autoImplicit false

inductive Category where
  | alwaysRemove
  | derivedSecret
  | tenantReference
  | personalIdentifier
  | contact
  | personalDetail
  | financial
  | device
  | none
  deriving DecidableEq, Repr

namespace Category

def all : List Category :=
  [.alwaysRemove, .derivedSecret, .tenantReference, .personalIdentifier, .contact,
    .personalDetail, .financial, .device, .none]

def name : Category → String
  | .alwaysRemove => "always_remove"
  | .derivedSecret => "derived_secret"
  | .tenantReference => "tenant_reference"
  | .personalIdentifier => "personal_identifier"
  | .contact => "contact"
  | .personalDetail => "personal_detail"
  | .financial => "financial"
  | .device => "device"
  | .none => "none"

def ofName? (s : String) : Option Category := all.find? (·.name = s)

/-- No level lets a field of such a category through. -/
def isStripped : Category → Bool
  | .alwaysRemove | .derivedSecret | .tenantReference => true
  | _ => false

/-- Personal data, whose treatment depends on the level. -/
def isPersonal (c : Category) : Bool := !c.isStripped && c != .none

end Category

end ConsentGate.Field
