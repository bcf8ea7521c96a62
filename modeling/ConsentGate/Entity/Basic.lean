import ConsentGate.Value.Basic

/-! Entities of a tenant.

Only properties carry domain data; the other attributes are structural. Nothing is known of an
attribute before it is looked at, so each holds any value. -/
namespace ConsentGate
set_option autoImplicit false

structure Entity where
  id : Value
  type : Value
  properties : Value
  metadata : Value
  tenantId : Value
  version : Value
  source : Value
  createdAt : Value
  updatedAt : Value
  createdBy : Value
  updatedBy : Value
  isDeleted : Value
  deletedAt : Value
  deletedBy : Value

namespace Entity

/-- The attributes in their order. -/
def attributes (e : Entity) : List Value :=
  [e.id, e.type, e.properties, e.metadata, e.tenantId, e.version, e.source, e.createdAt,
    e.updatedAt, e.createdBy, e.updatedBy, e.isDeleted, e.deletedAt, e.deletedBy]

/-- Whether the whole entity can be copied. -/
def copyable (e : Entity) : Bool := e.attributes.all Value.copyable

end Entity

end ConsentGate
