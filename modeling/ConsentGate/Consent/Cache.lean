import ConsentGate.Failure
import ConsentGate.Value.Text

/-! A bounded cache of consent records, each of which expires.

Entries stand in the order of their last use, the least recently used first. Every invalidation
raises the generation; a result that was looked up under an older generation is not kept. Times are
seconds of a clock that the caller reads, as numbers of any kind; where two of them cannot be added
or compared, a call fails and the cache stays as it was. -/
namespace ConsentGate.Consent
open Number
set_option autoImplicit false

/-- The clock after some time has passed. -/
def later (now : Quantity) (elapsed : Value) : Except Fault Quantity :=
  match elapsed.quantity? with
  | none => .error .wrongType
  | some seconds => now.add seconds

structure CacheEntry (α : Type) where
  tenant : String
  record : α
  expiresAt : Quantity

structure Cache (α : Type) where
  ttl : Quantity
  capacity : Nat
  entries : List (CacheEntry α)
  generation : Nat

namespace Cache

variable {α : Type}

def standardTtl : Value := .float (.ofInt 300)

def standardCapacity : Int := 10000

/-- An empty cache; lifetime and capacity must be positive. -/
def make (ttl : Value) (capacity : Int) : Except Fault (Cache α) :=
  match ttl.quantity? with
  | none => .error .wrongType
  | some seconds => do
    if ← seconds.le? (.whole 0) then
      .error (.named (.configuration
        ("consent cache TTL must be positive (got " ++ (← ttl.plainString) ++ ")")))
    else if capacity ≤ 0 then
      .error (.named (.configuration
        ("consent cache size must be positive (got " ++ (← (Value.int capacity).plainString) ++ ")")))
    else return ⟨seconds, capacity.toNat, [], 0⟩

def size (c : Cache α) : Nat := c.entries.length

/-- The tenants from the least to the most recently used. -/
def tenants (c : Cache α) : List String := c.entries.map (·.tenant)

def find? (c : Cache α) (tenant : String) : Option (CacheEntry α) :=
  c.entries.find? fun e => e.tenant == tenant

/-- The entries of all other tenants. -/
def without (c : Cache α) (tenant : String) : List (CacheEntry α) :=
  c.entries.filter fun e => e.tenant != tenant

/-- The record kept for a tenant. An entry found is the latest used from now on; one that has expired
is removed. -/
def get (c : Cache α) (now : Quantity) (tenant : String) : Except Fault (Option α) × Cache α :=
  match c.find? tenant with
  | none => (.ok none, c)
  | some e =>
    match e.expiresAt.le? now with
    | .error f => (.error f, c)
    | .ok true => (.ok none, { c with entries := c.without tenant })
    | .ok false => (.ok (some e.record), { c with entries := c.without tenant ++ [e] })

/-- Keeps a record unless its generation is out of date, and says whether it did. The least recently
used entries make room. -/
def put (c : Cache α) (now : Quantity) (tenant : String) (record : α) (generation : Option Int) :
    Except Fault Bool × Cache α :=
  if generation.any fun g => g != (c.generation : Int) then (.ok false, c)
  else
    match now.add c.ttl with
    | .error f => (.error f, c)
    | .ok expiresAt =>
      let entries := c.without tenant ++ [⟨tenant, record, expiresAt⟩]
      (.ok true, { c with entries := entries.drop (entries.length - c.capacity) })

/-- Forgets a tenant and says whether it was known. -/
def invalidate (c : Cache α) (tenant : String) : Bool × Cache α :=
  ((c.find? tenant).isSome,
    { c with entries := c.without tenant, generation := c.generation + 1 })

end Cache

end ConsentGate.Consent
