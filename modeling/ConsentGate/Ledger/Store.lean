import ConsentGate.Ledger.Condition
import ConsentGate.Ledger.Isolation
import ConsentGate.Ledger.Row

/-! The ledger: an append-only list of rows.

A row once written is never changed or removed. While the ledger is broken every access fails with
the fault that broke it; the rows are still there afterwards. -/
namespace ConsentGate.Ledger
open Scrub
set_option autoImplicit false

structure Store where
  rows : List Row := []
  /-- The fault that every access meets. -/
  broken : Option Fault := none

namespace Store

/-- An empty ledger, at a location that does not overlap the production store's. -/
def openAt (s : Surroundings) (network : String) (production : Option String) :
    Except Fault Store := do
  if let some production := production then ensureIsolated s network production
  return {}

/-- Access to the rows for an operation; failures may pass. -/
def access (l : Store) (operation : String) : Except Fault (List Row) :=
  match l.broken with
  | some f => .error (.named (.storage operation f.name true none))
  | none => .ok l.rows

/-! ## Writing -/

/-- Why a row could not be encoded, as a failure of the store. -/
def encodingFailure (f : Fault) : Failure :=
  .storage "store" ("record could not be encoded (" ++ f.name ++ ")") false none

/-- What a fault of encoding leads to: a value of a wrong type or without text is a failure of the
store, every other fault passes as it is. -/
def encodingFault : Fault → Fault
  | .unsupported typeName => .named (encodingFailure (.unsupported typeName))
  | .wrongType => .named (encodingFailure .wrongType)
  | .wrongValue => .named (encodingFailure .wrongValue)
  | f => f

/-- The row that an append adds, unless the ledger is broken or a value does not fit its column. -/
def rowFor (l : Store) (d : Draft) : Except Fault Row :=
  match l.broken with
  | some f => .error f
  | none => Row.of d

def line (severity : Severity) (name : String) (p : Provenance) (last : String × String) :
    LogLine :=
  .event severity name [("entity_type", p.entityType), ("domain", p.domain), last]

/-- Appends a scrubbed entity; `none` stands for what is no scrubbed entity, or no provenance. -/
def append (l : Store) (s : Option Scrubbed) (p : Option Provenance) :
    Except Fault Unit × Log × Store :=
  match s, p with
  | none, _ =>
    (.error (.named (.invalidArgument "entity"
      "only scrubbed entities may be written to the data network")), [], l)
  | some _, none =>
    (.error (.named (.invalidArgument "metadata" "must be ContributionMetadata")), [], l)
  | some s, some p =>
    match Draft.of s p with
    | .error f => (.error (encodingFault f), [], l)
    | .ok d =>
      match l.rowFor d with
      | .error f =>
        (.error (.named (.storage "store" f.name true none)),
          [line .error "data_network_store_failed" p ("error", f.name)], l)
      | .ok r =>
        (.ok (), [line .info "stored_contribution" p ("scrubbing_level", p.level.name)],
          { l with rows := l.rows ++ [r] })

/-! ## Reading -/

def count (l : Store) : Except Fault Nat := (l.access "count").map List.length

/-- How many rows satisfy a condition. -/
def countWhere (condition : List Char) (rows : List Row) : Except Fault Nat :=
  match askedId? condition with
  | some id => .ok (rows.countP fun r => r.id == id)
  | none => .error .wrongValue

def contains (l : Store) (id : String) : Except Fault Bool := do
  let rows ← l.access "contains"
  match countWhere (idCondition id) rows with
  | .ok n => return decide (0 < n)
  | .error f => .error (.named (.storage "contains" f.name true none))

/-- The condition finds the rows with the identifier. -/
theorem contains_eq (l : Store) (id : String) :
    l.contains id = (l.access "contains").map fun rows => rows.any fun r => r.id == id := by
  unfold contains
  cases l.access "contains" with
  | error f => rfl
  | ok rows =>
    have hcount : countWhere (idCondition id) rows = .ok (rows.countP fun r => r.id == id) := by
      rw [countWhere, askedId?_idCondition]
    have hfound : decide (0 < rows.countP fun r => r.id == id) =
        rows.any fun r => r.id == id := by
      rw [Bool.eq_iff_iff, decide_eq_true_iff, List.countP_pos_iff, List.any_eq_true]
    simp only [bind, Except.bind, hcount]
    exact congrArg Except.ok hfound

def records (l : Store) : Except Fault (List (List (String × Value))) :=
  (l.access "read").map fun rows => rows.map Row.columns

/-- Whether the ledger can be reached, and if not, why. -/
def health (l : Store) : Option String × Log :=
  match l.broken with
  | none => (none, [])
  | some f => (some f.name, [.event .error "data_network_health_failed" [("error", f.name)]])

def breakWith (l : Store) (f : Fault) : Store := { l with broken := some f }

def repair (l : Store) : Store := { l with broken := none }

end Store

end ConsentGate.Ledger
