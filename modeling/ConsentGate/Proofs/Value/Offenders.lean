import ConsentGate.Proofs.Scrub.ValueModel

/-! The first value that is not supported.

A value has its nodes in depth-first order, left to right: itself, then what is in it, and each key of a
map right before the value under it (`nodes`). The check goes through them in this order and fails at the
first that is not supported, by the path of its place (`check_pathText`). So a value passes exactly if
it is within the value model, and otherwise the failure names the first offender
(`check_names_first_offender`). -/
namespace ConsentGate.Value
open Text
set_option autoImplicit false

/-! ## Nodes -/

/-- One step down into a value: to an item of a list, to the value under a key, or to a key itself. -/
inductive PathStep where
  | item (i : Nat)
  | field (k : Value)
  | key

namespace PathStep

/-- What a step adds to a path. A value under a key that is no text has no path of its own. -/
def text : PathStep → String
  | .item i => "[" ++ natString i ++ "]"
  | .field k => "." ++ k.textD
  | .key => ".<key>"

end PathStep

def pathText (path : String) (place : List PathStep) : String :=
  place.foldl (fun p step => p ++ step.text) path

inductive Node where
  | value (place : List PathStep) (v : Value)
  | key (place : List PathStep) (k : Value)

namespace Node

/-- A node is supported by itself, whatever is in it. -/
def isSupported : Node → Bool
  | .value _ (.list _) | .value _ (.map _) => true
  | .value _ v => v.isScalar
  | .key _ k => k.isStr

def failure (path : String) : Node → Failure
  | .value place v => .propertyDecode (pathText path place) "PropertyValue" v.typeName
  | .key place k => .propertyDecode (pathText path place) "str" k.typeName

end Node

mutual
/-- The nodes of a value that stands at a place, in depth-first order. -/
def nodesAt (place : List PathStep) : Value → List Node
  | .list items => .value place (.list items) :: itemNodes place 0 items
  | .map fields => .value place (.map fields) :: fieldNodes place fields
  | v => [.value place v]

def itemNodes (place : List PathStep) (i : Nat) : List Value → List Node
  | [] => []
  | v :: rest => v.nodesAt (place ++ [.item i]) ++ itemNodes place (i + 1) rest

def fieldNodes (place : List PathStep) : List (Value × Value) → List Node
  | [] => []
  | (k, v) :: rest =>
    .key (place ++ [.key]) k :: (v.nodesAt (place ++ [.field k]) ++ fieldNodes place rest)
end

def nodes (v : Value) : List Node := v.nodesAt []

/-! ## The first offender -/

def judge (path : String) (ns : List Node) : Except Failure Unit :=
  match ns.find? (!·.isSupported) with
  | none => .ok ()
  | some n => .error (n.failure path)

variable {path : String} {place : List PathStep} {n : Node} {ns ns' : List Node}

theorem judge_cons_of_supported (h : n.isSupported = true) : judge path (n :: ns) = judge path ns := by
  simp [judge, h]

theorem judge_cons_of_not_supported (h : n.isSupported = false) :
    judge path (n :: ns) = .error (n.failure path) := by
  simp [judge, h]

/-- The second nodes are judged where the first ones pass. -/
theorem judge_append : judge path (ns ++ ns') = (do judge path ns; judge path ns') := by
  induction ns with
  | nil => rfl
  | cons n ns ih =>
    cases h : n.isSupported with
    | true => rw [List.cons_append, judge_cons_of_supported h, judge_cons_of_supported h, ih]
    | false =>
      rw [List.cons_append, judge_cons_of_not_supported h, judge_cons_of_not_supported h]
      rfl

theorem judge_eq_error_iff {f : Failure} : judge path ns = .error f ↔
    ∃ before n after, ns = before ++ n :: after ∧ (∀ m ∈ before, m.isSupported = true) ∧
      n.isSupported = false ∧ f = n.failure path := by
  constructor
  · intro h
    unfold judge at h
    split at h
    · cases h
    · rename_i n hn
      cases h
      obtain ⟨hsupported, before, after, hns, hbefore⟩ := List.find?_eq_some_iff_append.mp hn
      exact ⟨before, n, after, hns, by simpa using hbefore, by simpa using hsupported, rfl⟩
  · rintro ⟨before, n, after, rfl, hbefore, hn, rfl⟩
    have hpass : before.find? (!·.isSupported) = none := by simpa using hbefore
    simp [judge, hpass, hn]

/-! ## The check -/

theorem pathText_concat (step : PathStep) :
    pathText path (place ++ [step]) = pathText path place ++ step.text := by
  simp [pathText]

theorem itemPath_pathText (i : Nat) :
    itemPath (pathText path place) i = pathText path (place ++ [.item i]) := by
  simp [pathText_concat, itemPath, PathStep.text, String.append_assoc]

theorem fieldPath_pathText (k : String) :
    fieldPath (pathText path place) k = pathText path (place ++ [.field (.str k)]) := by
  simp [pathText_concat, fieldPath, PathStep.text, textD, str?, String.append_assoc]

-- The cases follow the check's own recursion. A leaf is its only node.
mutual
theorem check_pathText (path : String) (place : List PathStep) (v : Value) :
    v.check (pathText path place) = judge path (v.nodesAt place) := by
  match v with
  | .list items =>
    rw [check, nodesAt, judge_cons_of_supported rfl, checkItems_pathText path place 0 items]
  | .map fields =>
    rw [check, nodesAt, judge_cons_of_supported rfl, checkFields_pathText path place fields]
  | .null | .bool _ | .int _ | .float _ | .decimal _ | .str _ | .date _ | .datetime _ | .bytes _
  | .tuple _ | .set _ | .level _ | .foreign | .uncopyable => rfl

theorem checkItems_pathText (path : String) (place : List PathStep) (i : Nat) (items : List Value) :
    checkItems (pathText path place) i items = judge path (itemNodes place i items) := by
  match items with
  | [] => rfl
  | v :: rest =>
    rw [checkItems, itemNodes, judge_append, itemPath_pathText, check_pathText path _ v,
      checkItems_pathText path place (i + 1) rest]

theorem checkFields_pathText (path : String) (place : List PathStep) (fields : List (Value × Value)) :
    checkFields (pathText path place) fields = judge path (fieldNodes place fields) := by
  match fields with
  | [] => rfl
  | (k, v) :: rest =>
    rw [fieldNodes]
    by_cases hk : k.isStr = true
    · obtain ⟨key, rfl⟩ := isStr_iff.mp hk
      rw [judge_cons_of_supported rfl, checkFields, judge_append, fieldPath_pathText,
        check_pathText path _ v, checkFields_pathText path place rest]
    · -- The bad key ends the check, so what stands under it and behind it is not looked at.
      have hkey : (Node.key (place ++ [.key]) k).isSupported = false := Bool.eq_false_iff.mpr hk
      rw [judge_cons_of_not_supported hkey, Node.failure, pathText_concat]
      cases k with
      | str key => exact absurd rfl hk
      | _ => rfl
end

theorem check_eq_judge (v : Value) (path : String) : v.check path = judge path v.nodes :=
  check_pathText path [] v

/-- A value passes the check exactly if, at every depth, it is of supported types and all its keys are
texts. Otherwise the check fails with the path and the type of the first node in depth-first order, left
to right, that is not supported: all nodes before it are. -/
theorem check_names_first_offender (v : Value) (path : String) :
    (v.check path = .ok () ↔ v.Typed ∧ v.TextKeys) ∧
      ∀ f, v.check path = .error f ↔ ∃ before n after, v.nodes = before ++ n :: after ∧
        (∀ m ∈ before, m.isSupported = true) ∧ n.isSupported = false ∧ f = n.failure path := by
  refine ⟨check_eq_ok_iff v path, fun f => ?_⟩
  rw [check_eq_judge]
  exact judge_eq_error_iff

/-- A value that is not supported stands before a key that is no text, in a list in a map. -/
def mixedValue : Value :=
  .map [(.str "a", .list [.int 1, .map [(.str "b", .bytes []), (.int 7, .null)]])]

theorem check_names_first_offender_sample :
    mixedValue.check "p" = .error (.propertyDecode "p.a[1].b" "PropertyValue" "bytes") := by
  refine ((check_names_first_offender mixedValue "p").2 _).mpr ?_
  exact ⟨mixedValue.nodes.take 6, .value [.field (.str "a"), .item 1, .field (.str "b")] (.bytes []),
    mixedValue.nodes.drop 7, rfl, by decide, rfl, rfl⟩

end ConsentGate.Value
