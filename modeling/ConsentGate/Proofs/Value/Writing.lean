import ConsentGate.Value.Json
import ConsentGate.Value.Model

/-! Which values have a JSON text.

A value of the value model has one, unless an integer in it has too many digits. For a map this rests
on its keys being texts: those can always be sorted, and sorting loses no field. Where a value has no
text although its keys are texts, either such an integer or a value of no supported type is in it
(`json_fault`). -/
namespace ConsentGate.Value
open Number
set_option autoImplicit false

/-! ## Values that can be written -/

mutual
/-- A supported value in which every integer has a text. -/
def isWritable : Value → Bool
  | .int n => (writeInt? n).isSome
  | .list items => itemsWritable items
  | .map fields => fieldsWritable fields
  | v => v.isScalar

def itemsWritable : List Value → Bool
  | [] => true
  | v :: rest => v.isWritable && itemsWritable rest

def fieldsWritable : List (Value × Value) → Bool
  | [] => true
  | (k, v) :: rest => k.isStr && v.isWritable && fieldsWritable rest
end

/-! ## Objects -/

theorem exists_mapM_ok {α β ε : Type} {f : α → Except ε β} {l : List α}
    (h : ∀ a ∈ l, ∃ b, f a = .ok b) : ∃ bs, l.mapM f = .ok bs := by
  induction l with
  | nil => exact ⟨[], rfl⟩
  | cons a rest ih =>
    obtain ⟨b, hb⟩ := h a List.mem_cons_self
    obtain ⟨bs, hbs⟩ := ih fun c hc => h c (List.mem_cons_of_mem a hc)
    refine ⟨b :: bs, ?_⟩
    rw [List.mapM_cons, hb, hbs]
    rfl

/-- Keys that are texts can be sorted, and every field sorted was there before. -/
theorem exists_sortByKey {α : Type} {fields : List (Value × α)}
    (h : ∀ field ∈ fields, field.1.isStr = true) :
    ∃ sorted, sortByKey fields = .ok sorted ∧ ∀ field ∈ sorted, field ∈ fields := by
  refine ⟨_, if_pos (List.all_eq_true.mpr h), ?_⟩
  intro field hfield
  exact List.mem_mergeSort.mp hfield

theorem exists_jsonKey {k : Value} (h : k.isStr = true) : ∃ text, jsonKey k = .ok text := by
  obtain ⟨s, rfl⟩ := isStr_iff.mp h
  exact ⟨s.toList, rfl⟩

/-- An object has a text if each of its fields has one under a key that is a text. -/
theorem exists_jsonObject {fields : List (Value × Except Fault (List Char))}
    (h : ∀ field ∈ fields, field.1.isStr = true ∧ ∃ text, field.2 = .ok text) :
    ∃ text, jsonObject fields = .ok text := by
  obtain ⟨sorted, hsorted, hmem⟩ := exists_sortByKey fun field hfield => (h field hfield).1
  have htexts : ∃ texts, sorted.mapM (fun field => do
      let key ← jsonKey field.1
      let text ← field.2
      return jsonText key ++ ':' :: text) = .ok texts := by
    refine exists_mapM_ok fun field hfield => ?_
    obtain ⟨hkey, text, htext⟩ := h field (hmem field hfield)
    obtain ⟨key, hkey⟩ := exists_jsonKey hkey
    exact ⟨_, bind_eq_ok.mpr ⟨key, hkey, bind_eq_ok.mpr ⟨text, htext, rfl⟩⟩⟩
  obtain ⟨texts, htexts⟩ := htexts
  exact ⟨_, bind_eq_ok.mpr ⟨sorted, hsorted, bind_eq_ok.mpr ⟨texts, htexts, rfl⟩⟩⟩

/-! ## Values -/

theorem exists_jsonInt {n : Int} (h : (writeInt? n).isSome = true) :
    ∃ text, jsonInt n = .ok text := by
  obtain ⟨text, htext⟩ := Option.isSome_iff_exists.mp h
  refine ⟨text, ?_⟩
  unfold jsonInt
  rw [htext]

mutual
/-- A value that can be written has a JSON text. -/
theorem exists_json (v : Value) (h : v.isWritable = true) : ∃ text, v.json = .ok text := by
  match v with
  | .int n => exact exists_jsonInt h
  | .list items =>
    obtain ⟨texts, htexts⟩ := exists_jsonItems items h
    exact ⟨_, bind_eq_ok.mpr ⟨texts, htexts, rfl⟩⟩
  | .map fields => exact exists_jsonObject (exists_jsonFields fields h)
  | .null | .bool _ | .float _ | .decimal _ | .str _ | .date _ | .datetime _ => exact ⟨_, rfl⟩
  | .bytes _ | .tuple _ | .set _ | .level _ | .foreign | .uncopyable => cases h

theorem exists_jsonItems (items : List Value) (h : itemsWritable items = true) :
    ∃ texts, jsonItems items = .ok texts := by
  match items with
  | [] => exact ⟨[], rfl⟩
  | v :: rest =>
    obtain ⟨hv, hrest⟩ := Bool.and_eq_true_iff.mp h
    obtain ⟨text, htext⟩ := exists_json v hv
    obtain ⟨texts, htexts⟩ := exists_jsonItems rest hrest
    exact ⟨_, bind_eq_ok.mpr ⟨text, htext, bind_eq_ok.mpr ⟨texts, htexts, rfl⟩⟩⟩

theorem exists_jsonFields (fields : List (Value × Value)) (h : fieldsWritable fields = true) :
    ∀ field ∈ jsonFields fields, field.1.isStr = true ∧ ∃ text, field.2 = .ok text := by
  match fields with
  | [] => exact fun field hfield => nomatch hfield
  | (k, v) :: rest =>
    obtain ⟨hfirst, hrest⟩ := Bool.and_eq_true_iff.mp h
    obtain ⟨hk, hv⟩ := Bool.and_eq_true_iff.mp hfirst
    intro field hfield
    rcases List.mem_cons.mp hfield with rfl | hfield
    · exact ⟨hk, exists_json v hv⟩
    · exact exists_jsonFields rest hrest field hfield
end

/-! ## Faults -/

mutual
/-- Whether all keys are texts, at every depth. -/
def isTextKeyed : Value → Bool
  | .list items => itemsTextKeyed items
  | .tuple items => itemsTextKeyed items
  | .map fields => fieldsTextKeyed fields
  | _ => true

def itemsTextKeyed : List Value → Bool
  | [] => true
  | v :: rest => v.isTextKeyed && itemsTextKeyed rest

def fieldsTextKeyed : List (Value × Value) → Bool
  | [] => true
  | (k, v) :: rest => k.isStr && v.isTextKeyed && fieldsTextKeyed rest
end

/-- A fault that a value without text meets: its type, or an integer that is too long. -/
def IsValueFault (f : Fault) : Prop := (∃ typeName, f = .unsupported typeName) ∨ f = .wrongValue

theorem exists_of_mapM_error {α β ε : Type} {f : α → Except ε β} {l : List α} {e : ε}
    (h : l.mapM f = .error e) : ∃ a ∈ l, f a = .error e := by
  induction l with
  | nil => cases h
  | cons a rest ih =>
    rw [List.mapM_cons] at h
    rcases bind_eq_error.mp h with ha | ⟨b, _, h⟩
    · exact ⟨a, List.mem_cons_self, ha⟩
    · rcases bind_eq_error.mp h with hrest | ⟨bs, _, h⟩
      · obtain ⟨c, hc, hfault⟩ := ih hrest
        exact ⟨c, List.mem_cons_of_mem a hc, hfault⟩
      · cases h

theorem jsonInt_fault {n : Int} {f : Fault} (h : jsonInt n = .error f) : IsValueFault f := by
  unfold jsonInt at h
  split at h
  · cases h
  · cases h
    exact Or.inr rfl

/-- Under keys that are texts only the values can be at fault. -/
theorem jsonObject_fault {fields : List (Value × Except Fault (List Char))} {f : Fault}
    (hkeys : ∀ field ∈ fields, field.1.isStr = true) (h : jsonObject fields = .error f) :
    ∃ field ∈ fields, field.2 = .error f := by
  obtain ⟨sorted, hsorted, hmem⟩ := exists_sortByKey hkeys
  rw [jsonObject, hsorted] at h
  rcases bind_eq_error.mp h with h | ⟨_, heq, h⟩
  · cases h
  cases heq
  rcases bind_eq_error.mp h with h | ⟨_, _, h⟩
  · obtain ⟨field, hfield, h⟩ := exists_of_mapM_error h
    obtain ⟨key, hkey⟩ := exists_jsonKey (hkeys field (hmem field hfield))
    dsimp only at h
    rw [hkey] at h
    rcases bind_eq_error.mp h with h | ⟨_, _, h⟩
    · cases h
    rcases bind_eq_error.mp h with h | ⟨_, _, h⟩
    · exact ⟨field, hmem field hfield, h⟩
    · cases h
  · cases h

mutual
theorem json_fault (v : Value) (hkeys : v.isTextKeyed = true) {f : Fault} (h : v.json = .error f) :
    IsValueFault f := by
  match v with
  | .int n => exact jsonInt_fault h
  | .list items | .tuple items =>
    rw [json] at h
    rcases bind_eq_error.mp h with h | ⟨_, _, h⟩
    · exact jsonItems_fault items hkeys h
    · cases h
  | .map fields =>
    obtain ⟨hstr, hvalues⟩ := jsonFields_fault fields hkeys
    obtain ⟨field, hfield, hfault⟩ := jsonObject_fault hstr h
    exact hvalues field hfield hfault
  | .null | .bool _ | .float _ | .decimal _ | .str _ | .date _ | .datetime _ => cases h
  | .bytes _ | .set _ | .level _ | .foreign | .uncopyable =>
    cases h
    exact Or.inl ⟨_, rfl⟩

theorem jsonItems_fault (items : List Value) (hkeys : itemsTextKeyed items = true) {f : Fault}
    (h : jsonItems items = .error f) : IsValueFault f := by
  match items with
  | [] => cases h
  | v :: rest =>
    obtain ⟨hv, hrest⟩ := Bool.and_eq_true_iff.mp hkeys
    rw [jsonItems] at h
    rcases bind_eq_error.mp h with h | ⟨_, _, h⟩
    · exact json_fault v hv h
    rcases bind_eq_error.mp h with h | ⟨_, _, h⟩
    · exact jsonItems_fault rest hrest h
    · cases h

theorem jsonFields_fault (fields : List (Value × Value)) (hkeys : fieldsTextKeyed fields = true) :
    (∀ field ∈ jsonFields fields, field.1.isStr = true) ∧
      ∀ field ∈ jsonFields fields, ∀ {f : Fault}, field.2 = .error f → IsValueFault f := by
  match fields with
  | [] => exact ⟨List.forall_mem_nil _, List.forall_mem_nil _⟩
  | (k, v) :: rest =>
    obtain ⟨hfirst, hrest⟩ := Bool.and_eq_true_iff.mp hkeys
    obtain ⟨hk, hv⟩ := Bool.and_eq_true_iff.mp hfirst
    obtain ⟨hstr, hvalues⟩ := jsonFields_fault rest hrest
    refine ⟨List.forall_mem_cons.mpr ⟨hk, hstr⟩, List.forall_mem_cons.mpr ⟨?_, hvalues⟩⟩
    exact fun h => json_fault v hv h
end

end ConsentGate.Value
