import ConsentGate.Proofs.Number.Numerals
import ConsentGate.Proofs.Value.Writing
import Mathlib.Data.List.Nodup
import Mathlib.Logic.Relation

/-! What the JSON text of a value keeps of it.

The image of a value is what its text stands for: dates, timestamps and decimals are texts there, and
the fields of each map stand in the order of their keys. Nothing else is lost: the images of two values
are equal exactly when the values, written with texts, differ in the order of fields only. -/
namespace ConsentGate.Value
open Number
set_option autoImplicit false

/-! ## Images -/

mutual
/-- The value with dates, timestamps and decimals as texts, at every depth. -/
def written : Value → Value
  | .decimal d => .str (String.ofList d.text)
  | .date d => .str (String.ofList d.isoText)
  | .datetime t => .str (String.ofList t.isoText)
  | .list items => .list (itemsWritten items)
  | .map fields => .map (fieldsWritten fields)
  | v => v

def itemsWritten : List Value → List Value
  | [] => []
  | v :: rest => v.written :: itemsWritten rest

def fieldsWritten : List (Value × Value) → List (Value × Value)
  | [] => []
  | (k, v) :: rest => (k, v.written) :: fieldsWritten rest
end

/-- The fields in the order of their keys. -/
def byKey {α : Type} (fields : List (Value × α)) : List (Value × α) :=
  fields.mergeSort fun a b => decide (¬ b.1.textD < a.1.textD)

mutual
/-- The value with the fields of each map in the order of their keys. -/
def arranged : Value → Value
  | .list items => .list (itemsArranged items)
  | .map fields => .map (byKey (fieldsArranged fields))
  | v => v

def itemsArranged : List Value → List Value
  | [] => []
  | v :: rest => v.arranged :: itemsArranged rest

def fieldsArranged : List (Value × Value) → List (Value × Value)
  | [] => []
  | (k, v) :: rest => (k, v.arranged) :: fieldsArranged rest
end

def image (v : Value) : Value := v.written.arranged

/-- One step of reordering: the fields of one map change places, at any depth. -/
inductive Reorders : Value → Value → Prop
  | fields {before after : Fields} (perm : before.Perm after) : Reorders (.map before) (.map after)
  | item {before after : List Value} {v w : Value} (inside : Reorders v w) :
      Reorders (.list (before ++ v :: after)) (.list (before ++ w :: after))
  | field {before after : Fields} {k v w : Value} (inside : Reorders v w) :
      Reorders (.map (before ++ (k, v) :: after)) (.map (before ++ (k, w) :: after))

/-- Values that differ in the order of fields only. -/
def Reordered : Value → Value → Prop := Relation.ReflTransGen Reorders

/-! ## Regular values -/

mutual
/-- What is asked of a supported value besides its kind: an integer is short enough to be written, a
floating-point number comes back from its text, and no two fields of a map have the same key. -/
def Regular : Value → Prop
  | .int n => (Nat.toDigits 10 n.natAbs).length ≤ digitLimit
  | .float x => jsonFloat.read? (jsonFloat.text x) = some x
  | .list items => ItemsRegular items
  | .map fields => (fields.map (·.1)).Nodup ∧ FieldsRegular fields
  | _ => True

def ItemsRegular : List Value → Prop
  | [] => True
  | v :: rest => v.Regular ∧ ItemsRegular rest

def FieldsRegular : List (Value × Value) → Prop
  | [] => True
  | (_, v) :: rest => v.Regular ∧ FieldsRegular rest
end

section Lists

variable {items : List Value} {fields : List (Value × Value)}

theorem itemsWritten_eq_map : itemsWritten items = items.map written := by
  induction items with
  | nil => rfl
  | cons v rest ih => rw [itemsWritten, ih, List.map_cons]

theorem fieldsWritten_eq_map : fieldsWritten fields = fields.map fun f => (f.1, f.2.written) := by
  induction fields with
  | nil => rfl
  | cons f rest ih => rw [fieldsWritten, ih, List.map_cons]

theorem itemsArranged_eq_map : itemsArranged items = items.map arranged := by
  induction items with
  | nil => rfl
  | cons v rest ih => rw [itemsArranged, ih, List.map_cons]

theorem fieldsArranged_eq_map : fieldsArranged fields = fields.map fun f => (f.1, f.2.arranged) := by
  induction fields with
  | nil => rfl
  | cons f rest ih => rw [fieldsArranged, ih, List.map_cons]

theorem jsonFields_eq_map : jsonFields fields = fields.map fun f => (f.1, f.2.json) := by
  induction fields with
  | nil => rfl
  | cons f rest ih => rw [jsonFields, ih, List.map_cons]

end Lists

theorem image_list (items : List Value) : (Value.list items).image = .list (items.map image) := by
  simp only [image, written, arranged, itemsWritten_eq_map, itemsArranged_eq_map, List.map_map]
  rfl

theorem byKey_map {α β : Type} (f : α → β) (fields : List (Value × α)) :
    byKey (fields.map fun field => (field.1, f field.2)) =
      (byKey fields).map fun field => (field.1, f field.2) := by
  symm
  exact List.map_mergeSort fun a _ b _ => rfl

theorem image_map (fields : Fields) :
    (Value.map fields).image = .map ((byKey fields).map fun f => (f.1, f.2.image)) := by
  have hkeys := byKey_map image fields
  simp only [image, written, arranged, fieldsWritten_eq_map, fieldsArranged_eq_map, List.map_map]
  exact congrArg Value.map hkeys

/-! ## Faithful values -/

/-- A value with a text that tells all of it: it can be written, and what is written can be read. -/
structure Faithful (v : Value) : Prop where
  writable : v.isWritable = true
  regular : v.Regular

theorem itemsFaithful_iff {items : List Value} :
    itemsWritable items = true ∧ ItemsRegular items ↔ ∀ v ∈ items, v.Faithful := by
  induction items with
  | nil => simp [itemsWritable, ItemsRegular]
  | cons v rest ih =>
    rw [List.forall_mem_cons, ← ih, itemsWritable, ItemsRegular, Bool.and_eq_true]
    constructor
    · rintro ⟨⟨hv, hrest⟩, hregular, hothers⟩
      exact ⟨⟨hv, hregular⟩, hrest, hothers⟩
    · rintro ⟨⟨hv, hregular⟩, hrest, hothers⟩
      exact ⟨⟨hv, hrest⟩, hregular, hothers⟩

theorem fieldsFaithful_iff {fields : Fields} :
    fieldsWritable fields = true ∧ FieldsRegular fields ↔
      ∀ f ∈ fields, f.1.isStr = true ∧ f.2.Faithful := by
  induction fields with
  | nil => simp [fieldsWritable, FieldsRegular]
  | cons f rest ih =>
    rw [List.forall_mem_cons, ← ih, fieldsWritable, FieldsRegular, Bool.and_eq_true, Bool.and_eq_true]
    constructor
    · rintro ⟨⟨⟨hk, hv⟩, hrest⟩, hregular, hothers⟩
      exact ⟨⟨hk, hv, hregular⟩, hrest, hothers⟩
    · rintro ⟨⟨hk, hv, hregular⟩, hrest, hothers⟩
      exact ⟨⟨⟨hk, hv⟩, hrest⟩, hregular, hothers⟩

theorem faithful_list {items : List Value} :
    (Value.list items).Faithful ↔ ∀ v ∈ items, v.Faithful := by
  rw [← itemsFaithful_iff]
  constructor
  · intro h
    exact ⟨h.writable, h.regular⟩
  · rintro ⟨hwritable, hregular⟩
    exact ⟨hwritable, hregular⟩

theorem faithful_map {fields : Fields} :
    (Value.map fields).Faithful ↔
      (fields.map (·.1)).Nodup ∧ ∀ f ∈ fields, f.1.isStr = true ∧ f.2.Faithful := by
  rw [← fieldsFaithful_iff]
  constructor
  · intro h
    exact ⟨h.regular.1, h.writable, h.regular.2⟩
  · rintro ⟨hkeys, hwritable, hregular⟩
    exact ⟨hwritable, hkeys, hregular⟩

mutual
theorem isWritable_of_check (v : Value) (path : String) (h : v.check path = .ok ())
    (hv : v.Regular) : v.isWritable = true := by
  match v with
  | .int n =>
    have hshort : ¬digitLimit < (Nat.toDigits 10 n.natAbs).length := Nat.not_lt.mpr hv
    simp only [isWritable, writeInt?, gt_iff_lt, if_neg hshort, Option.isSome_some]
  | .list items => exact itemsWritable_of_check items path 0 h hv
  | .map fields => exact fieldsWritable_of_check fields path h hv.2
  | .null | .bool _ | .float _ | .decimal _ | .str _ | .date _ | .datetime _ => rfl
  | .bytes _ | .tuple _ | .set _ | .level _ | .foreign | .uncopyable => cases h

theorem itemsWritable_of_check (items : List Value) (path : String) (i : Nat)
    (h : checkItems path i items = .ok ()) (hitems : ItemsRegular items) :
    itemsWritable items = true := by
  match items with
  | [] => rfl
  | v :: rest =>
    obtain ⟨_, hv, hrest⟩ := bind_eq_ok.mp h
    exact Bool.and_eq_true_iff.mpr ⟨isWritable_of_check v _ hv hitems.1,
      itemsWritable_of_check rest path _ hrest hitems.2⟩

theorem fieldsWritable_of_check (fields : List (Value × Value)) (path : String)
    (h : checkFields path fields = .ok ()) (hfields : FieldsRegular fields) :
    fieldsWritable fields = true := by
  match fields with
  | [] => rfl
  | (k, v) :: rest =>
    cases k with
    | str key =>
      obtain ⟨_, hv, hrest⟩ := bind_eq_ok.mp h
      have hvalue := isWritable_of_check v _ hv hfields.1
      have hothers := fieldsWritable_of_check rest path hrest hfields.2
      simp only [fieldsWritable, isStr, str?, Option.isSome_some, hvalue, hothers, Bool.and_self]
    | _ => cases h
end

/-- A supported value is faithful. -/
theorem faithful_of_check {v : Value} {path : String} (h : v.check path = .ok ()) (hv : v.Regular) :
    v.Faithful :=
  ⟨isWritable_of_check v path h hv, hv⟩

/-! ## The order of keys -/

theorem isStr_textD {k : Value} (h : k.isStr = true) : k = .str k.textD := by
  obtain ⟨s, rfl⟩ := isStr_iff.mp h
  rfl

theorem pairwise_byKey {α : Type} (fields : List (Value × α)) :
    (byKey fields).Pairwise fun a b => ¬ b.1.textD < a.1.textD := by
  have hsorted : (byKey fields).Pairwise fun a b => decide (¬ b.1.textD < a.1.textD) = true := by
    refine List.pairwise_mergeSort ?_ ?_ fields
    · intro a b c hab hbc
      simp only [decide_eq_true_eq, String.not_lt] at hab hbc ⊢
      exact String.le_trans hab hbc
    · intro a b
      simp only [Bool.or_eq_true, decide_eq_true_eq, String.not_lt]
      exact String.le_total _ _
  exact hsorted.imp fun hab => of_decide_eq_true hab

theorem byKey_perm {α : Type} (fields : List (Value × α)) : (byKey fields).Perm fields :=
  List.mergeSort_perm fields _

/-- Fields with different keys have one order only. -/
theorem byKey_eq_of_perm {α : Type} {before after : List (Value × α)} (h : before.Perm after)
    (hkeys : (before.map (·.1)).Nodup) (htext : ∀ f ∈ before, f.1.isStr = true) :
    byKey before = byKey after := by
  have hperm : (byKey before).Perm (byKey after) :=
    (byKey_perm before).trans (h.trans (byKey_perm after).symm)
  refine hperm.eq_of_pairwise ?_ (pairwise_byKey before) (pairwise_byKey after)
  intro f g hf hg hfg hgf
  have hf := (byKey_perm before).mem_iff.mp hf
  have hg := h.mem_iff.mpr ((byKey_perm after).mem_iff.mp hg)
  -- Two fields may change places only if neither key is less than the other.
  have htextD : f.1.textD = g.1.textD :=
    String.le_antisymm (String.not_lt.mp hfg) (String.not_lt.mp hgf)
  have hkey : f.1 = g.1 := by
    rw [isStr_textD (htext f hf), isStr_textD (htext g hg), htextD]
  exact List.inj_on_of_nodup_map hkeys hf hg hkey

theorem sortByKey_jsonFields {fields : Fields} (htext : ∀ f ∈ fields, f.1.isStr = true) :
    sortByKey (jsonFields fields) = .ok ((byKey fields).map fun f => (f.1, f.2.json)) := by
  rw [jsonFields_eq_map, ← byKey_map, sortByKey]
  refine if_pos (List.all_eq_true.mpr ?_)
  intro f hf
  obtain ⟨g, hg, rfl⟩ := List.mem_map.mp hf
  exact htext g hg

theorem byKey_byKey {α : Type} (fields : List (Value × α)) : byKey (byKey fields) = byKey fields :=
  List.mergeSort_of_pairwise ((pairwise_byKey fields).imp fun h => decide_eq_true h)

/-! ## Reordering -/

section Reordering

variable {v w : Value}

theorem Reorders.faithful (h : Reorders v w) (hv : v.Faithful) : w.Faithful := by
  induction h with
  | fields perm =>
    rw [faithful_map] at hv ⊢
    exact ⟨(perm.map _).nodup_iff.mp hv.1, fun f hf => hv.2 f (perm.mem_iff.mpr hf)⟩
  | item inside ih =>
    rw [faithful_list, List.forall_mem_append, List.forall_mem_cons] at hv ⊢
    exact ⟨hv.1, ih hv.2.1, hv.2.2⟩
  | field inside ih =>
    rw [faithful_map, List.forall_mem_append, List.forall_mem_cons] at hv ⊢
    obtain ⟨hkeys, hbefore, ⟨hk, hinside⟩, hafter⟩ := hv
    exact ⟨by simpa using hkeys, hbefore, ⟨hk, ih hinside⟩, hafter⟩

theorem Reorders.image_eq (h : Reorders v w) (hv : v.Faithful) : w.image = v.image := by
  induction h with
  | fields perm =>
    obtain ⟨hkeys, hfields⟩ := faithful_map.mp hv
    rw [image_map, image_map, byKey_eq_of_perm perm hkeys fun f hf => (hfields f hf).1]
  | item inside ih =>
    rw [faithful_list, List.forall_mem_append, List.forall_mem_cons] at hv
    rw [image_list, image_list, List.map_append, List.map_append, List.map_cons, List.map_cons,
      ih hv.2.1]
  | field inside ih =>
    rw [faithful_map, List.forall_mem_append, List.forall_mem_cons] at hv
    rw [image_map, image_map, ← byKey_map, ← byKey_map, List.map_append, List.map_append,
      List.map_cons, List.map_cons, ih hv.2.2.1.2]

theorem Reordered.image_eq (h : Reordered v w) (hv : v.Faithful) : w.Faithful ∧ w.image = v.image := by
  induction h with
  | refl => exact ⟨hv, rfl⟩
  | tail _ step ih =>
    obtain ⟨hfaithful, himage⟩ := ih
    exact ⟨step.faithful hfaithful, (step.image_eq hfaithful).trans himage⟩

theorem Reordered.item {before after : List Value} (h : Reordered v w) :
    Reordered (.list (before ++ v :: after)) (.list (before ++ w :: after)) := by
  induction h with
  | refl => exact .refl
  | tail _ step ih => exact .tail ih (.item step)

theorem Reordered.field {before after : Fields} {k : Value} (h : Reordered v w) :
    Reordered (.map (before ++ (k, v) :: after)) (.map (before ++ (k, w) :: after)) := by
  induction h with
  | refl => exact .refl
  | tail _ step ih => exact .tail ih (.field step)

end Reordering

mutual
/-- Arranging changes the order of fields only. -/
theorem reordered_arranged (v : Value) : Reordered v v.arranged := by
  match v with
  | .list items => exact reordered_itemsArranged items []
  | .map fields =>
    have hsorted : Reorders (.map (fieldsArranged fields)) (.map (byKey (fieldsArranged fields))) :=
      .fields (byKey_perm _).symm
    exact Relation.ReflTransGen.tail (reordered_fieldsArranged fields []) hsorted
  | .null | .bool _ | .int _ | .float _ | .decimal _ | .str _ | .date _ | .datetime _
  | .bytes _ | .tuple _ | .set _ | .level _ | .foreign | .uncopyable => exact .refl

-- The items before are arranged already; a step of reordering has to say what stands around it.
theorem reordered_itemsArranged (items before : List Value) :
    Reordered (.list (before ++ items)) (.list (before ++ itemsArranged items)) := by
  match items with
  | [] => exact .refl
  | v :: rest =>
    have hrest := reordered_itemsArranged rest (before ++ [v.arranged])
    rw [List.append_assoc, List.append_assoc] at hrest
    exact Relation.ReflTransGen.trans (reordered_arranged v).item hrest

theorem reordered_fieldsArranged (fields before : List (Value × Value)) :
    Reordered (.map (before ++ fields)) (.map (before ++ fieldsArranged fields)) := by
  match fields with
  | [] => exact .refl
  | (k, v) :: rest =>
    have hrest := reordered_fieldsArranged rest (before ++ [(k, v.arranged)])
    rw [List.append_assoc, List.append_assoc] at hrest
    exact Relation.ReflTransGen.trans (reordered_arranged v).field hrest
end

/-! ## The image has the same text -/

theorem jsonObject_congr {fields others : List (Value × Except Fault (List Char))}
    (h : sortByKey fields = sortByKey others) : jsonObject fields = jsonObject others := by
  rw [jsonObject, jsonObject, h]

mutual
theorem json_image (v : Value) (h : v.Faithful) : v.image.json = v.json := by
  match v with
  | .list items => rw [image_list, json, json, jsonItems_image items (faithful_list.mp h)]
  | .map fields =>
    obtain ⟨_, hfields⟩ := faithful_map.mp h
    have hsorted : ∀ f ∈ byKey fields, f ∈ fields := fun f hf => (byKey_perm fields).mem_iff.mp hf
    have hjson : ((byKey fields).map fun f => (f.1, f.2.image.json)) =
        (byKey fields).map fun f => (f.1, f.2.json) := by
      refine List.map_congr_left fun f hf => ?_
      rw [fields_json_image fields (fun g hg => (hfields g hg).2) f (hsorted f hf)]
    rw [image_map, json, json]
    refine jsonObject_congr ?_
    rw [sortByKey_jsonFields fun f hf => (hfields f hf).1, sortByKey_jsonFields, byKey_map,
      byKey_byKey, List.map_map]
    · exact congrArg Except.ok hjson
    · intro f hf
      obtain ⟨g, hg, rfl⟩ := List.mem_map.mp hf
      exact (hfields g (hsorted g hg)).1
  | .decimal _ | .date _ | .datetime _ =>
    simp only [image, written, arranged, json, String.toList_ofList]
  | .null | .bool _ | .int _ | .float _ | .str _ => simp only [image, written, arranged]
  | .bytes _ | .tuple _ | .set _ | .level _ | .foreign | .uncopyable => cases h.writable

theorem jsonItems_image (items : List Value) (h : ∀ v ∈ items, v.Faithful) :
    jsonItems (items.map image) = jsonItems items := by
  match items with
  | [] => rfl
  | v :: rest =>
    obtain ⟨hv, hrest⟩ := List.forall_mem_cons.mp h
    rw [List.map_cons, jsonItems, jsonItems, json_image v hv, jsonItems_image rest hrest]

theorem fields_json_image (fields : List (Value × Value)) (h : ∀ f ∈ fields, f.2.Faithful) :
    ∀ f ∈ fields, f.2.image.json = f.2.json := by
  match fields with
  | [] => exact fun f hf => nomatch hf
  | (k, v) :: rest =>
    obtain ⟨hv, hrest⟩ := List.forall_mem_cons.mp h
    intro f hf
    rcases List.mem_cons.mp hf with rfl | hf
    · exact json_image v hv
    · exact fields_json_image rest hrest f hf
end

end ConsentGate.Value
