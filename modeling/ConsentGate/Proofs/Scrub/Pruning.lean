import ConsentGate.Proofs.Calendar.Ordinals
import ConsentGate.Proofs.Scrub.Whole
import Mathlib.Data.List.Forall2

/-! What is left of a value is a pruning of it.

`Pruned` relates a value to what scrubbing may leave of it: maps lose fields and lists lose items, and
nothing is added, moved or renamed; each leaf stays as it is, loses its day, or takes a token with it.
The relation says nothing of paths, trails or faults. Whatever the scrubber keeps is pruned
(`scrubFields_pruned`), at every depth and under every rules. -/
namespace ConsentGate.Scrub
open ConsentGate.Field Text
set_option autoImplicit false
-- Parts of a text are found as the core library does it, also where Mathlib knows another way.
attribute [local instance (high)] List.instDecidableIsInfixOfDecidableEq

/-! ## The relation -/

/-- What decides about a value: the rules and the level, how tokens are made, and which texts may stay
as they are. -/
structure Policy where
  hasher : Hasher
  rules : Rules
  level : Level
  safe : String → Prop

mutual
/-- `Pruned p name v w`: under the key `name`, `w` is left of `v`. -/
inductive Pruned (p : Policy) : List Char → Value → Value → Prop
  | verbatim {name : List Char} {v : Value} (scalar : v.isScalar = true)
      (safe : ∀ text, v = .str text → p.safe text) : Pruned p name v v
  /-- A date under a date-like key loses its day at the strict level. -/
  | generalized {name : List Char} {path : String} {v w : Value} (strict : p.level = .strict)
      (dateKey : p.rules.isDateKey name = true) (coarser : v.generalizeDate path = .ok w) :
      Pruned p name v w
  | map {name : List Char} {fields kept : Fields} (fieldsPruned : PrunedFields p fields kept) :
      Pruned p name (.map fields) (.map kept)
  | list {name : List Char} {items kept : List Value} (itemsPruned : PrunedItems p name items kept) :
      Pruned p name (.list items) (.list kept)

/-- The items left of a list stand under the key of the list. -/
inductive PrunedItems (p : Policy) : List Char → List Value → List Value → Prop
  | nil {name : List Char} : PrunedItems p name [] []
  | drop {name : List Char} {v : Value} {items kept : List Value}
      (rest : PrunedItems p name items kept) : PrunedItems p name (v :: items) kept
  | keep {name : List Char} {v w : Value} {items kept : List Value} (item : Pruned p name v w)
      (rest : PrunedItems p name items kept) : PrunedItems p name (v :: items) (w :: kept)

/-- The value left under a key that no level strips: a token of the whole value, if the key is personal
and the level moderate, or else the value pruned. -/
inductive PrunedField (p : Policy) : Value → Value → Value → Prop
  | token {key v w : Value} {name : List Char} (plain : key.plain = .ok name)
      (notStripped : (p.rules.classify name).isStripped = false)
      (personal : (p.rules.classify name).isPersonal = true) (moderate : p.level = .moderate)
      (token : p.hasher.tokenize v = .ok w) : PrunedField p key v w
  | value {key v w : Value} {name : List Char} (plain : key.plain = .ok name)
      (notStripped : (p.rules.classify name).isStripped = false)
      (minimal : (p.rules.classify name).isPersonal = true → p.level = .minimal)
      (pruned : Pruned p name v w) : PrunedField p key v w

/-- The fields left of a map keep their keys and their order. -/
inductive PrunedFields (p : Policy) : Fields → Fields → Prop
  | nil : PrunedFields p [] []
  | drop {key v : Value} {fields kept : Fields} (rest : PrunedFields p fields kept) :
      PrunedFields p ((key, v) :: fields) kept
  | keep {key v w : Value} {fields kept : Fields} (field : PrunedField p key v w)
      (rest : PrunedFields p fields kept) :
      PrunedFields p ((key, v) :: fields) ((key, w) :: kept)
end

variable {p : Policy} {name : List Char} {v w key : Value}

/-! ## What is left with parts -/

/-- A map is left of a map. -/
theorem Pruned.of_map {kept : Fields} (h : Pruned p name v (.map kept)) :
    ∃ fields, v = .map fields ∧ PrunedFields p fields kept := by
  cases h with
  | verbatim scalar _ => cases scalar
  | generalized _ _ coarser => cases isScalar_of_generalizeDate coarser
  | map fieldsPruned => exact ⟨_, rfl, fieldsPruned⟩

/-- A list is left of a list. -/
theorem Pruned.of_list {kept : List Value} (h : Pruned p name v (.list kept)) :
    ∃ items, v = .list items ∧ PrunedItems p name items kept := by
  cases h with
  | verbatim scalar _ => cases scalar
  | generalized _ _ coarser => cases isScalar_of_generalizeDate coarser
  | list itemsPruned => exact ⟨_, rfl, itemsPruned⟩

/-- Nothing else with parts is left. -/
theorem Pruned.isScalar_or (h : Pruned p name v w) :
    w.isScalar = true ∨ (∃ kept, w = .map kept) ∨ ∃ kept, w = .list kept := by
  cases h with
  | verbatim scalar _ => exact Or.inl scalar
  | generalized _ _ coarser => exact Or.inl (isScalar_of_generalizeDate coarser)
  | map _ => exact Or.inr (Or.inl ⟨_, rfl⟩)
  | list _ => exact Or.inr (Or.inr ⟨_, rfl⟩)

/-! ## Sublists -/

theorem exists_of_mem_sublistForall₂ {α β : Type} {R : α → β → Prop} {l : List α} {m : List β}
    (h : List.SublistForall₂ R l m) {a : α} (hmem : a ∈ l) : ∃ b ∈ m, R a b := by
  induction h with
  | nil => cases hmem
  | cons hR _ ih =>
    rcases List.mem_cons.mp hmem with rfl | hmem
    · exact ⟨_, List.mem_cons_self, hR⟩
    · obtain ⟨b, hb, hR⟩ := ih hmem
      exact ⟨b, List.mem_cons_of_mem _ hb, hR⟩
  | cons_right _ ih =>
    obtain ⟨b, hb, hR⟩ := ih hmem
    exact ⟨b, List.mem_cons_of_mem _ hb, hR⟩

/-- The items left come, in their order, from a sublist of the items. -/
theorem PrunedItems.sublist {items kept : List Value} (h : PrunedItems p name items kept) :
    List.SublistForall₂ (fun w v => Pruned p name v w) kept items := by
  induction items generalizing kept with
  | nil =>
    cases h
    exact .nil
  | cons v items ih =>
    cases h with
    | drop rest => exact .cons_right (ih rest)
    | keep item rest => exact .cons item (ih rest)

/-- The fields left come, in their order and with their keys, from a sublist of the fields. -/
theorem PrunedFields.sublist {fields kept : Fields} (h : PrunedFields p fields kept) :
    List.SublistForall₂ (fun w v => w.1 = v.1 ∧ PrunedField p v.1 v.2 w.2) kept fields := by
  induction fields generalizing kept with
  | nil =>
    cases h
    exact .nil
  | cons field fields ih =>
    cases h with
    | drop rest => exact .cons_right (ih rest)
    | keep field rest => exact .cons ⟨rfl, field⟩ (ih rest)

theorem PrunedItems.exists_of_mem {items kept : List Value} (h : PrunedItems p name items kept)
    (hmem : w ∈ kept) : ∃ v ∈ items, Pruned p name v w :=
  exists_of_mem_sublistForall₂ h.sublist hmem

theorem PrunedFields.exists_of_mem {fields kept : Fields} (h : PrunedFields p fields kept)
    (hmem : (key, w) ∈ kept) : ∃ v, (key, v) ∈ fields ∧ PrunedField p key v w := by
  obtain ⟨⟨k, v⟩, hv, hkey, hpruned⟩ := exists_of_mem_sublistForall₂ h.sublist hmem
  cases hkey
  exact ⟨v, hv, hpruned⟩

/-! ## What the scrubber keeps -/

variable {c : Context} {safe : String → Prop}

/-- A leaf that the scrubber keeps is pruned. -/
theorem scrubLeaf_pruned (hsafe : ∀ text, c.isUnsafeText text = false → safe text)
    {path : String} (hleaf : IsLeaf v)
    (h : (scrubLeaf c name path v).result = .ok (some w)) :
    Pruned ⟨c.hasher, c.rules, c.level, safe⟩ name v w := by
  obtain ⟨hchecked, hscalar, ⟨hsame, _⟩ | ⟨hlevel, hkey, _, hcoarser⟩⟩ := scrubLeaf_eq_some hleaf h
  · rw [hsame]
    refine .verbatim hscalar fun text htext => hsafe text ?_
    rw [htext] at hchecked
    exact hchecked
  · exact .generalized hlevel hkey hcoarser

-- The cases follow the scrubber's own recursion: a map hands over to its fields, a list to its items,
-- and every other value is a leaf.
mutual
theorem scrubValue_pruned (hsafe : ∀ text, c.isUnsafeText text = false → safe text)
    (name : List Char) (path : String) (v : Value) {w : Value}
    (h : (scrubValue c name path v).result = .ok (some w)) :
    Pruned ⟨c.hasher, c.rules, c.level, safe⟩ name v w := by
  match v with
  | .map fields =>
    obtain ⟨kept, hkept, rfl⟩ := scrubValue_map_eq_some h
    exact .map (scrubFields_pruned hsafe path fields hkept)
  | .list items =>
    obtain ⟨kept, hkept, rfl⟩ := scrubValue_list_eq_some h
    exact .list (scrubItems_pruned hsafe name path 0 items hkept)
  | .null | .bool _ | .int _ | .float _ | .decimal _ | .str _ | .date _ | .datetime _ | .bytes _
  | .tuple _ | .set _ | .level _ | .foreign | .uncopyable =>
    exact scrubLeaf_pruned hsafe ⟨nofun, nofun⟩ h

theorem scrubItems_pruned (hsafe : ∀ text, c.isUnsafeText text = false → safe text)
    (name : List Char) (path : String) (i : Nat) (items : List Value) {kept : List Value}
    (h : (scrubItems c name path i items).result = .ok kept) :
    PrunedItems ⟨c.hasher, c.rules, c.level, safe⟩ name items kept := by
  match items with
  | [] =>
    cases h
    exact .nil
  | v :: rest =>
    obtain ⟨first, others, hfirst, hothers, rfl⟩ := scrubItems_cons_eq_ok h
    have hrest := scrubItems_pruned hsafe name path (i + 1) rest hothers
    cases first with
    | none => exact .drop hrest
    | some w => exact .keep (scrubValue_pruned hsafe name (Value.itemPath path i) v hfirst) hrest

theorem scrubFields_pruned (hsafe : ∀ text, c.isUnsafeText text = false → safe text)
    (path : String) (fields : List (Value × Value)) {kept : Fields}
    (h : (scrubFields c path fields).result = .ok kept) :
    PrunedFields ⟨c.hasher, c.rules, c.level, safe⟩ fields kept := by
  match fields with
  | [] =>
    cases h
    exact .nil
  | (key, v) :: rest =>
    obtain ⟨name, others, hname, hothers, hkept⟩ := scrubFields_cons_eq_ok h
    have hrest := scrubFields_pruned hsafe path rest hothers
    rcases hkept with rfl | ⟨w, hw, rfl⟩
    · exact .drop hrest
    · refine .keep ?_ hrest
      obtain ⟨hstripped, ⟨hpersonal, hlevel, _, htoken⟩ | ⟨hminimal, hvalue⟩⟩ :=
        scrubField_eq_some hw
      · exact .token hname hstripped hpersonal hlevel htoken
      · exact .value hname hstripped hminimal
          (scrubValue_pruned hsafe name (Value.fieldPath path (String.ofList name)) v hvalue)
end

/-! ## What the scrubber keeps of an entity -/

/-- A text contains an identifier, without the blanks around it and whatever the case. -/
def Mentions (text raw : String) : Prop := caseFold (trim raw.toList) <:+: caseFold text.toList

/-- A text names neither the entity nor its tenant; and it carries no credential, if those are
searched for. -/
structure Scrubber.SafeText (s : Scrubber) (e : Entity) (text : String) : Prop where
  namesNobody : ∀ raw, e.id = .str raw ∨ e.tenantId = .str raw → allBlank raw.toList = false →
    ¬Mentions text raw
  noCredential : s.scanValues = true → Credential.isPresentBy s.detect text.toList = false

/-- What decides about the values of an entity at a level. -/
def Scrubber.policy (s : Scrubber) (e : Entity) (l : Level) : Policy :=
  ⟨s.hasher, s.rules, l, s.SafeText e⟩

variable {s : Scrubber} {e : Entity} {entityType : Value} {l : Level} {out : Scrubbed}

/-- The identifiers that are texts and not blank are forbidden. -/
theorem mem_forbiddenTexts {raw : String} (h : e.id = .str raw ∨ e.tenantId = .str raw)
    (hblank : allBlank raw.toList = false) : caseFold (trim raw.toList) ∈ forbiddenTexts e := by
  unfold forbiddenTexts
  refine List.mem_filterMap.mpr ⟨.str raw, ?_, ?_⟩
  · rcases h with hid | htenant
    · rw [← hid]
      exact List.mem_cons_self
    · rw [← htenant]
      exact List.mem_cons_of_mem _ List.mem_cons_self
  · simp only [Value.str?, Option.bind_some, forbiddenText, hblank, Bool.false_eq_true, if_false]

theorem not_mentions_of_referencesIdentity {typeText text raw : String}
    (h : (s.context e typeText l).referencesIdentity text = false)
    (hraw : e.id = .str raw ∨ e.tenantId = .str raw) (hblank : allBlank raw.toList = false) :
    ¬Mentions text raw := by
  intro hmentions
  have hforbidden := List.any_eq_false.mp h _ (mem_forbiddenTexts hraw hblank)
  exact hforbidden (decide_eq_true hmentions)

theorem safeText_of_isUnsafeText {typeText text : String}
    (h : (s.context e typeText l).isUnsafeText text = false) : s.SafeText e text := by
  unfold Context.isUnsafeText at h
  obtain ⟨hidentity, hcredential⟩ := Bool.or_eq_false_iff.mp h
  refine ⟨fun raw hraw hblank => not_mentions_of_referencesIdentity hidentity hraw hblank, ?_⟩
  intro hscan
  have hcredential : (s.scanValues && Credential.isPresentBy s.detect text.toList) = false :=
    hcredential
  rwa [hscan, Bool.true_and] at hcredential

theorem isProvenanceKey_of_mem_ownFields {v key w : Value} (h : (key, w) ∈ ownFields v) :
    isProvenanceKey key = false := by
  unfold ownFields at h
  split at h
  · simpa using (List.mem_filter.mp h).2
  · cases h

theorem Whole.properties_pruned (w : Whole s e entityType l out) :
    PrunedFields (s.policy e l) w.properties w.keptProperties :=
  scrubFields_pruned (fun _ => safeText_of_isUnsafeText) "properties" _ w.scrubProperties

theorem Whole.metadata_pruned (w : Whole s e entityType l out) :
    PrunedFields (s.policy e l) (ownFields e.metadata) w.keptMetadata :=
  scrubFields_pruned (fun _ => safeText_of_isUnsafeText) "metadata" _ w.scrubMetadata

/-- Whatever keys an entity brings along, those that tell how it was scrubbed are not kept. -/
theorem Whole.isProvenanceKey_of_kept (w : Whole s e entityType l out) {field : Value × Value}
    (h : field ∈ w.keptMetadata) : isProvenanceKey field.1 = false := by
  obtain ⟨v, hv, _⟩ := w.metadata_pruned.exists_of_mem h
  exact isProvenanceKey_of_mem_ownFields hv

/-- The fields that tell how an entity was scrubbed stand beside the fields left of its metadata. -/
theorem Whole.ownFields_metadata (w : Whole s e entityType l out) :
    ownFields out.metadata = w.keptMetadata := by
  have hkept : ∀ field ∈ w.keptMetadata, (!isProvenanceKey field.1) = true := by
    intro field hfield
    rw [w.isProvenanceKey_of_kept hfield]
    rfl
  have hprovenance : ∀ field ∈ s.provenance entityType l w.tenantHash,
      ¬(!isProvenanceKey field.1) = true := by
    simp [Scrubber.provenance, isProvenanceKey, provenanceKeys, Value.isText]
  rw [w.outMetadata, ownFields, List.filter_append, List.filter_eq_self.mpr hkept,
    List.filter_eq_nil_iff.mpr hprovenance, List.append_nil]

/-- The properties of a scrubbed entity, and its metadata except for what tells how it was scrubbed,
are a pruning of the entity's own: nothing is invented, renamed or moved, and every text that stays as
it was is safe. -/
theorem scrub_pruned (h : (s.scrub (some e) entityType (.level l)).1 = .ok out) :
    (∃ fields kept, e.properties = .map fields ∧ out.properties = .map kept ∧
        PrunedFields (s.policy e l) fields kept) ∧
      (∃ all, out.metadata = .map all) ∧
      PrunedFields (s.policy e l) (ownFields e.metadata) (ownFields out.metadata) := by
  obtain ⟨w⟩ := exists_whole h
  refine ⟨⟨w.properties, w.keptProperties, w.propertiesAre, w.outProperties, w.properties_pruned⟩,
    ⟨_, w.outMetadata⟩, ?_⟩
  rw [w.ownFields_metadata]
  exact w.metadata_pruned

/-! ## A sample -/

/-- A scrubber with few rules. -/
def sampleScrubber : Scrubber where
  hasher := ⟨[115, 97, 108, 116], 32, by decide⟩
  rules := Tables.rules { standardTables with
    alwaysRemove := ["ssn"]
    personal := [(.contact, ["e_?mail"])] }
  scanValues := true
  detect := Credential.scanLine
  clock := ⟨⟨2024, 3, 20, by decide⟩, Calendar.midnight, some Calendar.utc⟩

/-- An entity with a field that is stripped, a personal one, and a list that names the tenant. -/
def sampleEntity : Entity where
  id := .str "n-1"
  type := .str "Note"
  properties := .map [(.str "ssn", .int 1), (.str "email", .str "ann@example.org"),
    (.str "visits", .list [.int 1, .str "at ACME", .int 2])]
  metadata := .null
  tenantId := .str "acme"
  version := .str "1.0"
  source := .str "crm.notes"
  createdAt := .datetime ⟨⟨2024, 3, 14, Calendar.validDate_march⟩, Calendar.midnight, some Calendar.utc⟩
  updatedAt := .datetime ⟨⟨2024, 3, 14, Calendar.validDate_march⟩, Calendar.midnight, some Calendar.utc⟩
  createdBy := .null
  updatedBy := .null
  isDeleted := .bool false
  deletedAt := .null
  deletedBy := .null

/-- What the scrubber makes of the sample at the moderate level. -/
def sampleResult : Except Fault Scrubbed :=
  (sampleScrubber.scrub (some sampleEntity) (.str "Note") (.level .moderate)).1

theorem sampleResult_isOk : sampleResult.isOk = true := by decide +kernel

theorem scrub_pruned_sample :
    ∃ out, sampleResult = .ok out ∧
      (∃ fields kept, sampleEntity.properties = .map fields ∧ out.properties = .map kept ∧
        PrunedFields (sampleScrubber.policy sampleEntity .moderate) fields kept) ∧
      (∃ all, out.metadata = .map all) ∧
      PrunedFields (sampleScrubber.policy sampleEntity .moderate)
        (ownFields sampleEntity.metadata) (ownFields out.metadata) := by
  obtain ⟨out, hout⟩ := exists_eq_ok sampleResult_isOk
  exact ⟨out, hout, scrub_pruned hout⟩

end ConsentGate.Scrub
