import ConsentGate.Proofs.Scrub.Keys

/-! Where the values of a scrubbed entity come from.

A place is told by the keys that lead to it; lists on the way are passed through, since items may get
lost from them. Whatever stands at a place of the result was made of a value at the same place of the
entity (`origin_of_scrub`), and for a value without parts there are three ways only (`Made.fate`). -/
namespace ConsentGate
open Scrub
set_option autoImplicit false

/-! ## Places -/

/-- `w` is `v` itself, or stands in it through lists only. -/
inductive Value.Within : Value → Value → Prop
  | here {v : Value} : Within v v
  | item {items : List Value} {v w : Value} (mem : v ∈ items) (inside : Within v w) :
      Within (.list items) w

/-- `v.At keys key w`: below `keys`, one inside the other, `w` stands under `key`, directly or through
lists only. -/
inductive Value.At : Value → List Value → Value → Value → Prop
  | field {fields : Fields} {key v w : Value} (mem : (key, v) ∈ fields) (within : v.Within w) :
      At (.map fields) [] key w
  | inField {fields : Fields} {k v : Value} {keys : List Value} {key w : Value}
      (mem : (k, v) ∈ fields) (inside : At v keys key w) : At (.map fields) (k :: keys) key w
  | inList {items : List Value} {v : Value} {keys : List Value} {key w : Value} (mem : v ∈ items)
      (inside : At v keys key w) : At (.list items) keys key w

theorem Value.Within.eq_of_isScalar {v w : Value} (h : v.Within w) (hv : v.isScalar = true) :
    w = v := by
  cases h with
  | here => rfl
  | item _ _ => cases hv

theorem Value.not_at_of_isScalar {v key w : Value} {keys : List Value} (hv : v.isScalar = true) :
    ¬v.At keys key w := by
  intro h
  cases h <;> cases hv

theorem Value.exists_at_of_field? {v : Value} {name : String} {p : Value → Bool}
    (h : (v.field? name).any p = true) : ∃ w, v.At [] (.str name) w ∧ p w = true := by
  cases hfield : v.field? name with
  | none =>
    rw [hfield] at h
    cases h
  | some w =>
    rw [hfield] at h
    obtain ⟨fields, rfl, hmem⟩ := Value.exists_mem_of_field? hfield
    exact ⟨w, .field hmem .here, h⟩

namespace Scrub

variable {c : Context} {name : List Char} {path : String} {key v w u : Value}

/-! ## Origins -/

theorem isScalar_of_tokenize {h : Hasher} (ht : h.tokenize v = .ok w) : w.isScalar = true := by
  rcases Hasher.tokenize_eq_ok ht with rfl | ⟨text, rfl⟩
  · rfl
  · rfl

/-- The three things that the scrubber may make of a value. -/
theorem scrubValue_eq_some (h : (scrubValue c name path v).result = .ok (some w)) :
    (∃ fields kept, v = .map fields ∧ w = .map kept ∧ (scrubFields c path fields).result = .ok kept) ∨
      (∃ items kept, v = .list items ∧ w = .list kept ∧
        (scrubItems c name path 0 items).result = .ok kept) ∨
      (IsLeaf v ∧ w.isScalar = true ∧ (scrubLeaf c name path v).result = .ok (some w)) := by
  rcases map_or_list_or_isLeaf v with ⟨fields, rfl⟩ | ⟨items, rfl⟩ | hleaf
  · obtain ⟨kept, hkept, hw⟩ := scrubValue_map_eq_some h
    exact Or.inl ⟨fields, kept, rfl, hw, hkept⟩
  · obtain ⟨kept, hkept, hw⟩ := scrubValue_list_eq_some h
    exact Or.inr (Or.inl ⟨items, kept, rfl, hw, hkept⟩)
  · rw [scrubValue_of_isLeaf hleaf] at h
    exact Or.inr (Or.inr ⟨hleaf, isScalar_of_scrubLeaf hleaf h, h⟩)

theorem mem_scrubItems {i : Nat} {items kept : List Value}
    (h : (scrubItems c name path i items).result = .ok kept) (hmem : w ∈ kept) :
    ∃ v ∈ items, ∃ path', (scrubValue c name path' v).result = .ok (some w) := by
  induction items generalizing i kept with
  | nil =>
    cases h
    cases hmem
  | cons v rest ih =>
    obtain ⟨first, others, hfirst, hothers, rfl⟩ := scrubItems_cons_eq_ok h
    rcases List.mem_append.mp hmem with hmem | hmem
    · cases first with
      | none => cases hmem
      | some x =>
        rw [List.mem_singleton.mp hmem]
        exact ⟨v, List.mem_cons_self, _, hfirst⟩
    · obtain ⟨v', hv', hkept⟩ := ih hothers hmem
      exact ⟨v', List.mem_cons_of_mem v hv', hkept⟩

/-- `Made c key v w`: the scrubber leaves `w` of `v` under the key, or makes a token of it. -/
def Made (c : Context) (key v w : Value) : Prop :=
  ∃ name, key.plain = .ok name ∧
    ((c.level = .moderate ∧ c.hasher.tokenize v = .ok w) ∨
      ∃ path, (scrubValue c name path v).result = .ok (some w))

theorem mem_scrubFields {fields kept : Fields} (h : (scrubFields c path fields).result = .ok kept)
    (hmem : (key, w) ∈ kept) : ∃ v, (key, v) ∈ fields ∧ Made c key v w := by
  induction fields generalizing kept with
  | nil =>
    cases h
    cases hmem
  | cons f rest ih =>
    obtain ⟨k, v⟩ := f
    obtain ⟨name, others, hname, hothers, hkept⟩ := scrubFields_cons_eq_ok h
    have hrest : (key, w) ∈ others → ∃ v', (key, v') ∈ (k, v) :: rest ∧ Made c key v' w := by
      intro hin
      obtain ⟨v', hv', hmade⟩ := ih hothers hin
      exact ⟨v', List.mem_cons_of_mem _ hv', hmade⟩
    rcases hkept with rfl | ⟨x, hx, rfl⟩
    · exact hrest hmem
    · rcases List.mem_cons.mp hmem with heq | hmem
      · cases heq
        refine ⟨v, List.mem_cons_self, name, hname, ?_⟩
        obtain ⟨_, ⟨_, hlevel, _, htoken⟩ | ⟨_, hvalue⟩⟩ := scrubField_eq_some hx
        · exact Or.inl ⟨hlevel, htoken⟩
        · exact Or.inr ⟨_, hvalue⟩
      · exact hrest hmem

/-- What stands inside the lists left of a value was made of something inside its lists. -/
theorem within_origin (hu : w.Within u) (h : (scrubValue c name path v).result = .ok (some w)) :
    ∃ v' path', v.Within v' ∧ (scrubValue c name path' v').result = .ok (some u) := by
  induction hu generalizing v path with
  | here => exact ⟨v, path, .here, h⟩
  | item mem _ ih =>
    rcases scrubValue_eq_some h with ⟨_, _, _, hw, _⟩ | ⟨items, kept, rfl, hw, hkept⟩ | ⟨_, hw, _⟩
    · cases hw
    · cases hw
      obtain ⟨v', hv', path', hitem⟩ := mem_scrubItems hkept mem
      obtain ⟨v'', path'', hwithin, hmade⟩ := ih hitem
      exact ⟨v'', path'', .item hv' hwithin, hmade⟩
    · cases hw

/-- What stands at a place of what is left of a value was made of something at that place of it. -/
theorem at_origin {keys : List Value} (hu : w.At keys key u)
    (h : (scrubValue c name path v).result = .ok (some w)) :
    ∃ v', v.At keys key v' ∧ Made c key v' u := by
  -- The induction is on the place in what is left. Lists change the path, and maps the name as well.
  induction hu generalizing v name path with
  | field mem within =>
    rcases scrubValue_eq_some h with ⟨fields, kept, rfl, hw, hkept⟩ | ⟨_, _, _, hw, _⟩ | ⟨_, hw, _⟩
    · cases hw
      obtain ⟨v', hv', name', hname, ⟨hlevel, htoken⟩ | ⟨path', hvalue⟩⟩ := mem_scrubFields hkept mem
      -- A token has no parts, so it is all that stands under its key.
      · rw [within.eq_of_isScalar (isScalar_of_tokenize htoken)]
        exact ⟨v', .field hv' .here, name', hname, Or.inl ⟨hlevel, htoken⟩⟩
      · obtain ⟨v'', path'', hwithin, hmade⟩ := within_origin within hvalue
        exact ⟨v'', .field hv' hwithin, name', hname, Or.inr ⟨path'', hmade⟩⟩
    · cases hw
    · cases hw
  | inField mem inside ih =>
    rcases scrubValue_eq_some h with ⟨fields, kept, rfl, hw, hkept⟩ | ⟨_, _, _, hw, _⟩ | ⟨_, hw, _⟩
    · cases hw
      obtain ⟨v', hv', name', hname, ⟨_, htoken⟩ | ⟨path', hvalue⟩⟩ := mem_scrubFields hkept mem
      · exact absurd inside (Value.not_at_of_isScalar (isScalar_of_tokenize htoken))
      · obtain ⟨v'', hat, hmade⟩ := ih hvalue
        exact ⟨v'', .inField hv' hat, hmade⟩
    · cases hw
    · cases hw
  | inList mem _ ih =>
    rcases scrubValue_eq_some h with ⟨_, _, _, hw, _⟩ | ⟨items, kept, rfl, hw, hkept⟩ | ⟨_, hw, _⟩
    · cases hw
    · cases hw
      obtain ⟨v', hv', path', hitem⟩ := mem_scrubItems hkept mem
      obtain ⟨v'', hat, hmade⟩ := ih hitem
      exact ⟨v'', .inList hv' hat, hmade⟩
    · cases hw

/-! ## Leaves -/

/-- What becomes of a leaf under a key with the given text. -/
inductive Fate (c : Context) (name : List Char) : Value → Value → Prop
  | kept {v : Value} (safe : c.isUnsafe v = false)
      (notDate : ¬(c.level = .strict ∧ c.rules.isDateKey name = true ∧
        v.isDate (c.rules.isEpochKey name) = true)) : Fate c name v v
  | generalized {v w : Value} {path : String} (strict : c.level = .strict)
      (isDate : v.isDate (c.rules.isEpochKey name) = true)
      (coarser : v.generalizeDate path = .ok w) : Fate c name v w
  | token {v w : Value} (moderate : c.level = .moderate) (token : c.hasher.tokenize v = .ok w) :
      Fate c name v w

theorem Made.fate (h : Made c key v w) (hleaf : IsLeaf w) :
    ∃ name, key.plain = .ok name ∧ Fate c name v w := by
  obtain ⟨name, hname, ⟨hlevel, htoken⟩ | ⟨path, hvalue⟩⟩ := h
  · exact ⟨name, hname, .token hlevel htoken⟩
  · refine ⟨name, hname, ?_⟩
    rcases scrubValue_eq_some hvalue with ⟨_, _, _, hw, _⟩ | ⟨_, _, _, hw, _⟩ | ⟨hv, _, hkept⟩
    · exact absurd hw (hleaf.1 _)
    · exact absurd hw (hleaf.2 _)
    · obtain ⟨hsafe, _, ⟨rfl, hdate⟩ | ⟨hlevel, _, hdate, hcoarser⟩⟩ := scrubLeaf_eq_some hv hkept
      · exact .kept hsafe hdate
      · exact .generalized hlevel hdate hcoarser

/-! ## The whole entity -/

variable {s : Scrubber} {e : Entity} {entityType : Value} {l : Level} {out : Scrubbed}

/-- `part` is left of `own`: the properties of an entity, or its metadata except for what tells how
it was scrubbed. -/
def PartOf (out : Scrubbed) (e : Entity) (part own : Value) : Prop :=
  (part = out.properties ∧ own = e.properties) ∨
    (part = .map (ownFields out.metadata) ∧ own = .map (ownFields e.metadata))

theorem origin_of_scrub (h : (s.scrub (some e) entityType (.level l)).1 = .ok out)
    {part own : Value} (hpart : PartOf out e part own) {keys : List Value}
    (hw : part.At keys key w) :
    ∃ v, own.At keys key v ∧ Made (s.context e entityType.messageText l) key v w := by
  obtain ⟨whole⟩ := exists_whole h
  rcases hpart with ⟨rfl, rfl⟩ | ⟨rfl, rfl⟩
  · have hproperties : (scrubValue (s.context e entityType.messageText l) [] "properties"
        (.map whole.properties)).result = .ok (some (.map whole.keptProperties)) := by
      rw [scrubValue, Attempt.map_result, whole.scrubProperties]
      rfl
    rw [whole.outProperties] at hw
    rw [whole.propertiesAre]
    exact at_origin hw hproperties
  · have hmetadata : (scrubValue (s.context e entityType.messageText l) [] "metadata"
        (.map (ownFields e.metadata))).result = .ok (some (.map whole.keptMetadata)) := by
      rw [scrubValue, Attempt.map_result, whole.scrubMetadata]
      rfl
    rw [whole.ownFields_metadata] at hw
    exact at_origin hw hmetadata

end Scrub

end ConsentGate
