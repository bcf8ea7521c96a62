import ConsentGate.Proofs.Scrub.Levels

/-! What is left stays within the value model, but for keys.

A value is within the model exactly if every value in it, at any depth, is of a supported type and every
key is a text (`check_eq_ok_iff`). The scrubber sees to the first: a leaf is checked, a token is a text
or nothing, and lists and maps are put together from what is left of their parts. Keys it takes as they
come; so what is left is within the model exactly if all keys in it are texts
(`check_iff_of_scrub`). -/
namespace ConsentGate
open Scrub
set_option autoImplicit false

namespace Value

variable {v : Value} {items : List Value} {fields : Fields}

/-! ## Types and keys -/

/-- At every depth of lists and maps there are values of supported types only, under any keys. -/
inductive Typed : Value → Prop
  | scalar {v : Value} (isScalar : v.isScalar = true) : Typed v
  | list {items : List Value} (each : ∀ v ∈ items, Typed v) : Typed (.list items)
  | map {fields : Fields} (each : ∀ field ∈ fields, Typed field.2) : Typed (.map fields)

/-- Every key, at any depth, is a text. -/
def TextKeys (v : Value) : Prop := ∀ key w, v.Holds key w → key.isStr = true

theorem typed_list_iff : (list items).Typed ↔ ∀ v ∈ items, v.Typed := by
  constructor
  · intro h
    cases h with
    | scalar isScalar => cases isScalar
    | list each => exact each
  · exact .list

theorem typed_map_iff : (map fields).Typed ↔ ∀ field ∈ fields, field.2.Typed := by
  constructor
  · intro h
    cases h with
    | scalar isScalar => cases isScalar
    | map each => exact each
  · exact .map

theorem isScalar_of_typed (hleaf : IsLeaf v) (h : v.Typed) : v.isScalar = true := by
  cases h with
  | scalar isScalar => exact isScalar
  | list _ => exact absurd rfl (hleaf.2 _)
  | map _ => exact absurd rfl (hleaf.1 _)

theorem textKeys_of_isScalar (h : v.isScalar = true) : v.TextKeys :=
  fun _ _ hholds => absurd hholds (not_holds_of_isScalar h)

theorem textKeys_list_iff : (list items).TextKeys ↔ ∀ v ∈ items, v.TextKeys := by
  constructor
  · intro h v hv key w hw
    exact h key w (.inList hv hw)
  · intro h key w hw
    cases hw with
    | inList mem inside => exact h _ mem key w inside

theorem textKeys_map_iff :
    (map fields).TextKeys ↔ ∀ field ∈ fields, field.1.isStr = true ∧ field.2.TextKeys := by
  constructor
  · intro h field hfield
    exact ⟨h _ _ (.field hfield), fun key w hw => h key w (.inField hfield hw)⟩
  · intro h key w hw
    cases hw with
    | field mem => exact (h _ mem).1
    | inField mem inside => exact (h _ mem).2 key w inside

/-! ## The check -/

theorem check_of_isLeaf (hleaf : IsLeaf v) (path : String) :
    v.check path = .ok () ↔ v.Typed ∧ v.TextKeys := by
  constructor
  · intro h
    have hscalar := isScalar_of_check hleaf h
    exact ⟨.scalar hscalar, textKeys_of_isScalar hscalar⟩
  · intro h
    exact check_of_isScalar (isScalar_of_typed hleaf h.1) path

theorem checkItems_cons_eq_ok {path : String} {i : Nat} :
    checkItems path i (v :: items) = .ok () ↔
      v.check (itemPath path i) = .ok () ∧ checkItems path (i + 1) items = .ok () := by
  rw [checkItems, bind_eq_ok]
  constructor
  · rintro ⟨⟨⟩, hfirst, hrest⟩
    exact ⟨hfirst, hrest⟩
  · rintro ⟨hfirst, hrest⟩
    exact ⟨(), hfirst, hrest⟩

theorem checkFields_cons_eq_ok {path : String} {key : Value} :
    checkFields path ((key, v) :: fields) = .ok () ↔
      ∃ k, key = .str k ∧ v.check (fieldPath path k) = .ok () ∧ checkFields path fields = .ok () := by
  cases key with
  | str k =>
    rw [checkFields, bind_eq_ok]
    constructor
    · rintro ⟨⟨⟩, hfirst, hrest⟩
      exact ⟨k, rfl, hfirst, hrest⟩
    · rintro ⟨own, hown, hfirst, hrest⟩
      cases hown
      exact ⟨(), hfirst, hrest⟩
  | _ => simp [checkFields]

-- The cases follow the check's own recursion; what it asks for does not depend on the path.
mutual
theorem check_eq_ok_iff (v : Value) (path : String) :
    v.check path = .ok () ↔ v.Typed ∧ v.TextKeys := by
  match v with
  | .list items =>
    rw [check, checkItems_eq_ok_iff items path 0, typed_list_iff, textKeys_list_iff]
    exact forall₂_and
  | .map fields =>
    rw [check, checkFields_eq_ok_iff fields path, typed_map_iff, textKeys_map_iff, ← forall₂_and]
    exact forall₂_congr fun field _ => and_left_comm
  | .null | .bool _ | .int _ | .float _ | .decimal _ | .str _ | .date _ | .datetime _ | .bytes _
  | .tuple _ | .set _ | .level _ | .foreign | .uncopyable =>
    refine check_of_isLeaf ?_ path
    exact ⟨nofun, nofun⟩

theorem checkItems_eq_ok_iff (items : List Value) (path : String) (i : Nat) :
    checkItems path i items = .ok () ↔ ∀ v ∈ items, v.Typed ∧ v.TextKeys := by
  match items with
  | [] => simp [checkItems]
  | v :: rest =>
    rw [checkItems_cons_eq_ok, check_eq_ok_iff v, checkItems_eq_ok_iff rest, List.forall_mem_cons]

theorem checkFields_eq_ok_iff (fields : List (Value × Value)) (path : String) :
    checkFields path fields = .ok () ↔
      ∀ field ∈ fields, field.1.isStr = true ∧ field.2.Typed ∧ field.2.TextKeys := by
  match fields with
  | [] => simp [checkFields]
  | (key, v) :: rest =>
    rw [checkFields_cons_eq_ok, List.forall_mem_cons, isStr_iff, ← checkFields_eq_ok_iff rest path]
    constructor
    · rintro ⟨k, hk, hv, hrest⟩
      exact ⟨⟨⟨k, hk⟩, (check_eq_ok_iff v _).mp hv⟩, hrest⟩
    · rintro ⟨⟨⟨k, hk⟩, hv⟩, hrest⟩
      exact ⟨k, hk, (check_eq_ok_iff v _).mpr hv, hrest⟩
end

theorem check_iff_supported (path : String) : v.check path = .ok () ↔ v.Supported := by
  constructor
  · intro h
    exact ⟨path, h⟩
  · rintro ⟨path', h⟩
    rw [check_eq_ok_iff] at h ⊢
    exact h

end Value

namespace Scrub

variable {c : Context} {name : List Char} {path : String} {v w : Value}

/-! ## What is left -/

theorem typed_of_left (h : (scrubValue c name path v).result = .ok (some w)) : w.Typed := by
  refine scrubValue_induction (P := fun _ _ w => w.Typed) ?_ ?_ ?_ h
  · intro name path v w hleaf hkept
    exact .scalar (isScalar_of_scrubLeaf hleaf hkept)
  · intro name items kept hitems
    refine .list fun w hw => ?_
    obtain ⟨v, _, htyped⟩ := hitems w hw
    exact htyped
  · intro name fields kept hfields
    refine .map fun field hfield => ?_
    obtain ⟨v, own, _, _, ⟨_, htoken⟩ | ⟨_, htyped⟩⟩ := hfields field hfield
    · exact .scalar (isScalar_of_tokenize htoken)
    · exact htyped

/-- No key is left that was not there. -/
theorem textKeys_of_left (h : (scrubValue c name path v).result = .ok (some w)) (hv : v.TextKeys) :
    w.TextKeys := by
  refine scrubValue_induction (P := fun _ v w => v.TextKeys → w.TextKeys) ?_ ?_ ?_ h hv
  · intro name path v w hleaf hkept _
    exact Value.textKeys_of_isScalar (isScalar_of_scrubLeaf hleaf hkept)
  · intro name items kept hitems hkeys
    refine Value.textKeys_list_iff.mpr fun w hw => ?_
    obtain ⟨v, hv, hw⟩ := hitems w hw
    exact hw (Value.textKeys_list_iff.mp hkeys v hv)
  · intro name fields kept hfields hkeys
    refine Value.textKeys_map_iff.mpr fun field hfield => ?_
    obtain ⟨v, own, hmem, _, hown⟩ := hfields field hfield
    obtain ⟨htext, hinside⟩ := Value.textKeys_map_iff.mp hkeys _ hmem
    refine ⟨htext, ?_⟩
    rcases hown with ⟨_, htoken⟩ | ⟨_, hw⟩
    · exact Value.textKeys_of_isScalar (isScalar_of_tokenize htoken)
    · exact hw hinside

/-! ## Entities -/

variable {s : Scrubber} {e : Entity} {entityType : Value} {l : Level} {out : Scrubbed}

theorem typed_provenance_iff {tenantHash : String} :
    (∀ field ∈ s.provenance entityType l tenantHash,
      field.1.isStr = true ∧ field.2.Typed ∧ field.2.TextKeys) ↔ entityType.Supported := by
  have htext : ∀ text, (Value.str text).Typed ∧ (Value.str text).TextKeys := fun text =>
    ⟨.scalar rfl, Value.textKeys_of_isScalar rfl⟩
  have hbool : (Value.bool true).Typed ∧ (Value.bool true).TextKeys :=
    ⟨.scalar rfl, Value.textKeys_of_isScalar rfl⟩
  rw [← Value.check_iff_supported "", Value.check_eq_ok_iff]
  simp [Scrubber.provenance, htext, hbool, Value.isStr, Value.str?]

/-- What is left of an entity is within the value model exactly if every key left in it is a text; for
the metadata, the entity's type must be a value of the model as well, which every text is. This is so if
all keys of the entity itself are texts, and in any case the values left are of supported types. -/
theorem check_iff_of_scrub (h : (s.scrub (some e) entityType (.level l)).1 = .ok out) (path : String) :
    (out.properties.check path = .ok () ↔ out.properties.TextKeys) ∧
      (out.metadata.check path = .ok () ↔
        (Value.map (ownFields out.metadata)).TextKeys ∧ entityType.Supported) ∧
      out.properties.Typed ∧ (Value.map (ownFields out.metadata)).Typed ∧
      (e.properties.TextKeys → out.properties.TextKeys) ∧
      ((Value.map (ownFields e.metadata)).TextKeys → (Value.map (ownFields out.metadata)).TextKeys) := by
  obtain ⟨w⟩ := exists_whole h
  have hproperties : (scrubValue (s.context e entityType.messageText l) [] "properties"
      (.map w.properties)).result = .ok (some (.map w.keptProperties)) :=
    scrubValue_map_of_ok w.scrubProperties
  have hmetadata : (scrubValue (s.context e entityType.messageText l) [] "metadata"
      (.map (ownFields e.metadata))).result = .ok (some (.map w.keptMetadata)) :=
    scrubValue_map_of_ok w.scrubMetadata
  have htyped := typed_of_left hproperties
  have htypedOwn := typed_of_left hmetadata
  rw [w.ownFields_metadata, w.outProperties, w.propertiesAre]
  refine ⟨?_, ?_, htyped, htypedOwn, textKeys_of_left hproperties, textKeys_of_left hmetadata⟩
  · rw [Value.check_eq_ok_iff]
    exact and_iff_right htyped
  · have hown : (Value.map w.keptMetadata).TextKeys ↔
        ∀ field ∈ w.keptMetadata, field.1.isStr = true ∧ field.2.Typed ∧ field.2.TextKeys := by
      rw [Value.textKeys_map_iff]
      exact forall₂_congr fun field hfield =>
        and_congr_right fun _ => (and_iff_right (Value.typed_map_iff.mp htypedOwn field hfield)).symm
    rw [w.outMetadata, Value.check, Value.checkFields_eq_ok_iff, List.forall_mem_append,
      typed_provenance_iff, hown]

theorem check_iff_of_scrub_sample :
    ∃ out, sampleResult = .ok out ∧
      (out.properties.check "properties" = .ok () ↔ out.properties.TextKeys) ∧
      (out.metadata.check "properties" = .ok () ↔
        (Value.map (ownFields out.metadata)).TextKeys ∧ (Value.str "Note").Supported) ∧
      out.properties.Typed ∧ (Value.map (ownFields out.metadata)).Typed ∧
      (sampleEntity.properties.TextKeys → out.properties.TextKeys) ∧
      ((Value.map (ownFields sampleEntity.metadata)).TextKeys →
        (Value.map (ownFields out.metadata)).TextKeys) := by
  obtain ⟨out, hout⟩ := exists_eq_ok sampleResult_isOk
  exact ⟨out, hout, check_iff_of_scrub hout "properties"⟩

/-- Like the sample, but with a field whose key is a number. -/
def numberedEntity : Entity :=
  { sampleEntity with properties := .map [(.int 7, .str "open"), (.str "status", .str "open")] }

theorem not_check_numberedEntity :
    ∃ out, (sampleScrubber.scrub (some numberedEntity) (.str "Note") (.level .moderate)).1 = .ok out ∧
      out.properties.check "properties" ≠ .ok () := by
  have hrejected : (sampleScrubber.scrub (some numberedEntity) (.str "Note")
      (.level .moderate)).1.toOption.any (fun out =>
        !(out.properties.check "properties").isOk) = true := by decide +kernel
  obtain ⟨out, hout, hrejected⟩ := exists_ok_of_any hrejected
  refine ⟨out, hout, fun hcheck => ?_⟩
  rw [hcheck] at hrejected
  cases hrejected

end Scrub

end ConsentGate
