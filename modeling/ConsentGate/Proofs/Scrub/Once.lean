import ConsentGate.Proofs.Scrub.Independence
import ConsentGate.Proofs.Scrub.Paths
import Mathlib.Data.List.Dedup

/-! Each field is recorded once, but for one slip.

What is recorded of a tidy value is recorded of one field each time: the value's own path only where the
value comes through or is lost as a whole, and otherwise paths further down. The slip is with tokens: the
path is recorded as tokenised before the token is made, and as failed if none can be made
(`RecordsOnce.tokens`). -/
namespace ConsentGate
open Text
set_option autoImplicit false

variable {path p : String} {v u u' : Value}

namespace Scrub

variable {c : Context} {name : List Char}

/-! ## Trails -/

/-- What a trail records of fields, once each: no path is in two of its lists or twice in one, except
that a field that became a token is also recorded as failed if the token could not be made. `has` tells
the fields by their paths. -/
structure RecordsOnce (h : Hasher) (has : String → Value → Prop) (t : Trail) : Prop where
  settled : (t.removed ++ t.generalized ++ t.failed).Nodup
  kept : (t.removed ++ t.tokenized ++ t.generalized).Nodup
  tokens : ∀ p ∈ t.tokenized, ∃ v, has p v ∧ (p ∈ t.failed ↔ ∃ f, h.tokenize v = .error f)

namespace RecordsOnce

variable {h : Hasher} {has has' : String → Value → Prop} {s t : Trail}

theorem mono (hs : RecordsOnce h has s) (hhas : ∀ p v, has p v → has' p v) : RecordsOnce h has' s where
  settled := hs.settled
  kept := hs.kept
  tokens := by
    intro p hp
    obtain ⟨v, hv, hfailed⟩ := hs.tokens p hp
    exact ⟨v, hhas p v hv, hfailed⟩

theorem empty (h : Hasher) (has : String → Value → Prop) : RecordsOnce h has .empty where
  settled := List.nodup_nil
  kept := List.nodup_nil
  tokens := by simp [Trail.empty]

theorem removed (h : Hasher) (has : String → Value → Prop) (path : String) :
    RecordsOnce h has { removed := [path] } where
  settled := by simp
  kept := by simp
  tokens := by simp

theorem generalized (h : Hasher) (has : String → Value → Prop) (path : String) :
    RecordsOnce h has { generalized := [path] } where
  settled := by simp
  kept := by simp
  tokens := by simp

theorem failed (h : Hasher) (has : String → Value → Prop) (path : String) (log : Log) :
    RecordsOnce h has { failed := [path], log := log } where
  settled := by simp
  kept := by simp
  tokens := by simp

/-- Trails of different fields record each of them once together. -/
theorem join (hs : RecordsOnce h has s) (ht : RecordsOnce h has t)
    (hapart : ∀ p ∈ s.paths, p ∉ t.paths) : RecordsOnce h has (s.join t) := by
  simp only [Trail.paths, List.mem_append] at hapart
  obtain ⟨hs1, hs2, hs3⟩ := hs
  obtain ⟨ht1, ht2, ht3⟩ := ht
  constructor
  · simp only [Trail.join, List.nodup_append, List.mem_append] at hs1 ht1 ⊢
    grind
  · simp only [Trail.join, List.nodup_append, List.mem_append] at hs2 ht2 ⊢
    grind
  · simp only [Trail.join, List.mem_append]
    grind

end RecordsOnce

/-- The only paths that may be recorded twice are those of fields without a token. -/
theorem RecordsOnce.nodup_paths_iff {h : Hasher} {has : String → Value → Prop} {t : Trail}
    (ht : RecordsOnce h has t) : t.paths.Nodup ↔ ∀ p ∈ t.tokenized, p ∉ t.failed := by
  obtain ⟨hsettled, hkept, _⟩ := ht
  simp only [Trail.paths, List.nodup_append, List.mem_append] at hsettled hkept ⊢
  grind

/-- The count of changes counts a field twice if it is recorded as a token and as failed. -/
theorem RecordsOnce.changed_eq {h : Hasher} {has : String → Value → Prop} {t : Trail}
    (ht : RecordsOnce h has t) :
    t.changed = t.paths.dedup.length + (t.tokenized.filter (· ∈ t.failed)).length := by
  have hnodup : (t.removed ++ t.generalized ++ t.failed ++
      t.tokenized.filter (· ∉ t.failed)).Nodup := by
    obtain ⟨hsettled, hkept, _⟩ := ht
    simp only [List.nodup_append, List.mem_append, List.mem_filter] at hsettled hkept ⊢
    refine ⟨hsettled, hkept.1.2.1.filter _, ?_⟩
    grind
  have hsame : t.paths.dedup.Perm (t.removed ++ t.generalized ++ t.failed ++
      t.tokenized.filter (· ∉ t.failed)) := by
    refine (List.perm_ext_iff_of_nodup (List.nodup_dedup _) hnodup).mpr fun p => ?_
    simp only [List.mem_dedup, Trail.paths, List.mem_append, List.mem_filter, decide_eq_true_eq]
    tauto
  have hsplit := t.tokenized.length_eq_length_filter_add (· ∈ t.failed)
  rw [hsame.length_eq]
  simp only [Trail.changed, List.length_append, decide_not] at hsplit ⊢
  omega

/-! ## One field -/

variable {key : Value}

theorem scrubLeaf_recordsOnce (c : Context) (name : List Char) (path : String) (v : Value)
    (has : String → Value → Prop) : RecordsOnce c.hasher has (scrubLeaf c name path v).trail := by
  rcases scrubLeaf_cases c name path v with heq | ⟨f, heq⟩ | heq | ⟨w, heq⟩ <;> rw [heq]
  · exact .removed _ _ path
  · exact .empty _ _
  · exact .empty _ _
  · exact .generalized _ _ path

theorem settle_recordsOnce (key : Value)
    (hvalue : RecordsOnce c.hasher (FieldAt (Value.fieldPath path (String.ofList name)) v)
      (scrubValue c name (Value.fieldPath path (String.ofList name)) v).trail) :
    RecordsOnce c.hasher (FieldFrom (Value.fieldPath path (String.ofList name)) v)
      (settle c key (Value.fieldPath path (String.ofList name)) (scrubAlone c path name v)).2 := by
  have hinside : RecordsOnce c.hasher (FieldFrom (Value.fieldPath path (String.ofList name)) v) _ :=
    hvalue.mono fun p u hu => Or.inr hu
  rcases scrubAlone_cases c path name v with heq | ⟨_, _, heq⟩ | ⟨_, heq⟩ <;> rw [heq]
  · exact .removed _ _ _
  · -- The path is recorded before the token is made.
    cases htoken : c.hasher.tokenize v with
    | ok w =>
      refine ⟨by simp [settle, Except.map], by simp [settle, Except.map], fun p hp => ?_⟩
      exact ⟨v, Or.inl ⟨by simpa [settle, Except.map] using hp, rfl⟩, by simp [settle, Except.map, htoken]⟩
    | error f =>
      refine ⟨by simp [settle, Except.map, Trail.join], by simp [settle, Except.map, Trail.join],
        fun p hp => ?_⟩
      have hown : p = Value.fieldPath path (String.ofList name) := by
        simpa [settle, Except.map, Trail.join] using hp
      refine ⟨v, Or.inl ⟨hown, rfl⟩, ?_⟩
      simp [settle, Except.map, Trail.join, htoken, hown]
  · unfold settle
    split
    · exact hinside
    · exact hinside
    · rename_i f hfault
      refine hinside.join (.failed _ _ _ _) fun p hp => ?_
      have hne := (below_of_error hfault hp).ne
      simpa [Trail.paths] using hne

/-! ## Values with parts -/

-- The cases follow the scrubber's own recursion. Items of a list have different positions and fields of
-- a tidy map different keys, so what is recorded of one is not recorded of another.
mutual
theorem scrubValue_recordsOnce (c : Context) (name : List Char) (path : String) (v : Value)
    (hv : v.Tidy) : RecordsOnce c.hasher (FieldAt path v) (scrubValue c name path v).trail := by
  match v with
  | .map fields =>
    rw [scrubValue]
    exact scrubFields_recordsOnce c path fields hv
  | .list items =>
    rw [scrubValue]
    refine (scrubItems_recordsOnce c name path 0 items hv).mono ?_
    rintro p u ⟨j, w, position, inside⟩
    rw [Nat.zero_add] at inside
    exact .inItem position inside
  | .null | .bool _ | .int _ | .float _ | .decimal _ | .str _ | .date _ | .datetime _ | .bytes _
  | .tuple _ | .set _ | .level _ | .foreign | .uncopyable =>
    exact scrubLeaf_recordsOnce c name path _ _

theorem scrubItems_recordsOnce (c : Context) (name : List Char) (path : String) (i : Nat)
    (items : List Value) (hitems : Value.ItemsTidy items) :
    RecordsOnce c.hasher (FieldAmong path i items)
      (scrubItems c name path i items).trail := by
  match items with
  | [] => exact .empty _ _
  | v :: rest =>
    have hfirst : RecordsOnce c.hasher (FieldAmong path i (v :: rest)) _ :=
      (scrubValue_recordsOnce c name (Value.itemPath path i) v hitems.1).mono
        fun p u hu => ⟨0, v, rfl, hu⟩
    have hrest : RecordsOnce c.hasher (FieldAmong path i (v :: rest)) _ :=
      (scrubItems_recordsOnce c name path (i + 1) rest hitems.2).mono fun p u hu => hu.cons v
    rw [scrubItems]
    cases hresult : (scrubValue c name (Value.itemPath path i) v).result with
    | error f =>
      rw [Attempt.andThen_of_error hresult]
      exact hfirst
    | ok kept =>
      rw [Attempt.andThen_of_ok hresult]
      refine hfirst.join hrest fun p hp hp' => ?_
      obtain ⟨j, hj, hleads⟩ := exists_item_of_mem_paths hp'
      have hsame := index_eq_of_leads ((scrubValue_accounts c name _ v).leads p hp) hleads
      omega

theorem scrubFields_recordsOnce (c : Context) (path : String) (fields : List (Value × Value))
    (hfields : (Value.map fields).Tidy) :
    RecordsOnce c.hasher (FieldAt path (.map fields)) (scrubFields c path fields).trail := by
  match fields with
  | [] => exact .empty _ _
  | (key, v) :: rest =>
    obtain ⟨hkeys, ⟨k, rfl, hk⟩, hv, hrest⟩ := hfields
    obtain ⟨hnew, hkeys⟩ := List.nodup_cons.mp hkeys
    have hvalue := scrubValue_recordsOnce c k.toList
      (Value.fieldPath path (String.ofList k.toList)) v hv
    have hothers := scrubFields_recordsOnce c path rest ⟨hkeys, hrest⟩
    have hplain : (Value.str k).plain = .ok k.toList := rfl
    have hfield := settle_recordsOnce (.str k) hvalue
    rw [scrubFields_cons c path hplain]
    refine (hfield.mono fun p u hu => ?_).join (hothers.mono fun p u hu => ?_) fun p hp hp' => ?_
    · rw [String.ofList_toList] at hu
      exact fieldAt_map_iff.mpr ⟨k, v, List.mem_cons_self, hu⟩
    · obtain ⟨k', w, hmem, hw⟩ := fieldAt_map_iff.mp hu
      exact fieldAt_map_iff.mpr ⟨k', w, List.mem_cons_of_mem _ hmem, hw⟩
    · obtain ⟨field, hmem, name, hname, hleads⟩ := exists_field_of_mem_paths hp'
      obtain ⟨⟨k', heq, hk'⟩, _⟩ := Value.fieldsTidy_iff.mp hrest field hmem
      rw [heq] at hname
      cases hname
      have hown := (settle_accounts c (.str k) (scrubAlone_accounts c path k.toList v)).1 p hp
      rw [String.ofList_toList] at hown hleads
      obtain rfl := key_eq_of_leads hk hk' hown hleads
      exact hnew (List.mem_map.mpr ⟨field, hmem, heq⟩)
end

/-! ## Entities -/

theorem tidy_ownFields (h : v.Tidy) : (Value.map (ownFields v)).Tidy := by
  cases v with
  | map fields => exact h.filter _
  | _ => exact ⟨List.nodup_nil, trivial⟩

/-- A path starts like the path that it leads from. -/
theorem head_of_below {d : Char} {rest : List Char} (hpath : path.toList = d :: rest)
    (h : Below path p) : p.toList.head? = some d := by
  obtain ⟨tail, rfl | rfl⟩ := h <;> simp [hpath]

theorem not_below_metadata (h : Below "properties" p) : ¬Below "metadata" p := by
  intro h'
  have hhead := (head_of_below (d := 'p') rfl h).symm.trans (head_of_below (d := 'm') rfl h')
  exact absurd hhead (by decide)

theorem below_of_mem_scrubFields {fields : Fields} (h : p ∈ (scrubFields c path fields).trail.paths) :
    Below path p := by
  obtain ⟨_, _, _, _, hleads⟩ := exists_field_of_mem_paths h
  exact hleads.below_of_field

end Scrub

open Scrub

/-- In the properties of an entity, or in its own metadata, the field at the path `p` has the value `u`. -/
def Entity.HasFieldAt (e : Entity) (p : String) (u : Value) : Prop :=
  FieldAt "properties" e.properties p u ∨ FieldAt "metadata" (.map (ownFields e.metadata)) p u

namespace Scrub

variable {s : Scrubber} {e : Entity} {entityType : Value} {l : Level} {out : Scrubbed}

theorem hasFieldAt_unique (hproperties : e.properties.Tidy) (hmetadata : e.metadata.Tidy)
    (h : e.HasFieldAt p u) (h' : e.HasFieldAt p u') : u = u' := by
  rcases h with h | h <;> rcases h' with h' | h'
  · exact h.unique hproperties h'
  · exact absurd h'.isBelow (not_below_metadata h.isBelow)
  · exact absurd h.isBelow (not_below_metadata h'.isBelow)
  · exact h.unique (tidy_ownFields hmetadata) h'

/-- Each touched field of an entity is recorded once, if the keys of its maps are distinct texts without
points and opening brackets: the lists of removed, generalised and failed fields have no path twice and
none in common, nor have those of removed, tokenised and generalised fields. But the path of a field that
is to become a token is recorded before the token is made; if there is none, it is recorded as failed as
well. So no path is recorded twice exactly if each field recorded as tokenised has a token, and the count
of changes counts the other ones twice. -/
theorem recorded_once_iff (h : (s.scrub (some e) entityType (.level l)).1 = .ok out)
    (hproperties : e.properties.Tidy) (hmetadata : e.metadata.Tidy) :
    RecordsOnce s.hasher e.HasFieldAt out.audit.trail ∧
      (out.audit.trail.paths.Nodup ↔ ∀ p u, p ∈ out.audit.trail.tokenized → e.HasFieldAt p u →
        ∃ token, s.hasher.tokenize u = .ok token) ∧
      out.audit.trail.changed = out.audit.trail.paths.dedup.length +
        (out.audit.trail.tokenized.filter (· ∈ out.audit.trail.failed)).length := by
  obtain ⟨w⟩ := exists_whole h
  have honce : RecordsOnce s.hasher e.HasFieldAt out.audit.trail := by
    rw [w.trail_eq h, partsTrail]
    rw [w.propertiesAre] at hproperties
    have hfirst := scrubFields_recordsOnce (s.context e entityType.messageText l) "properties" _
      hproperties
    have hlast := scrubFields_recordsOnce (s.context e entityType.messageText l) "metadata" _
      (tidy_ownFields hmetadata)
    refine RecordsOnce.join (hfirst.mono fun p u hu => Or.inl ?_) (hlast.mono fun p u hu => Or.inr hu)
      fun p hp hp' => ?_
    · rwa [w.propertiesAre]
    · exact not_below_metadata (below_of_mem_scrubFields hp) (below_of_mem_scrubFields hp')
  refine ⟨honce, ?_, honce.changed_eq⟩
  rw [honce.nodup_paths_iff]
  constructor
  · intro hsound p u hp hu
    obtain ⟨u', hu', hfailed⟩ := honce.tokens p hp
    obtain rfl := hasFieldAt_unique hproperties hmetadata hu hu'
    cases htoken : s.hasher.tokenize u with
    | ok token => exact ⟨token, rfl⟩
    | error f => exact absurd (hfailed.mpr ⟨f, htoken⟩) (hsound p hp)
  · intro hsound p hp hfailed
    obtain ⟨u, hu, htwice⟩ := honce.tokens p hp
    obtain ⟨f, hf⟩ := htwice.mp hfailed
    obtain ⟨token, htoken⟩ := hsound p u hp hu
    cases hf.symm.trans htoken

theorem tidy_sampleEntity : sampleEntity.properties.Tidy ∧ sampleEntity.metadata.Tidy := by
  refine ⟨⟨?_, ?_⟩, trivial⟩
  · simp
  · refine Value.fieldsTidy_iff.mpr ?_
    simp [IsPlainKey, Value.Tidy, Value.ItemsTidy]

theorem recorded_once_iff_sample :
    sampleEntity.properties.Tidy ∧ sampleEntity.metadata.Tidy ∧ ∃ out, sampleResult = .ok out ∧
      RecordsOnce sampleScrubber.hasher sampleEntity.HasFieldAt out.audit.trail ∧
      (out.audit.trail.paths.Nodup ↔
        ∀ p u, p ∈ out.audit.trail.tokenized → sampleEntity.HasFieldAt p u →
          ∃ token, sampleScrubber.hasher.tokenize u = .ok token) ∧
      out.audit.trail.changed = out.audit.trail.paths.dedup.length +
        (out.audit.trail.tokenized.filter (· ∈ out.audit.trail.failed)).length := by
  obtain ⟨hproperties, hmetadata⟩ := tidy_sampleEntity
  obtain ⟨out, hout⟩ := exists_eq_ok sampleResult_isOk
  exact ⟨hproperties, hmetadata, out, hout, recorded_once_iff hout hproperties hmetadata⟩

/-- Like the sample, but with addresses that cannot be written, as one of them is no value of a known
type. -/
def unwritableEntity : Entity :=
  { sampleEntity with
    properties := .map [(.str "email", .list [.str "ann@example.org", .foreign]),
      (.str "status", .str "open")] }

theorem not_recordedOnce_unwritableEntity :
    unwritableEntity.properties.Tidy ∧ unwritableEntity.metadata.Tidy ∧
      ∃ out, (sampleScrubber.scrub (some unwritableEntity) (.str "Note") (.level .moderate)).1 = .ok out ∧
        out.audit.trail.tokenized = ["properties.email"] ∧
        out.audit.trail.failed = ["properties.email"] ∧ ¬out.audit.trail.paths.Nodup := by
  have hlists : (sampleScrubber.scrub (some unwritableEntity) (.str "Note")
      (.level .moderate)).1.toOption.any (fun out =>
        decide (out.audit.trail.tokenized = ["properties.email"] ∧
          out.audit.trail.failed = ["properties.email"])) = true := by decide +kernel
  obtain ⟨out, hout, hlists⟩ := exists_ok_of_any hlists
  obtain ⟨htokenized, hfailed⟩ := of_decide_eq_true hlists
  refine ⟨⟨by simp, ?_⟩, trivial, out, hout, htokenized, hfailed, ?_⟩
  · refine Value.fieldsTidy_iff.mpr ?_
    simp [IsPlainKey, Value.Tidy, Value.ItemsTidy]
  · rw [Trail.paths, htokenized, hfailed]
    simp [List.nodup_append]

end Scrub

end ConsentGate
