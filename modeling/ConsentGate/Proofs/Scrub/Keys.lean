import ConsentGate.Proofs.Scrub.Pruning

/-! Which keys are left of an entity, at every depth.

A value holds a field wherever the field stands inside it, under maps and lists alike. Each field that
is left was classified by its own key (`PrunedField.admits`), however deep it stands, and nothing that
takes a value's place has fields of its own; so what holds of one field holds of all. -/
namespace ConsentGate
open Digest Scrub
set_option autoImplicit false

/-! ## Fields at every depth -/

/-- `v.Holds key w`: somewhere inside `v`, `w` stands under `key`. -/
inductive Value.Holds : Value → Value → Value → Prop
  | field {fields : Fields} {key w : Value} (mem : (key, w) ∈ fields) : Holds (.map fields) key w
  | inField {fields : Fields} {k v key w : Value} (mem : (k, v) ∈ fields)
      (inside : Holds v key w) : Holds (.map fields) key w
  | inList {items : List Value} {v key w : Value} (mem : v ∈ items) (inside : Holds v key w) :
      Holds (.list items) key w
  | inTuple {items : List Value} {v key w : Value} (mem : v ∈ items) (inside : Holds v key w) :
      Holds (.tuple items) key w
  | inSet {items : List Value} {v key w : Value} (mem : v ∈ items) (inside : Holds v key w) :
      Holds (.set items) key w

theorem Value.not_holds_of_isScalar {v key w : Value} (h : v.isScalar = true) :
    ¬v.Holds key w := by
  intro hholds
  cases hholds <;> cases h

/-- The value under a key that is a text, if the value is a map. -/
def Value.field? (v : Value) (name : String) : Option Value :=
  match v with
  | .map fields => get? fields name
  | _ => none

theorem Value.exists_mem_of_field? {v w : Value} {name : String} (h : v.field? name = some w) :
    ∃ fields, v = .map fields ∧ (.str name, w) ∈ fields := by
  unfold field? at h
  split at h
  · rename_i fields
    obtain ⟨⟨key, u⟩, hfound, rfl⟩ := Option.map_eq_some_iff.mp h
    have htext := List.find?_some hfound
    have hkey : key = .str name := by
      cases key with
      | str s => exact congrArg Value.str (beq_iff_eq.mp htext)
      | _ => cases htext
    rw [← hkey]
    exact ⟨fields, rfl, List.mem_of_find?_eq_some hfound⟩
  · cases h

theorem Value.holds_of_field? {v w : Value} {name : String} (h : v.field? name = some w) :
    v.Holds (.str name) w := by
  obtain ⟨fields, rfl, hmem⟩ := exists_mem_of_field? h
  exact .field hmem

/-! ## Tokens -/

namespace Hasher

theorem length_digest (h : Hasher) (s : List Char) : (h.digest s).length = h.length := by
  have hbound := h.bounds.2
  unfold digest
  rw [String.length_ofList, List.length_take, length_hex, length_hmac]
  omega

/-- A token is nothing, or the mark with a digest behind it. -/
theorem tokenize_eq_ok {h : Hasher} {v w : Value} (ht : h.tokenize v = .ok w) :
    w = .null ∨ ∃ text, w = .str (tokenMark ++ h.digest text) := by
  unfold tokenize at ht
  split at ht
  · cases ht
    exact Or.inl rfl
  · obtain ⟨text, _, rfl⟩ := map_eq_ok.mp ht
    exact Or.inr ⟨text, rfl⟩

end Hasher

namespace Scrub

variable {p : Policy} {name : List Char} {v w key u : Value}

/-! ## What is left under a key -/

/-- A key that may be left, with the value under it: no level strips the key; a personal one is not
left at the strict level, and at the moderate level only with a token. -/
def Policy.Admits (p : Policy) (key w : Value) : Prop :=
  ∃ name, key.plain = .ok name ∧ (p.rules.classify name).isStripped = false ∧
    (p.level = .strict → (p.rules.classify name).isPersonal = false) ∧
    (p.level = .moderate → (p.rules.classify name).isPersonal = true →
      w = .null ∨ ∃ text, w = .str (Hasher.tokenMark ++ p.hasher.digest text) ∧
        (p.hasher.digest text).length = p.hasher.length)

theorem PrunedField.admits (h : PrunedField p key v w) : p.Admits key w := by
  cases h with
  | token plain notStripped _ moderate token =>
    refine ⟨_, plain, notStripped, ?_, ?_⟩
    · intro hstrict
      rw [moderate] at hstrict
      cases hstrict
    · intro _ _
      rcases Hasher.tokenize_eq_ok token with hnull | ⟨text, htext⟩
      · exact Or.inl hnull
      · exact Or.inr ⟨text, htext, p.hasher.length_digest text⟩
  | value plain notStripped minimal _ =>
    refine ⟨_, plain, notStripped, ?_, ?_⟩
    · intro hstrict
      refine Bool.eq_false_iff.mpr fun hpersonal => ?_
      have hminimal := minimal hpersonal
      rw [hstrict] at hminimal
      cases hminimal
    · intro hmoderate hpersonal
      have hminimal := minimal hpersonal
      rw [hmoderate] at hminimal
      cases hminimal

/-- Whatever has fields in it is a pruned value, not a token. -/
theorem PrunedField.pruned_of_holds (h : PrunedField p key v w) {k : Value} (hw : w.Holds k u) :
    ∃ name, Pruned p name v w := by
  cases h with
  | token _ _ _ _ token =>
    rcases Hasher.tokenize_eq_ok token with hnull | ⟨text, htext⟩
    · rw [hnull] at hw
      exact absurd hw (Value.not_holds_of_isScalar rfl)
    · rw [htext] at hw
      exact absurd hw (Value.not_holds_of_isScalar rfl)
  | value _ _ _ pruned => exact ⟨_, pruned⟩

/-! ## Every depth -/

/-- Every field inside what is left of a value is admitted. The induction is on where the field
stands; the pruning of the value around it gives the pruning of the next one inwards. -/
theorem Pruned.admits (h : Pruned p name v w) (hw : w.Holds key u) : p.Admits key u := by
  induction hw generalizing name v with
  | field mem =>
    obtain ⟨fields, _, hfields⟩ := h.of_map
    obtain ⟨v', _, hfield⟩ := hfields.exists_of_mem mem
    exact hfield.admits
  | inField mem inside ih =>
    obtain ⟨fields, _, hfields⟩ := h.of_map
    obtain ⟨v', _, hfield⟩ := hfields.exists_of_mem mem
    obtain ⟨k, hpruned⟩ := hfield.pruned_of_holds inside
    exact ih hpruned
  | inList mem inside ih =>
    obtain ⟨items, _, hitems⟩ := h.of_list
    obtain ⟨v', _, hitem⟩ := hitems.exists_of_mem mem
    exact ih hitem
  | inTuple _ _ _ =>
    rcases h.isScalar_or with hscalar | ⟨_, hmap⟩ | ⟨_, hlist⟩
    · cases hscalar
    · cases hmap
    · cases hlist
  | inSet _ _ _ =>
    rcases h.isScalar_or with hscalar | ⟨_, hmap⟩ | ⟨_, hlist⟩
    · cases hscalar
    · cases hmap
    · cases hlist

/-- The same for the fields left of a map. -/
theorem PrunedFields.admits {fields kept : Fields} (h : PrunedFields p fields kept)
    (hkept : (Value.map kept).Holds key u) : p.Admits key u := by
  have hmap : Pruned p [] (.map fields) (.map kept) := .map h
  exact hmap.admits hkept

variable {s : Scrubber} {e : Entity} {entityType : Value} {l : Level} {out : Scrubbed}

/-- No key that a level strips is left in a scrubbed entity, at any depth of its properties or of its
own metadata; a personal key is left at the moderate level only with a token, at the strict level not
at all. -/
theorem admits_of_scrub (h : (s.scrub (some e) entityType (.level l)).1 = .ok out) {part : Value}
    (hpart : part = out.properties ∨ part = .map (ownFields out.metadata))
    (hholds : part.Holds key u) :
    ∃ name, key.plain = .ok name ∧ (s.rules.classify name).isStripped = false ∧
      (l = .strict → (s.rules.classify name).isPersonal = false) ∧
      (l = .moderate → (s.rules.classify name).isPersonal = true →
        u = .null ∨ ∃ text, u = .str (Hasher.tokenMark ++ s.hasher.digest text) ∧
          (s.hasher.digest text).length = s.hasher.length) := by
  obtain ⟨w⟩ := exists_whole h
  rcases hpart with rfl | rfl
  · rw [w.outProperties] at hholds
    exact w.properties_pruned.admits hholds
  · rw [w.ownFields_metadata] at hholds
    exact w.metadata_pruned.admits hholds

/-- The sample keeps its personal field. -/
theorem sampleResult_holds_email :
    ∃ out value, sampleResult = .ok out ∧ out.properties.Holds (.str "email") value := by
  have hfield : (sampleResult.toOption.bind fun out => out.properties.field? "email").isSome =
      true := by decide +kernel
  obtain ⟨value, hvalue⟩ := Option.isSome_iff_exists.mp hfield
  obtain ⟨out, hout, hvalue⟩ := Option.bind_eq_some_iff.mp hvalue
  refine ⟨out, value, ?_, Value.holds_of_field? hvalue⟩
  cases hresult : sampleResult with
  | error f =>
    rw [hresult] at hout
    cases hout
  | ok x =>
    rw [hresult] at hout
    cases hout
    rfl

theorem admits_of_scrub_sample :
    ∃ out value, sampleResult = .ok out ∧ out.properties.Holds (.str "email") value ∧
      ∃ name, (Value.str "email").plain = .ok name ∧
        (sampleScrubber.rules.classify name).isStripped = false ∧
        (Level.moderate = .strict → (sampleScrubber.rules.classify name).isPersonal = false) ∧
        (Level.moderate = .moderate → (sampleScrubber.rules.classify name).isPersonal = true →
          value = .null ∨ ∃ text, value = .str (Hasher.tokenMark ++ sampleScrubber.hasher.digest text) ∧
            (sampleScrubber.hasher.digest text).length = sampleScrubber.hasher.length) := by
  obtain ⟨out, value, hout, hholds⟩ := sampleResult_holds_email
  exact ⟨out, value, hout, hholds, admits_of_scrub hout (Or.inl rfl) hholds⟩

end Scrub

end ConsentGate
