import ConsentGate.Proofs.Scrub.Origins

/-! Where the identifiers of an entity may still show up when it has been scrubbed.

Only texts that stand as values are searched for identifiers. A key or a number that shows one is kept
like any other, so an entity that has such a key or number keeps it (`identifiers_survive`). But none is
brought in: keys and numbers of the result are the entity's own, at the same places, except for the
numbers that date generalisation makes. -/
namespace ConsentGate.Scrub
open Text
set_option autoImplicit false

variable {c : Context} {name : List Char} {v w : Value}

/-- A number that is left stands as it was, or was made of a date. -/
theorem Fate.number (h : Fate c name v w) (hnumber : (∃ n, w = .int n) ∨ ∃ d, w = .decimal d) :
    w = v ∨ c.level = .strict ∧ ∃ path, v.generalizeDate path = .ok w := by
  cases h with
  | kept _ _ => exact Or.inl rfl
  | generalized strict _ coarser => exact Or.inr ⟨strict, _, coarser⟩
  | token _ token =>
    rcases Hasher.tokenize_eq_ok token with hnull | ⟨text, htext⟩
    · rcases hnumber with ⟨n, hn⟩ | ⟨d, hd⟩
      · rw [hn] at hnull
        cases hnull
      · rw [hd] at hnull
        cases hnull
    · rcases hnumber with ⟨n, hn⟩ | ⟨d, hd⟩
      · rw [hn] at htext
        cases htext
      · rw [hd] at htext
        cases htext

/-- A text that is left is no mention of an identifier, or else it is a token or was made of a date. -/
theorem Fate.text {text : String} (h : Fate c name v (.str text)) :
    c.isUnsafeText text = false ∨ (c.level = .moderate ∧ c.hasher.tokenize v = .ok (.str text)) ∨
      (c.level = .strict ∧ ∃ path, v.generalizeDate path = .ok (.str text)) := by
  cases h with
  | kept safe _ => exact Or.inl safe
  | generalized strict _ coarser => exact Or.inr (Or.inr ⟨strict, _, coarser⟩)
  | token moderate token => exact Or.inr (Or.inl ⟨moderate, token⟩)

variable {s : Scrubber} {e : Entity} {entityType : Value} {l : Level} {out : Scrubbed}
  {part own : Value} {raw : String}

/-- Every key of a scrubbed entity is a key of the entity at the same place; every integer or decimal
that was not made of a date is the entity's own at the same place; and a text that mentions the entity or
its tenant is a token or was made of a date. -/
theorem identifiers_of_scrub (h : (s.scrub (some e) entityType (.level l)).1 = .ok out)
    (hraw : e.id = .str raw ∨ e.tenantId = .str raw) (hblank : allBlank raw.toList = false)
    (hpart : PartOf out e part own) :
    (∀ keys key w, part.At keys key w → ∃ v, own.At keys key v) ∧
      (∀ keys key w, part.At keys key w → ((∃ n, w = .int n) ∨ ∃ d, w = .decimal d) →
        own.At keys key w ∨ (l = .strict ∧
          ∃ v path, own.At keys key v ∧ v.generalizeDate path = .ok w)) ∧
      ∀ keys key text, part.At keys key (.str text) → Mentions text raw →
        ∃ v, own.At keys key v ∧ ((l = .moderate ∧ s.hasher.tokenize v = .ok (.str text)) ∨
          (l = .strict ∧ ∃ path, v.generalizeDate path = .ok (.str text))) := by
  refine ⟨?_, ?_, ?_⟩
  · intro keys key w hw
    obtain ⟨v, hv, _⟩ := origin_of_scrub h hpart hw
    exact ⟨v, hv⟩
  · intro keys key w hw hnumber
    obtain ⟨v, hv, hmade⟩ := origin_of_scrub h hpart hw
    have hleaf : IsLeaf w := by
      rcases hnumber with ⟨n, rfl⟩ | ⟨d, rfl⟩
      · exact isLeaf_of_isScalar rfl
      · exact isLeaf_of_isScalar rfl
    obtain ⟨name, _, hfate⟩ := hmade.fate hleaf
    rcases hfate.number hnumber with rfl | ⟨hstrict, path, hcoarser⟩
    · exact Or.inl hv
    · exact Or.inr ⟨hstrict, v, path, hv, hcoarser⟩
  · intro keys key text hw hmentions
    obtain ⟨v, hv, hmade⟩ := origin_of_scrub h hpart hw
    obtain ⟨name, _, hfate⟩ := hmade.fate (isLeaf_of_isScalar rfl)
    refine ⟨v, hv, ?_⟩
    rcases hfate.text with hsafe | hmade
    · exact absurd hmentions ((safeText_of_isUnsafeText hsafe).namesNobody raw hraw hblank)
    · exact hmade

/-- At the minimal level every value without parts that is left is the entity's own, whatever it
shows. -/
theorem at_own_of_minimal (h : (s.scrub (some e) entityType (.level .minimal)).1 = .ok out)
    (hpart : PartOf out e part own) {keys : List Value} {key : Value} (hw : part.At keys key w)
    (hscalar : w.isScalar = true) : own.At keys key w := by
  obtain ⟨v, hv, hmade⟩ := origin_of_scrub h hpart hw
  have hleaf : IsLeaf w := by
    constructor
    · rintro fields rfl
      cases hscalar
    · rintro items rfl
      cases hscalar
  obtain ⟨name, _, hfate⟩ := hmade.fate hleaf
  cases hfate with
  | kept _ _ => exact hv
  | generalized strict _ _ => cases strict
  | token moderate _ => cases moderate

/-! ## A sample -/

/-- An entity with a key that mentions the tenant, and a number that shows the entity's identifier. -/
def indexedEntity : Entity :=
  { sampleEntity with
    id := .str "77"
    properties := .map [(.str "ACME-crm", .int 1), (.str "ref", .int 77)] }

def indexedResult : Except Fault Scrubbed :=
  (sampleScrubber.scrub (some indexedEntity) (.str "Note") (.level .minimal)).1

theorem indexedResult_at (key : String) (hkept : (indexedResult.toOption.any fun out =>
      (out.properties.field? key).any Value.isScalar) = true) :
    ∃ out w, indexedResult = .ok out ∧ out.properties.At [] (.str key) w ∧
      (Value.str key, w) ∈ [(Value.str "ACME-crm", Value.int 1), (.str "ref", .int 77)] := by
  obtain ⟨out, hout, hfield⟩ := exists_ok_of_any hkept
  obtain ⟨w, hat, hscalar⟩ := Value.exists_at_of_field? hfield
  have hown := at_own_of_minimal hout (Or.inl ⟨rfl, rfl⟩) hat hscalar
  refine ⟨out, w, hout, hat, ?_⟩
  change (Value.map [(.str "ACME-crm", .int 1), (.str "ref", .int 77)]).At [] _ _ at hown
  cases hown with
  | @field _ _ v _ mem within =>
    have hv : v.isScalar = true := by
      simp only [List.mem_cons, Prod.mk.injEq, List.not_mem_nil, or_false] at mem
      rcases mem with ⟨_, rfl⟩ | ⟨_, rfl⟩ <;> rfl
    rw [within.eq_of_isScalar hv]
    exact mem

theorem identifiers_survive :
    ∃ out, indexedResult = .ok out ∧
      indexedEntity.tenantId = .str "acme" ∧
      out.properties.At [] (.str "ACME-crm") (.int 1) ∧ Mentions "ACME-crm" "acme" ∧
      indexedEntity.id = .str "77" ∧
      out.properties.At [] (.str "ref") (.int 77) ∧ (Value.int 77).plain = .ok "77".toList := by
  obtain ⟨out, w, hout, hcrm, hw⟩ := indexedResult_at "ACME-crm" (by decide +kernel)
  obtain ⟨out', w', hout', href, hw'⟩ := indexedResult_at "ref" (by decide +kernel)
  rw [hout] at hout'
  cases hout'
  have hone : w = .int 1 := by simpa using hw
  have hseven : w' = .int 77 := by simpa using hw'
  have hmentions : Mentions "ACME-crm" "acme" := by
    unfold Mentions
    decide +kernel
  rw [hone] at hcrm
  rw [hseven] at href
  exact ⟨out, hout, rfl, hcrm, hmentions, rfl, href, rfl⟩

theorem identifiers_of_scrub_sample :
    ∃ out, indexedResult = .ok out ∧
      (∀ keys key w, out.properties.At keys key w → ∃ v, indexedEntity.properties.At keys key v) ∧
      (∀ keys key w, out.properties.At keys key w → ((∃ n, w = .int n) ∨ ∃ d, w = .decimal d) →
        indexedEntity.properties.At keys key w ∨ (Level.minimal = .strict ∧ ∃ v path,
          indexedEntity.properties.At keys key v ∧ v.generalizeDate path = .ok w)) ∧
      ∀ keys key text, out.properties.At keys key (.str text) → Mentions text "acme" →
        ∃ v, indexedEntity.properties.At keys key v ∧
          ((Level.minimal = .moderate ∧ sampleScrubber.hasher.tokenize v = .ok (.str text)) ∨
            (Level.minimal = .strict ∧ ∃ path, v.generalizeDate path = .ok (.str text))) := by
  have hisOk : indexedResult.isOk = true := by decide +kernel
  have htenant : indexedEntity.tenantId = .str "acme" := rfl
  obtain ⟨out, hout⟩ := exists_eq_ok hisOk
  exact ⟨out, hout, identifiers_of_scrub hout (Or.inr htenant) (by decide +kernel)
    (Or.inl ⟨rfl, rfl⟩)⟩

end ConsentGate.Scrub
