import ConsentGate.Proofs.Contribution.Acceptance

/-! Where the tenant of an entity shows in the row of its contribution.

A source that is a text and mentions the tenant is left out of the row. The domain is inferred from the
entity before it is scrubbed, and a source that is no text is not looked into; so the domain and such a
source are stored with whatever they mention. `conceals_iff` says exactly when neither column mentions
the tenant. -/
namespace ConsentGate.Network
open Consent Ledger Scrub Text
set_option autoImplicit false

/-- Neither the domain nor the source of a row mentions a tenant. -/
def Conceals (row : Row) (tenant : String) : Prop :=
  ∀ column ∈ ["domain", "source"], ∀ text, row.columns.lookup column = some (.str text) →
    ¬Mentions text tenant

theorem conceals_iff_columns {row : Row} {tenant : String} :
    Conceals row tenant ↔ ¬Mentions row.provenance.domain tenant ∧
      ∀ text, row.source = some text → ¬Mentions text tenant := by
  have hdomain : row.columns.lookup "domain" = some (.str row.provenance.domain) := rfl
  have hsource : row.columns.lookup "source" = some ((row.source.map Value.str).getD .null) := rfl
  constructor
  · intro h
    refine ⟨h "domain" (by decide) _ hdomain, ?_⟩
    intro text htext
    rw [htext] at hsource
    exact h "source" (by decide) text hsource
  · rintro ⟨hd, hs⟩ column hcolumn text htext
    rcases List.mem_cons.mp hcolumn with rfl | hcolumn
    · rw [hdomain] at htext
      cases htext
      exact hd
    · rw [List.mem_singleton.mp hcolumn, hsource] at htext
      cases hrow : row.source with
      | none =>
        rw [hrow] at htext
        cases htext
      | some shown =>
        rw [hrow] at htext
        cases htext
        exact hs text hrow

variable {n : Network} {e : Entity} {tenant : String}

namespace Acceptance

/-- The domain stands in the row as it was inferred from the entity. -/
theorem domain_eq (a : Acceptance n e) : a.row.provenance.domain = e.domain := by
  rw [a.provenance_eq]
  rfl

/-- The source stands in the row as the scrubbed entity has it. -/
theorem source_eq (a : Acceptance n e) :
    Cell.columnText (sourceShown
      (n.scrubber.context e (Value.str a.type).messageText a.decision.level) e.source) =
      .ok a.row.source := by
  obtain ⟨w⟩ := exists_whole a.scrubs
  have hsource := (Row.shows a.writes).source
  rw [(Draft.encodes a.drafts).source, w.outSource] at hsource
  exact hsource

/-- A source that is a text does not mention the tenant once it is stored. -/
theorem source_of_isStr (a : Acceptance n e) (htenant : e.tenantId = .str tenant)
    (hblank : allBlank tenant.toList = false) (hstr : e.source.isStr = true) {text : String}
    (htext : a.row.source = some text) : ¬Mentions text tenant := by
  obtain ⟨source, hsource⟩ := Value.isStr_iff.mp hstr
  have hcolumn := a.source_eq
  rw [hsource, sourceShown, htext] at hcolumn
  split at hcolumn
  · rw [Cell.columnText_null] at hcolumn
    cases hcolumn
  · rename_i hreferences
    rw [Cell.columnText_str] at hcolumn
    cases hcolumn
    have hreferences := Bool.eq_false_iff.mpr hreferences
    exact not_mentions_of_referencesIdentity hreferences (Or.inr htenant) hblank

/-- A source that is a text and mentions the tenant is left out. -/
theorem source_of_mentions (a : Acceptance n e) (htenant : e.tenantId = .str tenant)
    (hblank : allBlank tenant.toList = false) {text : String} (hsource : e.source = .str text)
    (hmentions : Mentions text tenant) : a.row.source = none := by
  cases hrow : a.row.source with
  | none => rfl
  | some shown =>
    have hcolumn := a.source_eq
    rw [hsource, sourceShown, hrow] at hcolumn
    split at hcolumn
    · rw [Cell.columnText_null] at hcolumn
      cases hcolumn
    · rename_i hreferences
      have hreferences := Bool.eq_false_iff.mpr hreferences
      exact absurd hmentions
        (not_mentions_of_referencesIdentity hreferences (Or.inr htenant) hblank)

/-- A source that is no text is stored as its column shows it. -/
theorem source_of_not_isStr (a : Acceptance n e) (hstr : e.source.isStr = false) :
    Cell.columnText e.source = .ok a.row.source := by
  have hcolumn := a.source_eq
  unfold sourceShown at hcolumn
  split at hcolumn
  · rename_i text hsource
    rw [hsource] at hstr
    cases hstr
  · exact hcolumn

end Acceptance

/-- The row of an accepted contribution conceals the tenant exactly if the domain inferred from the
entity does not mention it, and neither does a source that is no text. -/
theorem conceals_iff (htenant : e.tenantId = .str tenant) (hblank : allBlank tenant.toList = false)
    (haccepted : (n.contribute (some e)).1 = .ok .accepted) :
    ∃ row, (n.contribute (some e)).2.store.rows = n.store.rows ++ [row] ∧
      (Conceals row tenant ↔ ¬Mentions e.domain tenant ∧
        (e.source.isStr = false → ∀ text, Cell.columnText e.source = .ok (some text) →
          ¬Mentions text tenant)) := by
  obtain ⟨a⟩ := contribute_accepted_iff.mp haccepted
  refine ⟨a.row, congrArg Store.rows a.store_eq, ?_⟩
  rw [conceals_iff_columns, a.domain_eq]
  refine and_congr_right fun _ => ?_
  constructor
  · intro h hstr text htext
    rw [a.source_of_not_isStr hstr] at htext
    exact h text (Except.ok.inj htext)
  · intro h text htext
    cases hstr : e.source.isStr with
    | true => exact a.source_of_isStr htenant hblank hstr htext
    | false =>
      refine h hstr text ?_
      rw [a.source_of_not_isStr hstr, htext]

theorem conceals_iff_sample :
    ∃ row, (sampleNetwork.contribute (some sampleEntity)).2.store.rows =
        sampleNetwork.store.rows ++ [row] ∧
      (Conceals row "acme" ↔ ¬Mentions sampleEntity.domain "acme" ∧
        (sampleEntity.source.isStr = false → ∀ text,
          Cell.columnText sampleEntity.source = .ok (some text) → ¬Mentions text "acme")) :=
  conceals_iff rfl (by decide) (contribute_accepted_iff.mpr exists_acceptance_sample)

/-! ## A domain that mentions the tenant -/

/-- The sample entity, with a source that begins with its tenant. -/
def namedEntity : Entity := { sampleEntity with source := .str "ACME.Notes" }

/-- It is accepted. Its row has no source, but still shows the tenant for the domain. -/
theorem not_conceals_namedEntity :
    namedEntity.tenantId = .str "acme" ∧ allBlank "acme".toList = false ∧
      (sampleNetwork.contribute (some namedEntity)).1 = .ok .accepted ∧
      ∃ row, (sampleNetwork.contribute (some namedEntity)).2.store.rows =
          sampleNetwork.store.rows ++ [row] ∧
        row.columns.lookup "source" = some .null ∧
        row.columns.lookup "domain" = some (.str "ACME") ∧ ¬Conceals row "acme" := by
  have haccepts : Nonempty (Acceptance sampleNetwork namedEntity) := by
    refine exists_acceptance_of_note rfl rfl ?_
    decide +kernel
  obtain ⟨a⟩ := haccepts
  have hsource : a.row.source = none := by
    refine a.source_of_mentions rfl (by decide) rfl ?_
    unfold Mentions
    decide +kernel
  have hdomain : a.row.provenance.domain = "ACME" := by
    rw [a.domain_eq]
    decide +kernel
  have hmentions : Mentions "ACME" "acme" := by
    unfold Mentions
    decide +kernel
  refine ⟨rfl, by decide, contribute_accepted_iff.mpr ⟨a⟩, a.row, congrArg Store.rows a.store_eq,
    ?_, ?_, ?_⟩
  · show some ((a.row.source.map Value.str).getD .null) = some .null
    rw [hsource]
    rfl
  · show some (Value.str a.row.provenance.domain) = some (.str "ACME")
    rw [hdomain]
  · intro hconceals
    have hhidden := (conceals_iff_columns.mp hconceals).1
    rw [hdomain] at hhidden
    exact hhidden hmentions

end ConsentGate.Network
