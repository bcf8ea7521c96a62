import ConsentGate.Proofs.Calendar.Instants
import ConsentGate.Proofs.Ledger.Encoding

/-! How an append can end.

An append of a scrubbed entity adds one row, or is refused by name and leaves the ledger as it was:
whatever the values, and whether the ledger can be reached or not. There is one way past this: a time
whose instant lies outside the years 1 to 9999 has no UTC form, and this fault is passed on as it is
(`Store.contained_iff`). -/
namespace ConsentGate.Ledger
open Calendar Scrub
set_option autoImplicit false

/-! ## Attributes of the declared types -/

/-- The times of an entity and of its provenance, in the order in which they are encoded. -/
def times (s : Scrubbed) (p : Provenance) : List Value :=
  [p.ingestedAt, s.createdAt, s.updatedAt, s.deletedAt]

/-- A timestamp, or nothing. -/
def IsTime (v : Value) : Prop := v = .null ∨ ∃ t, v = .datetime t

/-- The attributes are of the types they are declared with. In properties and metadata any value may
stand, as long as the keys are texts. -/
structure WellTyped (s : Scrubbed) (p : Provenance) : Prop where
  id : s.id.isStr = true
  type : s.type.isStr = true
  version : s.version.isStr = true
  source : s.source = .null ∨ s.source.isStr = true
  isDeleted : ∃ b, s.isDeleted = .bool b
  times : ∀ v ∈ times s p, IsTime v
  properties : s.properties.isTextKeyed = true
  metadata : s.metadata.isTextKeyed = true

/-- The instant lies in the years 1 to 9999. -/
def InRange (v : Value) : Prop :=
  ∀ t, v = .datetime t → 0 ≤ t.instant ∧ t.instant < Timestamp.endMicros

variable {s : Scrubbed} {p : Provenance} {l : Store}

/-! ## Drafts -/

theorem timeColumn_cases {v : Value} (h : IsTime v) :
    (InRange v ∧ ∃ column, timeColumn v = .ok column) ∨
      (¬InRange v ∧ timeColumn v = .error .outOfRange) := by
  rcases h with rfl | ⟨t, rfl⟩
  · refine Or.inl ⟨?_, none, rfl⟩
    intro t ht
    cases ht
  · rw [timeColumn]
    cases hu : t.toUtc? with
    | none =>
      refine Or.inr ⟨fun hrange => ?_, rfl⟩
      have hinside := hrange t rfl
      have houtside := Timestamp.toUtc?_eq_none_iff.mp hu
      omega
    | some u =>
      refine Or.inl ⟨?_, some u, rfl⟩
      rintro _ ⟨⟩
      by_cases houtside : t.instant < 0 ∨ Timestamp.endMicros ≤ t.instant
      · rw [Timestamp.toUtc?_eq_none_iff.mpr houtside] at hu
        cases hu
      · omega

/-- Times are encoded before anything else: one without a UTC form ends it. -/
theorem Draft.of_of_not_inRange (h : WellTyped s p) (hrange : ¬∀ v ∈ times s p, InRange v) :
    Draft.of s p = .error .outOfRange := by
  obtain ⟨hingested, hcreated, hupdated, hdeleted⟩ : IsTime p.ingestedAt ∧ IsTime s.createdAt ∧
      IsTime s.updatedAt ∧ IsTime s.deletedAt := by
    simpa [times] using h.times
  unfold Draft.of
  rcases timeColumn_cases hingested with ⟨hingested, ingestedAt, heq⟩ | ⟨_, heq⟩
  · rw [heq]
    rcases timeColumn_cases hcreated with ⟨hcreated, createdAt, heq⟩ | ⟨_, heq⟩
    · rw [heq]
      rcases timeColumn_cases hupdated with ⟨hupdated, updatedAt, heq⟩ | ⟨_, heq⟩
      · rw [heq]
        rcases timeColumn_cases hdeleted with ⟨hdeleted, deletedAt, heq⟩ | ⟨_, heq⟩
        · refine absurd ?_ hrange
          simpa [times] using ⟨hingested, hcreated, hupdated, hdeleted⟩
        · rw [heq]
          rfl
      · rw [heq]
        rfl
    · rw [heq]
      rfl
  · rw [heq]
    rfl

/-- With all times in range, either the entity has a draft or its parts have no text. -/
theorem Draft.of_of_inRange (h : WellTyped s p) (hrange : ∀ v ∈ times s p, InRange v) :
    (∃ d, Draft.of s p = .ok d) ∨ ∃ f, Draft.of s p = .error f ∧ Value.IsValueFault f ∧
      (s.properties.json = .error f ∨ s.metadata.json = .error f) := by
  have hcolumn : ∀ v ∈ times s p, ∃ column, timeColumn v = .ok column := by
    intro v hv
    rcases timeColumn_cases (h.times v hv) with ⟨_, hok⟩ | ⟨hout, _⟩
    · exact hok
    · exact absurd (hrange v hv) hout
  obtain ⟨ingestedAt, hingested⟩ := hcolumn p.ingestedAt (by simp [times])
  obtain ⟨createdAt, hcreated⟩ := hcolumn s.createdAt (by simp [times])
  obtain ⟨updatedAt, hupdated⟩ := hcolumn s.updatedAt (by simp [times])
  obtain ⟨deletedAt, hdeleted⟩ := hcolumn s.deletedAt (by simp [times])
  unfold Draft.of
  rw [hingested, hcreated, hupdated, hdeleted]
  cases hproperties : s.properties.json with
  | error f => exact Or.inr ⟨f, rfl, Value.json_fault _ h.properties hproperties, Or.inl rfl⟩
  | ok properties =>
    cases hmetadata : s.metadata.json with
    | error f => exact Or.inr ⟨f, rfl, Value.json_fault _ h.metadata hmetadata, Or.inr rfl⟩
    | ok metadata => exact Or.inl ⟨_, rfl⟩

theorem exists_draft_iff (h : WellTyped s p) :
    (∃ d, Draft.of s p = .ok d) ↔ (∀ v ∈ times s p, InRange v) ∧
      (∃ text, s.properties.json = .ok text) ∧ ∃ text, s.metadata.json = .ok text := by
  constructor
  · rintro ⟨d, hd⟩
    have hencodes := Draft.encodes hd
    refine ⟨?_, ⟨_, hencodes.properties⟩, ⟨_, hencodes.metadata⟩⟩
    by_cases hrange : ∀ v ∈ times s p, InRange v
    · exact hrange
    · rw [Draft.of_of_not_inRange h hrange] at hd
      cases hd
  · rintro ⟨hrange, ⟨properties, hproperties⟩, metadata, hmetadata⟩
    rcases Draft.of_of_inRange h hrange with hd | ⟨f, _, _, hf | hf⟩
    · exact hd
    · rw [hproperties] at hf
      cases hf
    · rw [hmetadata] at hf
      cases hf

theorem exists_row (h : WellTyped s p) {d : Draft} (hd : Draft.of s p = .ok d) :
    ∃ r, Row.of d = .ok r := by
  have hencodes := Draft.encodes hd
  obtain ⟨deleted, hdeleted⟩ := h.isDeleted
  refine Row.exists_of_texts ?_ ?_ ?_ ?_ (hencodes.isDeleted.trans hdeleted)
  · rw [hencodes.id]
    exact h.id
  · rw [hencodes.type]
    exact h.type
  · rw [hencodes.version]
    exact h.version
  · rw [hencodes.source]
    exact h.source

/-! ## Appends -/

namespace Store

/-- The ways in which an append to a ledger may end: with one row more, or refused by name with the
ledger as it was. -/
inductive Contained (l : Store) : Except Fault Unit × Log × Store → Prop
  | appended (row : Row) (log : Log) : Contained l (.ok (), log, { l with rows := l.rows ++ [row] })
  | refused (f : Failure) (log : Log) (kind : f.kind = .storage ∨ f.kind = .invalidArgument) :
      Contained l (.error (.named f), log, l)

theorem encodingFault_of_isValueFault {f : Fault} (h : Value.IsValueFault f) :
    encodingFault f = .named (encodingFailure f) := by
  rcases h with ⟨typeName, rfl⟩ | rfl
  · rfl
  · rfl

/-- What is no scrubbed entity, or has no provenance, is refused. -/
theorem contained_of_none (l : Store) (s : Option Scrubbed) (p : Option Provenance)
    (h : s = none ∨ p = none) : Contained l (l.append s p) := by
  cases s with
  | none => exact .refused _ _ (Or.inr rfl)
  | some s =>
    cases p with
    | none => exact .refused _ _ (Or.inr rfl)
    | some p => rcases h with h | h <;> cases h

theorem contained_of_inRange (h : WellTyped s p) (hrange : ∀ v ∈ times s p, InRange v) (l : Store) :
    Contained l (l.append (some s) (some p)) := by
  rcases Draft.of_of_inRange h hrange with ⟨d, hd⟩ | ⟨f, hf, hfault, _⟩
  · cases hr : l.rowFor d with
    | error f =>
      simp only [append, hd, hr]
      exact .refused _ _ (Or.inl rfl)
    | ok r =>
      simp only [append, hd, hr]
      exact .appended r _
  · simp only [append, hf, encodingFault_of_isValueFault hfault]
    exact .refused _ _ (Or.inl rfl)

theorem append_of_not_inRange (h : WellTyped s p) (hrange : ¬∀ v ∈ times s p, InRange v) (l : Store) :
    l.append (some s) (some p) = (.error .outOfRange, [], l) := by
  simp only [append, Draft.of_of_not_inRange h hrange]
  rfl

/-- When an append succeeds. -/
theorem append_ok_iff (h : WellTyped s p) (l : Store) :
    (l.append (some s) (some p)).1 = .ok () ↔ (∀ v ∈ times s p, InRange v) ∧ l.broken = none ∧
      (∃ text, s.properties.json = .ok text) ∧ ∃ text, s.metadata.json = .ok text := by
  constructor
  · intro hok
    obtain ⟨d, _, hd, hbroken, _⟩ := append_ok hok
    obtain ⟨hrange, htexts⟩ := (exists_draft_iff h).mp ⟨d, hd⟩
    exact ⟨hrange, hbroken, htexts⟩
  · rintro ⟨hrange, hbroken, htexts⟩
    obtain ⟨d, hd⟩ := (exists_draft_iff h).mpr ⟨hrange, htexts⟩
    obtain ⟨r, hr⟩ := exists_row h hd
    rw [append_eq hd hbroken hr]

/-- An append is contained exactly if all times are in range, and any other ends with a fault that the
ledger does not name. It succeeds exactly if, besides, the ledger can be reached and properties and
metadata have a text. -/
theorem contained_iff (h : WellTyped s p) (l : Store) :
    (Contained l (l.append (some s) (some p)) ↔ ∀ v ∈ times s p, InRange v) ∧
      ((¬∀ v ∈ times s p, InRange v) →
        l.append (some s) (some p) = (.error .outOfRange, [], l)) ∧
      ((l.append (some s) (some p)).1 = .ok () ↔ (∀ v ∈ times s p, InRange v) ∧ l.broken = none ∧
        (∃ text, s.properties.json = .ok text) ∧ ∃ text, s.metadata.json = .ok text) ∧
      Contained l (l.append none (some p)) ∧ Contained l (l.append (some s) none) := by
  refine ⟨⟨?_, fun hrange => contained_of_inRange h hrange l⟩,
    fun hrange => append_of_not_inRange h hrange l, append_ok_iff h l,
    contained_of_none l _ _ (Or.inl rfl), contained_of_none l _ _ (Or.inr rfl)⟩
  intro hcontained
  by_cases hrange : ∀ v ∈ times s p, InRange v
  · exact hrange
  · rw [append_of_not_inRange h hrange] at hcontained
    cases hcontained

/-! ### A sample -/

/-- Made on the first day of year 1, five hours ahead of UTC. -/
def earlyScrubbed : Scrubbed where
  id := .str "3f2a9c0d1e4b5a69"
  type := .str "Client"
  properties := .map []
  metadata := .map [(.str "scrubbed", .bool true)]
  audit := ⟨.str "Client", .strict, "2", {}⟩
  version := .str "1.0"
  source := .null
  createdAt := .datetime ⟨⟨1, 1, 1, by decide⟩, midnight, some ⟨18000000000, by decide⟩⟩
  updatedAt := .null
  isDeleted := .bool false
  deletedAt := .null

def sampleProvenance : Provenance where
  domain := "Wealth"
  entityType := "Client"
  tenantHash := "a1b2"
  level := .strict
  consentVersion := "2.0"
  ingestedAt := .datetime ⟨⟨2024, 4, 2, by decide⟩, midnight, some utc⟩

theorem wellTyped_early : WellTyped earlyScrubbed sampleProvenance where
  id := rfl
  type := rfl
  version := rfl
  source := Or.inl rfl
  isDeleted := ⟨false, rfl⟩
  times := by
    simp [times, IsTime, earlyScrubbed, sampleProvenance]
  properties := rfl
  metadata := rfl

theorem not_inRange_early : ¬∀ v ∈ times earlyScrubbed sampleProvenance, InRange v := by
  intro hrange
  have hearly := hrange earlyScrubbed.createdAt (by simp [times]) _ rfl
  exact absurd hearly.1 (by decide)

theorem contained_iff_sample :
    WellTyped earlyScrubbed sampleProvenance ∧
      (Contained {} (append {} (some earlyScrubbed) (some sampleProvenance)) ↔
        ∀ v ∈ times earlyScrubbed sampleProvenance, InRange v) ∧
      append {} (some earlyScrubbed) (some sampleProvenance) = (.error .outOfRange, [], {}) := by
  obtain ⟨hcontained, hout, _⟩ := contained_iff wellTyped_early {}
  exact ⟨wellTyped_early, hcontained, hout not_inRange_early⟩

/-- The fault is none that the ledger names. -/
theorem not_contained_early :
    WellTyped earlyScrubbed sampleProvenance ∧
      ¬Contained {} (append {} (some earlyScrubbed) (some sampleProvenance)) := by
  refine ⟨wellTyped_early, ?_⟩
  rw [append_of_not_inRange wellTyped_early not_inRange_early]
  intro hcontained
  cases hcontained

end Store

end ConsentGate.Ledger
