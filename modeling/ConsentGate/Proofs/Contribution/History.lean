import ConsentGate.Proofs.Consent.Coherence
import ConsentGate.Proofs.Contribution.Acceptance
import Mathlib.Data.List.Induction

/-! Every row was written under the consent in force at that moment.

A network runs through events of every kind in any order: consent is given, changed and withdrawn,
caches are told to forget, clocks go on, the ledger breaks and is repaired, entities are contributed.
What carries the induction is that the cache stays coherent with the source (`coherent_step`); under
it a step appends one row or none (`step_rows`), and the row repeats the record that the source holds
at that step. -/
namespace ConsentGate.Network
open Calendar Consent Ledger Scrub
set_option autoImplicit false

/-! ## Events -/

inductive Event where
  | change (c : Change)
  | contribute (e : Option Entity)
  | clocks (scrubbedAt : Timestamp) (ingestedAt : Value)
  | outage (fault : Option Fault)

/-- The network after an event. -/
def step (n : Network) : Event → Network
  | .change c => { n with validator := n.validator.apply c }
  | .contribute e => (n.contribute e).2
  | .clocks scrubbedAt ingestedAt =>
    { n with scrubber := { n.scrubber with clock := scrubbedAt }, ingestedAt := ingestedAt }
  | .outage fault => { n with store := { n.store with broken := fault } }

def run (n : Network) (events : List Event) : Network := events.foldl step n

/-- A network whose source tells its changes, and whose cache, if it has one, has just been made. -/
structure IsNew (n : Network) : Prop where
  source : ∃ answers, n.validator.source = .static answers true
  cache : ∀ c, n.validator.cache = some c → ∃ ttl capacity, Cache.make ttl capacity = .ok c

variable {n : Network} {e : Entity}

@[simp] theorem run_nil (n : Network) : n.run [] = n := rfl

theorem run_cons (n : Network) (event : Event) (rest : List Event) :
    n.run (event :: rest) = (n.step event).run rest := rfl

theorem run_append (n : Network) (events others : List Event) :
    n.run (events ++ others) = (n.run events).run others := List.foldl_append

theorem run_concat (n : Network) (events : List Event) (event : Event) :
    n.run (events ++ [event]) = (n.run events).step event := run_append n events [event]

/-! ## Coherence -/

theorem IsNew.coherent (h : n.IsNew) : n.validator.Coherent := by
  obtain ⟨answers, hsource⟩ := h.source
  refine ⟨by rw [hsource]; rfl, ?_⟩
  intro c hc entry hentry
  obtain ⟨ttl, capacity, hmake⟩ := h.cache c hc
  rw [Cache.make_entries hmake] at hentry
  cases hentry

theorem coherent_step (h : n.validator.Coherent) (event : Event) :
    (n.step event).validator.Coherent := by
  cases event with
  | change c => exact h.apply c
  | contribute e =>
    rcases validator_of_contribute n e with hsame | ⟨tenant, type, hdecided⟩
    · show (n.contribute e).2.validator.Coherent
      rw [hsame]
      exact h
    · show (n.contribute e).2.validator.Coherent
      rw [hdecided]
      exact h.validate tenant type
  | clocks scrubbedAt ingestedAt => exact h
  | outage fault => exact h

theorem coherent_run (h : n.validator.Coherent) (events : List Event) :
    (n.run events).validator.Coherent := by
  induction events generalizing n with
  | nil => exact h
  | cons event rest ih => exact ih (coherent_step h event)

/-! ## Rows -/

/-- The record in force for the tenant of an entity, if it grants the type of the entity. -/
def Permits (n : Network) (e : Entity) (r : Record) : Prop :=
  ∃ tenant type, e.tenantId = .str tenant ∧ e.type = .str type ∧
    n.validator.current? tenant = some r ∧ Validator.Grants r type

/-- A row tells under which level and which version of a record it was written. -/
structure Repeats (row : Row) (r : Record) : Prop where
  level : row.columns.lookup "scrubbing_level" = some (.str r.level.name)
  version : row.columns.lookup "consent_version" = some (.str r.version)

/-- An acceptance rests on the record in force, and its row repeats that record. -/
theorem Acceptance.permits_record (a : Acceptance n e) (h : n.validator.Coherent) :
    ∃ r, n.Permits e r ∧ Repeats a.row r := by
  obtain ⟨tenant, r, htenant, hcurrent, hgrants, hlevel, hversion⟩ := h.permits a.decides a.permits
  refine ⟨r, ⟨tenant, a.type, htenant, a.hasType, hcurrent, hgrants⟩, ?_, ?_⟩
  · rw [← hlevel]
    show some (Value.str a.row.provenance.level.name) = _
    rw [a.provenance_eq]
    rfl
  · rw [← hversion]
    show some (Value.str a.row.provenance.consentVersion) = _
    rw [a.provenance_eq]
    rfl

theorem Acceptance.rows_step (a : Acceptance n e) :
    (n.step (.contribute (some e))).store.rows = n.store.rows ++ [a.row] := by
  unfold step
  rw [a.store_eq]

/-- A step appends nothing, or one row that repeats the record in force. -/
theorem step_rows (h : n.validator.Coherent) (event : Event) :
    (n.step event).store.rows = n.store.rows ∨
      ∃ e row r, event = .contribute (some e) ∧
        (n.step event).store.rows = n.store.rows ++ [row] ∧ n.Permits e r ∧ Repeats row r := by
  cases event with
  | contribute e =>
    by_cases haccepted : (n.contribute e).1 = .ok .accepted
    · cases e with
      | none => cases haccepted
      | some e =>
        obtain ⟨a⟩ := contribute_accepted_iff.mp haccepted
        obtain ⟨r, hpermits, hrepeats⟩ := a.permits_record h
        exact Or.inr ⟨e, a.row, r, rfl, a.rows_step, hpermits, hrepeats⟩
    · left
      show (n.contribute e).2.store.rows = n.store.rows
      rw [store_of_not_accepted haccepted]
  | change c => exact Or.inl rfl
  | clocks scrubbedAt ingestedAt => exact Or.inl rfl
  | outage fault => exact Or.inl rfl

/-- A contribution that no record in force permits appends nothing. -/
theorem step_rows_of_not_permits (h : n.validator.Coherent) {e? : Option Entity}
    (hnot : ∀ e r, e? = some e → ¬n.Permits e r) :
    (n.step (.contribute e?)).store.rows = n.store.rows := by
  rcases step_rows h (.contribute e?) with hsame | ⟨e, _, r, hevent, _, hpermits, _⟩
  · exact hsame
  · cases hevent
    exact absurd hpermits (hnot e r rfl)

/-- Among the events there is a contribution before which the rows were `earlier` and which appended
`row`; the record then in force permits it, and the row repeats that record. -/
def WrittenUnder (n : Network) (events : List Event) (earlier : List Row) (row : Row) : Prop :=
  ∃ before e after r, events = before ++ .contribute (some e) :: after ∧
    (n.run before).store.rows = earlier ∧
    ((n.run before).step (.contribute (some e))).store.rows = earlier ++ [row] ∧
    (n.run before).Permits e r ∧ Repeats row r

/-- What happens later does not touch how a row was written. -/
theorem WrittenUnder.append {events : List Event} {earlier : List Row} {row : Row}
    (h : n.WrittenUnder events earlier row) (others : List Event) :
    n.WrittenUnder (events ++ others) earlier row := by
  obtain ⟨before, e, after, r, hsplit, hrest⟩ := h
  refine ⟨before, e, after ++ others, r, ?_, hrest⟩
  rw [hsplit, List.append_assoc, List.cons_append]

/-- Rows are only appended, each of them by one contribution of the run. -/
theorem run_rows (h : n.validator.Coherent) (events : List Event) :
    ∃ appended, (n.run events).store.rows = n.store.rows ++ appended ∧
      ∀ i row, appended[i]? = some row →
        n.WrittenUnder events (n.store.rows ++ appended.take i) row := by
  -- The induction is on the last event, since that is where the latest row comes from.
  induction events using List.reverseRecOn with
  | nil => exact ⟨[], by simp, fun i row hi => by simp at hi⟩
  | append_singleton events event ih =>
    obtain ⟨appended, hrows, hold⟩ := ih
    rcases step_rows (coherent_run h events) event with hsame | ⟨e, row, r, hevent, hadds, hnew⟩
    · refine ⟨appended, ?_, ?_⟩
      · rw [run_concat, hsame, hrows]
      · intro i row hi
        exact (hold i row hi).append [event]
    · refine ⟨appended ++ [row], ?_, ?_⟩
      · rw [run_concat, hadds, hrows, List.append_assoc]
      · intro i other hi
        rcases Nat.lt_trichotomy i appended.length with hlt | heq | hgt
        · rw [List.getElem?_append_left hlt] at hi
          rw [List.take_append_of_le_length (Nat.le_of_lt hlt)]
          exact (hold i other hi).append [event]
        · subst heq
          rw [List.getElem?_concat_length] at hi
          rw [List.take_left' rfl, ← hrows]
          cases hi
          rw [hevent] at hadds ⊢
          exact ⟨events, e, [], r, rfl, rfl, hadds, hnew⟩
        · have hout : (appended ++ [row]).length ≤ i := by
            rw [List.length_append, List.length_singleton]
            omega
          rw [List.getElem?_eq_none hout] at hi
          cases hi

/-- From a new network, through whatever happens: the rows there are stay, and each row appended was
appended by a contribution that the record then in force permits, under the level and the version of
that record. A contribution that no record in force permits appends nothing. -/
theorem rows_under_consent (h : n.IsNew) (events : List Event) :
    (∃ appended, (n.run events).store.rows = n.store.rows ++ appended ∧
      ∀ i row, appended[i]? = some row →
        n.WrittenUnder events (n.store.rows ++ appended.take i) row) ∧
      ∀ e?, (∀ e r, e? = some e → ¬(n.run events).Permits e r) →
        ((n.run events).step (.contribute e?)).store.rows = (n.run events).store.rows :=
  ⟨run_rows h.coherent events,
    fun _ hnot => step_rows_of_not_permits (coherent_run h.coherent events) hnot⟩

theorem isNew_sample : sampleNetwork.IsNew := by
  refine ⟨⟨_, rfl⟩, ?_⟩
  intro c hc
  cases hc
  exact ⟨.int 300, 10, rfl⟩

/-- The tenant of the sample contributes, withdraws its consent, and contributes once more. -/
def sampleEvents : List Event :=
  [.contribute (some sampleEntity), .change (.remove "acme"), .contribute (some sampleEntity)]

theorem rows_under_consent_sample :
    sampleNetwork.IsNew ∧ (∃ row, ((sampleNetwork.run sampleEvents).store.rows)[0]? = some row) ∧
      (∃ appended, (sampleNetwork.run sampleEvents).store.rows =
          sampleNetwork.store.rows ++ appended ∧
        ∀ i row, appended[i]? = some row → sampleNetwork.WrittenUnder sampleEvents
          (sampleNetwork.store.rows ++ appended.take i) row) ∧
      ∀ e?, (∀ e r, e? = some e → ¬(sampleNetwork.run sampleEvents).Permits e r) →
        ((sampleNetwork.run sampleEvents).step (.contribute e?)).store.rows =
          (sampleNetwork.run sampleEvents).store.rows := by
  refine ⟨isNew_sample, ?_, rows_under_consent isNew_sample sampleEvents⟩
  obtain ⟨a⟩ := exists_acceptance_sample
  -- The row of the first step stays in front, whatever the later ones append.
  have hcoherent := coherent_step isNew_sample.coherent (.contribute (some sampleEntity))
  obtain ⟨appended, hrows, _⟩ := run_rows hcoherent
    [.change (.remove "acme"), .contribute (some sampleEntity)]
  have hempty : sampleNetwork.store.rows = [] := rfl
  refine ⟨a.row, ?_⟩
  unfold sampleEvents
  rw [run_cons, hrows, a.rows_step, hempty, List.nil_append, List.singleton_append,
    List.getElem?_cons_zero]

end ConsentGate.Network
