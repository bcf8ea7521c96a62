import ConsentGate.Proofs.Calendar.Instants
import ConsentGate.Proofs.Contribution.Acceptance

/-! Months in the time columns of strict contributions.

At the strict level a time is cut to the first instant of its month at its own offset, and the ledger then
shows this instant in UTC. The two steps agree on the month only where the clock is not ahead of UTC, and
on the first instant only where it shows UTC (`columns_of_strict`): east of UTC a month begins while UTC
still has the month before. -/
namespace ConsentGate
open Calendar Consent Ledger Scrub Text
set_option autoImplicit false

/-! ## Strict contributions -/

namespace Network
open Collaborators

variable {n : Network} {e : Entity}

/-- The column of a time is empty, or shows the first instant in UTC of the month of that time. -/
def KeepsMonth (time column : Value) : Prop :=
  column = .null ∨
    ∃ t : Timestamp, time = .datetime t ∧ column = .datetime ⟨t.date.monthStart, midnight, some utc⟩

/-- `ShowsMonthOf time column`: the column has nothing where there is no time; otherwise the time is the
first instant of a month, and the column shows the same instant in UTC. So the month is kept exactly
if the clock of the time shows UTC; ahead of UTC, not even its year and number are. -/
inductive ShowsMonthOf : Value → Value → Prop
  | nothing : ShowsMonthOf .null .null
  | time {t u : Timestamp} (starts : t.StartsMonth) (utc : u.offset = some utc)
      (instant : u.instant = t.instant) (keeps : KeepsMonth (.datetime t) (.datetime u) ↔ t.ahead = 0)
      (month : (u.date.year = t.date.year ∧ u.date.month = t.date.month) ↔ t.ahead ≤ 0) :
      ShowsMonthOf (.datetime t) (.datetime u)

theorem keepsMonth_iff {t u : Timestamp} (hstarts : t.StartsMonth) (hutc : u.offset = some utc)
    (hinstant : u.instant = t.instant) :
    KeepsMonth (.datetime t) (.datetime u) ↔ t.ahead = 0 := by
  have hdate : t.date.monthStart = t.date := congrArg Timestamp.date hstarts
  rw [← hstarts.utc_iff hutc hinstant]
  constructor
  · rintro (hnull | ⟨t', htime, hcolumn⟩)
    · cases hnull
    · cases htime
      rw [hdate] at hcolumn
      exact Value.datetime.inj hcolumn
  · intro hu
    refine Or.inr ⟨t, rfl, ?_⟩
    rw [hdate]
    exact congrArg Value.datetime hu

theorem showsMonthOf_timeColumn {own time : Value} {column : Option Timestamp}
    (hbase : baseTime .strict own = .ok time) (hcolumn : timeColumn time = .ok column) :
    ShowsMonthOf time (Value.ofTime column) := by
  cases own with
  | null =>
    cases hbase
    cases hcolumn
    exact .nothing
  | datetime t =>
    cases hbase
    rw [timeColumn] at hcolumn
    cases hu : t.monthStart.toUtc? with
    | none =>
      rw [hu] at hcolumn
      cases hcolumn
    | some u =>
      rw [hu] at hcolumn
      cases hcolumn
      obtain ⟨hutc, hinstant⟩ := Timestamp.toUtc?_eq_some_iff.mp hu
      have hstarts := t.startsMonth_monthStart
      exact .time hstarts hutc hinstant (keepsMonth_iff hstarts hutc hinstant)
        (hstarts.month_iff hutc hinstant)
  | _ => cases hbase

theorem Acceptance.showsMonthOf (a : Acceptance n e) (hstrict : a.decision.level = .strict) :
    ∀ name time, (name, time) ∈ [("created_at", a.scrubbed.createdAt),
      ("updated_at", a.scrubbed.updatedAt), ("deleted_at", a.scrubbed.deletedAt)] →
        ∃ column, a.row.columns.lookup name = some column ∧ ShowsMonthOf time column := by
  have hscrubs := a.scrubs
  rw [hstrict] at hscrubs
  obtain ⟨w⟩ := exists_whole hscrubs
  have hencodes := Draft.encodes a.drafts
  have hshows := Row.shows a.writes
  intro name time hmem
  simp only [List.mem_cons, Prod.mk.injEq, List.not_mem_nil, or_false] at hmem
  rcases hmem with ⟨rfl, rfl⟩ | ⟨rfl, rfl⟩ | ⟨rfl, rfl⟩
  · have hcolumn := hencodes.createdAt
    rw [← hshows.createdAt] at hcolumn
    exact ⟨_, rfl, showsMonthOf_timeColumn w.outCreatedAt hcolumn⟩
  · have hcolumn := hencodes.updatedAt
    rw [← hshows.updatedAt] at hcolumn
    exact ⟨_, rfl, showsMonthOf_timeColumn w.outUpdatedAt hcolumn⟩
  · have hcolumn := hencodes.deletedAt
    rw [← hshows.deletedAt] at hcolumn
    exact ⟨_, rfl, showsMonthOf_timeColumn w.outDeletedAt hcolumn⟩

theorem Acceptance.decision_eq (a : Acceptance n e) {d : Decision}
    (h : (n.validator.validate e.tenantId e.type).1 = .ok d) : a.decision = d := by
  have hsame := a.decides
  rw [← a.hasType, h] at hsame
  exact (Except.ok.inj hsame).symm

/-- What a strict contribution leaves in the time columns of its row. -/
theorem columns_of_strict {d : Decision} (h : (n.contribute (some e)).1 = .ok .accepted)
    (hdecides : (n.validator.validate e.tenantId e.type).1 = .ok d) (hstrict : d.level = .strict) :
    ∃ x row, (n.scrubber.scrub (some e) e.type (.level .strict)).1 = .ok x ∧
      (n.contribute (some e)).2.store.rows = n.store.rows ++ [row] ∧
      ∀ name time, (name, time) ∈ [("created_at", x.createdAt), ("updated_at", x.updatedAt),
        ("deleted_at", x.deletedAt)] →
          ∃ column, row.columns.lookup name = some column ∧ ShowsMonthOf time column := by
  obtain ⟨a⟩ := contribute_accepted_iff.mp h
  have hlevel : a.decision.level = .strict := by
    rw [a.decision_eq hdecides]
    exact hstrict
  have hscrubs := a.scrubs
  rw [hlevel, ← a.hasType] at hscrubs
  exact ⟨a.scrubbed, a.row, hscrubs, congrArg Store.rows a.store_eq, a.showsMonthOf hlevel⟩

/-! ### A sample -/

/-- A network whose tenant shares its notes at the strict level. -/
def strictNetwork : Network :=
  { sampleNetwork with
    validator :=
      { source := .static [("acme", .record ⟨true, .strict, "2.1", ["Note"], none⟩)] true
        cache := some ⟨.whole 300, 10, [], 0⟩ } }

/-- A note that was made in March, five hours ahead of UTC. -/
def easternEntity : Entity :=
  { sampleEntity with
    createdAt := .datetime ⟨⟨2024, 3, 14, validDate_march⟩, ⟨15, 0, 0, 0, by decide⟩,
      some ⟨18000000000, validOffset_fiveHours⟩⟩ }

theorem strictNetwork_decides :
    (strictNetwork.validator.validate easternEntity.tenantId easternEntity.type).1 =
      .ok ⟨true, .strict, "2.1", true⟩ := rfl

theorem strictNetwork_accepts :
    (strictNetwork.contribute (some easternEntity)).1 = .ok .accepted := by
  have hstorable : (sampleScrubber.scrub (some easternEntity) (.str "Note")
      (.level .strict)).1.toOption.any isStorable = true := by decide +kernel
  obtain ⟨x, hx, hstorable⟩ := exists_ok_of_any hstorable
  exact contribute_accepted_iff.mpr (exists_acceptance rfl (by decide) strictNetwork_decides rfl hx
    hstorable rfl rfl)

theorem columns_of_strict_sample :
    (strictNetwork.contribute (some easternEntity)).1 = .ok .accepted ∧
      ∃ x row, (strictNetwork.scrubber.scrub (some easternEntity) easternEntity.type
          (.level .strict)).1 = .ok x ∧
        (strictNetwork.contribute (some easternEntity)).2.store.rows =
          strictNetwork.store.rows ++ [row] ∧
        ∀ name time, (name, time) ∈ [("created_at", x.createdAt), ("updated_at", x.updatedAt),
          ("deleted_at", x.deletedAt)] →
            ∃ column, row.columns.lookup name = some column ∧ ShowsMonthOf time column :=
  ⟨strictNetwork_accepts,
    columns_of_strict strictNetwork_accepts strictNetwork_decides rfl⟩

/-- The note is stored as one of the month before. -/
theorem not_keepsMonth_easternEntity :
    (strictNetwork.contribute (some easternEntity)).1 = .ok .accepted ∧
      ∃ x row column,
        (strictNetwork.scrubber.scrub (some easternEntity) easternEntity.type
          (.level .strict)).1 = .ok x ∧
        (strictNetwork.contribute (some easternEntity)).2.store.rows =
          strictNetwork.store.rows ++ [row] ∧
        row.columns.lookup "created_at" = some column ∧ ¬KeepsMonth x.createdAt column := by
  obtain ⟨a⟩ := contribute_accepted_iff.mp strictNetwork_accepts
  have hlevel : a.decision.level = .strict := by
    rw [a.decision_eq strictNetwork_decides]
  have hscrubs := a.scrubs
  rw [hlevel] at hscrubs
  obtain ⟨w⟩ := exists_whole hscrubs
  have hcreated : a.scrubbed.createdAt = .datetime ⟨⟨2024, 3, 1, by decide⟩, midnight,
      some ⟨18000000000, by decide⟩⟩ := (Except.ok.inj w.outCreatedAt).symm
  obtain ⟨column, hcolumn, hshows⟩ := a.showsMonthOf hlevel _ _ List.mem_cons_self
  rw [← a.hasType] at hscrubs
  refine ⟨strictNetwork_accepts, a.scrubbed, a.row, column, hscrubs, congrArg Store.rows a.store_eq,
    hcolumn, ?_⟩
  rw [hcreated] at hshows ⊢
  cases hshows with
  | time _ _ _ keeps _ =>
    intro hkeeps
    exact absurd (keeps.mp hkeeps) (by decide)

end Network

end ConsentGate
