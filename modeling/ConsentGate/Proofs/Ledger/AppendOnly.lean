import ConsentGate.Proofs.Ledger.Containment
import ConsentGate.Proofs.Value.Reading

/-! The ledger is a log that only grows.

Whatever is called, and however often the ledger breaks in between, its rows are those of the appends
that returned normally, one row to each and in their order (`run_rows`). So as soon as the ledger can be
reached all its reads agree with the list of what was stored: how much it is, what it is, and whether an
identifier is among it. A row read back shows what was stored (`IsRecordOf`). -/
namespace ConsentGate.Ledger
open Calendar Scrub
set_option autoImplicit false

/-! ## What is read back -/

/-- The declared types in full: properties and metadata hold supported values. -/
structure Declared (s : Scrubbed) (p : Provenance) : Prop extends WellTyped s p where
  supported : ∀ v ∈ [s.properties, s.metadata], v.check "value" = .ok ()
  proper : ∀ v ∈ [s.properties, s.metadata], v.Proper

/-- The same instant in UTC, or nothing for nothing. -/
def InUtc (v w : Value) : Prop :=
  v = .null ∧ w = .null ∨
    ∃ t u : Timestamp, v = .datetime t ∧ w = .datetime u ∧ u.offset = some utc ∧
      u.instant = t.instant

/-- A record shows the attributes of a scrubbed entity and its provenance: texts, level and flag as they
are, times in UTC, properties and metadata by their images. -/
def IsRecordOf (record : List (String × Value)) (s : Scrubbed) (p : Provenance) : Prop :=
  ∃ ingestedAt createdAt updatedAt deletedAt, InUtc p.ingestedAt ingestedAt ∧
    InUtc s.createdAt createdAt ∧ InUtc s.updatedAt updatedAt ∧ InUtc s.deletedAt deletedAt ∧
    record = [("id", s.id), ("type", s.type), ("entity_type", .str p.entityType),
      ("domain", .str p.domain), ("original_tenant_hash", .str p.tenantHash),
      ("scrubbing_level", .str p.level.name), ("consent_version", .str p.consentVersion),
      ("ingested_at", ingestedAt), ("scrubbed", .bool true), ("version", s.version),
      ("source", s.source), ("created_at", createdAt), ("updated_at", updatedAt),
      ("is_deleted", s.isDeleted), ("deleted_at", deletedAt), ("properties", s.properties.image),
      ("metadata", s.metadata.image)]

theorem inUtc_of_timeColumn {v : Value} {column : Option Timestamp} (hv : IsTime v)
    (h : timeColumn v = .ok column) : InUtc v (Value.ofTime column) := by
  rcases hv with rfl | ⟨t, rfl⟩
  · cases h
    exact Or.inl ⟨rfl, rfl⟩
  · rw [timeColumn] at h
    cases hu : t.toUtc? with
    | none =>
      rw [hu] at h
      cases h
    | some u =>
      rw [hu] at h
      cases h
      obtain ⟨hutc, hinstant⟩ := Timestamp.toUtc?_eq_some_iff.mp hu
      exact Or.inr ⟨t, u, rfl, rfl, hutc, hinstant⟩

/-- A text, or nothing, stands in its column as it is. -/
theorem columnText_eq {v : Value} {c : Option String} (hv : v = .null ∨ v.isStr = true)
    (h : Cell.columnText v = .ok c) : (c.map Value.str).getD .null = v := by
  rcases hv with rfl | hv
  · rw [Cell.columnText_null] at h
    cases h
    rfl
  · obtain ⟨s, rfl⟩ := Value.isStr_iff.mp hv
    rw [Cell.columnText_str] at h
    cases h
    rfl

theorem columnFlag_eq {b : Bool} {c : Option Bool} (h : Cell.columnFlag (.bool b) = .ok c) :
    (c.map Value.bool).getD .null = .bool b := by
  obtain ⟨cell, hcell, hflag⟩ := bind_eq_ok.mp h
  obtain ⟨shown, hof⟩ := Cell.of_bool b
  rw [hof] at hcell
  cases hcell
  cases hflag
  rfl

variable {s : Scrubbed} {p : Provenance}

/-- A row read back shows what was stored. -/
theorem isRecordOf_columns (h : Declared s p) {d : Draft} {r : Row} (hd : Draft.of s p = .ok d)
    (hr : Row.of d = .ok r) : IsRecordOf r.columns s p := by
  have hencodes := Draft.encodes hd
  have hshows := Row.shows hr
  obtain ⟨hingested, hcreated, hupdated, hdeletedAt⟩ : IsTime p.ingestedAt ∧ IsTime s.createdAt ∧
      IsTime s.updatedAt ∧ IsTime s.deletedAt := by
    simpa [times] using h.times
  have hid : Value.str r.id = s.id :=
    columnText_eq (c := some r.id) (Or.inr h.id) (hencodes.id ▸ hshows.id)
  have htype := columnText_eq (Or.inr h.type) (hencodes.type ▸ hshows.type)
  have hversion := columnText_eq (Or.inr h.version) (hencodes.version ▸ hshows.version)
  have hsource := columnText_eq h.source (hencodes.source ▸ hshows.source)
  have hdeleted : (r.isDeleted.map Value.bool).getD .null = s.isDeleted := by
    obtain ⟨b, hb⟩ := h.isDeleted
    have hflag := hshows.isDeleted
    rw [hencodes.isDeleted, hb] at hflag
    rw [hb]
    exact columnFlag_eq hflag
  have hproperties : Value.ofJson? r.properties = some s.properties.image := by
    rw [hshows.properties]
    exact Value.ofJson?_of_json (h.supported _ (by simp)) (h.proper _ (by simp)) hencodes.properties
  have hmetadata : Value.ofJson? r.metadata = some s.metadata.image := by
    rw [hshows.metadata]
    exact Value.ofJson?_of_json (h.supported _ (by simp)) (h.proper _ (by simp)) hencodes.metadata
  refine ⟨Value.ofTime d.ingestedAt, Value.ofTime d.createdAt, Value.ofTime d.updatedAt,
    Value.ofTime d.deletedAt, inUtc_of_timeColumn hingested hencodes.ingestedAt,
    inUtc_of_timeColumn hcreated hencodes.createdAt, inUtc_of_timeColumn hupdated hencodes.updatedAt,
    inUtc_of_timeColumn hdeletedAt hencodes.deletedAt, ?_⟩
  have hprovenance : r.provenance = p := hshows.provenance.trans hencodes.provenance
  simp only [Row.columns, hid, htype, hversion, hsource, hdeleted, hproperties, hmetadata, hprovenance,
    hshows.ingestedAt, hshows.createdAt, hshows.updatedAt, hshows.deletedAt, Option.getD_some]

theorem IsRecordOf.id {r : Row} (h : IsRecordOf r.columns s p) : s.id = .str r.id := by
  obtain ⟨_, _, _, _, _, _, _, _, hrecord⟩ := h
  have hfirst := (List.cons.inj hrecord).1
  exact (Prod.mk.inj hfirst).2.symm

/-! ## Runs -/

namespace Store

/-- A call of the ledger, or what becomes of the ledger between two calls: it breaks with a fault, or is
repaired. -/
inductive Event where
  | store (s : Option Scrubbed) (p : Option Provenance)
  | contains (id : String)
  | count
  | records
  | health
  | outage (fault : Option Fault)

/-- The ledger after an event; only an append and an outage touch it. -/
def step (l : Store) : Event → Store
  | .store s p => (l.append s p).2.2
  | .outage fault => { l with broken := fault }
  | .contains _ | .count | .records | .health => l

def run (l : Store) (events : List Event) : Store := events.foldl step l

/-- What an event stores: what is appended, if the append returns normally. -/
def stored (l : Store) : Event → List (Scrubbed × Provenance)
  | .store (some s) (some p) =>
    match (l.append (some s) (some p)).1 with
    | .ok _ => [(s, p)]
    | .error _ => []
  | _ => []

/-- What was stored in a run, in its order. -/
def kept (l : Store) : List Event → List (Scrubbed × Provenance)
  | [] => []
  | event :: rest => l.stored event ++ (l.step event).kept rest

/-- The rows of what was stored, one to each and in the same order. -/
def RowsOf (entries : List (Scrubbed × Provenance)) (rows : List Row) : Prop :=
  List.Forall₂ (fun x row => IsRecordOf (Row.columns row) x.1 x.2) entries rows

variable {l : Store}

theorem run_cons (l : Store) (event : Event) (rest : List Event) :
    l.run (event :: rest) = (l.step event).run rest := rfl

theorem run_append (l : Store) (events others : List Event) :
    l.run (events ++ others) = (l.run events).run others := List.foldl_append

/-- An append that does not return normally leaves the ledger as it was, whatever was to be stored. -/
theorem append_of_error {s : Option Scrubbed} {p : Option Provenance} {f : Fault}
    (h : (l.append s p).1 = .error f) : (l.append s p).2.2 = l := by
  cases s with
  | none => rfl
  | some s =>
    cases p with
    | none => rfl
    | some p => exact append_error h

/-- All that a step can do: it leaves the rows alone and stores nothing, or it appends the row of what it
stores. -/
theorem step_cases (l : Store) (event : Event) :
    (l.step event).rows = l.rows ∧ l.stored event = [] ∨
      ∃ s p d r, event = .store (some s) (some p) ∧ Draft.of s p = .ok d ∧ Row.of d = .ok r ∧
        (l.step event).rows = l.rows ++ [r] ∧ l.stored event = [(s, p)] := by
  cases event with
  | store s p =>
    match s, p with
    | none, _ => exact Or.inl ⟨rfl, rfl⟩
    | some s, none => exact Or.inl ⟨rfl, rfl⟩
    | some s, some p =>
      cases hresult : (l.append (some s) (some p)).1 with
      | error f =>
        left
        simp only [step, stored, hresult, append_error hresult, and_self]
      | ok done =>
        obtain ⟨d, r, hd, hbroken, hr⟩ := append_ok hresult
        refine Or.inr ⟨s, p, d, r, rfl, hd, hr, ?_⟩
        simp only [step, stored, append_eq hd hbroken hr, and_self]
  | contains id => exact Or.inl ⟨rfl, rfl⟩
  | count => exact Or.inl ⟨rfl, rfl⟩
  | records => exact Or.inl ⟨rfl, rfl⟩
  | health => exact Or.inl ⟨rfl, rfl⟩
  | outage fault => exact Or.inl ⟨rfl, rfl⟩

theorem prefix_step (l : Store) (event : Event) : l.rows <+: (l.step event).rows := by
  rcases step_cases l event with ⟨hsame, _⟩ | ⟨_, _, _, r, _, _, _, hadds, _⟩
  · rw [hsame]
  · rw [hadds]
    exact List.prefix_append _ _

/-- Rows that are there stay there. -/
theorem prefix_run (l : Store) (events : List Event) : l.rows <+: (l.run events).rows := by
  induction events generalizing l with
  | nil => exact List.prefix_rfl
  | cons event rest ih => exact (prefix_step l event).trans (ih (l.step event))

/-- A step adds one row for what it stores, and none if it stores nothing. -/
theorem step_rows (event : Event)
    (h : ∀ s p, event = .store (some s) (some p) → Declared s p) :
    ∃ rows, (l.step event).rows = l.rows ++ rows ∧ RowsOf (l.stored event) rows := by
  rcases step_cases l event with ⟨hsame, hstored⟩ | ⟨s, p, d, r, hevent, hd, hr, hadds, hstored⟩
  · rw [hsame, hstored]
    exact ⟨[], (List.append_nil _).symm, .nil⟩
  · rw [hadds, hstored]
    exact ⟨[r], rfl, .cons (isRecordOf_columns (h s p hevent) hd hr) .nil⟩

/-- A run adds one row for each thing that it stores. -/
theorem run_rows (events : List Event)
    (h : ∀ s p, .store (some s) (some p) ∈ events → Declared s p) :
    ∃ rows, (l.run events).rows = l.rows ++ rows ∧ RowsOf (l.kept events) rows := by
  induction events generalizing l with
  | nil => exact ⟨[], (List.append_nil _).symm, .nil⟩
  | cons event rest ih =>
    obtain ⟨first, hfirst, hstored⟩ := step_rows (l := l) event fun s p hevent =>
      h s p (hevent ▸ List.mem_cons_self)
    obtain ⟨others, hothers, hkept⟩ := ih (l := l.step event) fun s p hmem =>
      h s p (List.mem_cons_of_mem event hmem)
    refine ⟨first ++ others, ?_, List.rel_append hstored hkept⟩
    rw [run_cons, hothers, hfirst, List.append_assoc]

/-! ## Reads -/

theorem access_of_reachable (h : l.broken = none) (operation : String) :
    l.access operation = .ok l.rows := by
  rw [access, h]

/-- An identifier is found exactly if something with it was stored. -/
theorem contains_of_kept {events : List Event} (h : (run l events).broken = none)
    (hrows : RowsOf (kept l events) (run l events).rows) (id : String) :
    ∃ found, (run l events).contains id = .ok found ∧
      (found = true ↔ ∃ x ∈ kept l events, x.1.id = .str id) := by
  refine ⟨(run l events).rows.any fun r => r.id == id, ?_, ?_⟩
  · rw [contains_eq, access_of_reachable h]
    rfl
  · rw [List.any_eq_true]
    constructor
    · rintro ⟨row, hrow, hid⟩
      obtain ⟨x, hx, hrecord⟩ := Value.exists_of_mem_forall₂ hrows.flip hrow
      exact ⟨x, hx, (IsRecordOf.id hrecord).trans (congrArg Value.str (eq_of_beq hid))⟩
    · rintro ⟨x, hx, hid⟩
      obtain ⟨row, hrow, hrecord⟩ := Value.exists_of_mem_forall₂ hrows hx
      have hsame : row.id = id := Value.str.inj ((IsRecordOf.id hrecord).symm.trans hid)
      exact ⟨row, hrow, beq_iff_eq.mpr hsame⟩

/-- From an empty ledger, through any calls with arguments of the declared types: as soon as the ledger
can be reached, it counts and lists exactly what was stored, in its order, and finds exactly the
identifiers of it. What is there stays. An append succeeds whenever the ledger can be reached, the times
have a UTC form and the rest has a text, and an append that fails changes nothing. A text of code points
with surrogates among them, which no value here has, is read back from its JSON with its pairs joined. -/
theorem append_only (events : List Event)
    (h : ∀ s p, .store (some s) (some p) ∈ events → Declared s p) :
    ((run {} events).broken = none →
      (run {} events).count = .ok (kept {} events).length ∧
      (∃ records, (run {} events).records = .ok records ∧
        List.Forall₂ (fun x record => IsRecordOf record x.1 x.2) (kept {} events) records) ∧
      (∀ id, ∃ found, (run {} events).contains id = .ok found ∧
        (found = true ↔ ∃ x ∈ kept {} events, x.1.id = .str id)) ∧
      (run {} events).health = (none, [])) ∧
    (∀ others, (run {} events).rows <+: (run {} (events ++ others)).rows) ∧
    (∀ s p, Declared s p → (((run {} events).append (some s) (some p)).1 = .ok () ↔
      (∀ v ∈ times s p, InRange v) ∧ (run {} events).broken = none ∧
        (∃ text, s.properties.json = .ok text) ∧ ∃ text, s.metadata.json = .ok text)) ∧
    (∀ s p f, ((run {} events).append s p).1 = .error f →
      ((run {} events).append s p).2.2 = run {} events) ∧
    ∀ t : List Text.CodePoint, Value.ReadsAsText t (Text.joined t) := by
  obtain ⟨rows, hrows, hkept⟩ := run_rows (l := {}) events h
  rw [List.nil_append] at hrows
  subst hrows
  refine ⟨fun hreach => ⟨?_, ?_, contains_of_kept hreach hkept, ?_⟩, fun others => ?_,
    fun s p hdeclared => append_ok_iff hdeclared.toWellTyped _, fun s p f => append_of_error,
    Value.readsAsText_joined⟩
  · rw [count, access_of_reachable hreach, hkept.length_eq]
    rfl
  · refine ⟨(run {} events).rows.map Row.columns, ?_, ?_⟩
    · rw [records, access_of_reachable hreach]
      rfl
    · rw [List.forall₂_map_right_iff]
      exact hkept
  · rw [health, hreach]
  · rw [run_append]
    exact prefix_run _ others

/-! ### A sample -/

def quotedId : String := String.ofList ['o', Text.apostrophe, 'n']

def quotedScrubbed : Scrubbed where
  id := .str quotedId
  type := .str "Client"
  properties := .map [(.str "since", .date ⟨2024, 3, 14, validDate_march⟩),
    (.str "rates", .list [.float (.finite false 6755399441055744 (-52)), .int 2, .null])]
  metadata := .map [(.str "scrubbed", .bool true)]
  audit := ⟨.str "Client", .strict, "2", {}⟩
  version := .str "1.0"
  source := .null
  createdAt := .datetime ⟨⟨2024, 3, 14, validDate_march⟩, midnight, some ⟨18000000000, validOffset_fiveHours⟩⟩
  updatedAt := .datetime ⟨⟨2024, 3, 14, validDate_march⟩, midnight, none⟩
  isDeleted := .bool false
  deletedAt := .null

theorem declared_quoted : Declared quotedScrubbed sampleProvenance where
  id := rfl
  type := rfl
  version := rfl
  source := Or.inl rfl
  isDeleted := ⟨false, rfl⟩
  times := by simp [times, IsTime, quotedScrubbed, sampleProvenance]
  properties := rfl
  metadata := rfl
  supported := by
    intro v hv
    simp only [List.mem_cons, List.not_mem_nil, or_false] at hv
    rcases hv with rfl | rfl
    · rfl
    · rfl
  proper := by
    have hcanonical : Number.Binary64.IsCanonical 6755399441055744 (-52) :=
      ⟨by norm_num, by decide, by decide, Or.inl (by norm_num)⟩
    simp [quotedScrubbed, Value.Proper, Value.ItemsProper, Value.FieldsProper,
      Number.Binary64.IsProper, hcanonical]

theorem declared_early : Declared earlyScrubbed sampleProvenance where
  toWellTyped := wellTyped_early
  supported := by
    intro v hv
    simp only [List.mem_cons, List.not_mem_nil, or_false] at hv
    rcases hv with rfl | rfl
    · rfl
    · rfl
  proper := by
    simp [earlyScrubbed, Value.Proper, Value.FieldsProper]

/-- One append that returns normally and one that does not. -/
def sampleEvents : List Event :=
  [.store (some quotedScrubbed) (some sampleProvenance), .count,
    .store (some earlyScrubbed) (some sampleProvenance), .health]

theorem append_only_sample :
    (∀ s p, .store (some s) (some p) ∈ sampleEvents → Declared s p) ∧
      kept {} sampleEvents = [(quotedScrubbed, sampleProvenance)] ∧
      (run {} sampleEvents).count = .ok 1 ∧ (run {} sampleEvents).contains quotedId = .ok true := by
  have hdeclared : ∀ s p, .store (some s) (some p) ∈ sampleEvents → Declared s p := by
    intro s p hmem
    simp only [sampleEvents, List.mem_cons, Event.store.injEq, Option.some.injEq, reduceCtorEq,
      List.not_mem_nil, or_false, false_or] at hmem
    rcases hmem with ⟨rfl, rfl⟩ | ⟨rfl, rfl⟩
    · exact declared_quoted
    · exact declared_early
  obtain ⟨d, r, hd, hr⟩ : ∃ d r, Draft.of quotedScrubbed sampleProvenance = .ok d ∧
      Row.of d = .ok r := exists_row_of_isStorable (by decide +kernel) (by decide +kernel)
  have hfirst := append_eq (l := {}) hd rfl hr
  have hsecond : ∀ l : Store, l.append (some earlyScrubbed) (some sampleProvenance) =
      (.error .outOfRange, [], l) := append_of_not_inRange wellTyped_early not_inRange_early
  have hkept : kept {} sampleEvents = [(quotedScrubbed, sampleProvenance)] := by
    simp only [sampleEvents, kept, stored, step, hfirst, hsecond, List.append_nil]
  have hreach : (run {} sampleEvents).broken = none := by
    simp only [sampleEvents, run, step, List.foldl_cons, List.foldl_nil, hfirst, hsecond]
  obtain ⟨hcount, _, hcontains, _⟩ := (append_only sampleEvents hdeclared).1 hreach
  obtain ⟨found, hfound, hiff⟩ := hcontains quotedId
  rw [hkept] at hcount hiff
  have htrue : found = true := hiff.mpr ⟨_, List.mem_cons_self, rfl⟩
  exact ⟨hdeclared, hkept, hcount, htrue ▸ hfound⟩

/-- A record tells the level by its name, which is a text and no level; and what properties hold as the
two halves of a pair is read back as the character that they stand for. -/
theorem record_of_level :
    (∃ record, (run {} [.store (some quotedScrubbed) (some sampleProvenance)]).records = .ok [record] ∧
      sampleProvenance.level = .strict ∧ ("scrubbing_level", .str "Strict") ∈ record ∧
      ("scrubbing_level", .level .strict) ∉ record) ∧
    Value.ReadsAsText [.high 61, .low 512] [.char '😀'] ∧
      [Text.CodePoint.high 61, .low 512] ≠ [.char '😀'] := by
  have hpair : Text.CodePoint.pair 61 512 = '😀' := by decide
  obtain ⟨d, r, hd, hr⟩ : ∃ d r, Draft.of quotedScrubbed sampleProvenance = .ok d ∧
      Row.of d = .ok r := exists_row_of_isStorable (by decide +kernel) (by decide +kernel)
  have hstore := append_eq (l := {}) hd rfl hr
  obtain ⟨_, _, _, _, _, _, _, _, hrecord⟩ := isRecordOf_columns declared_quoted hd hr
  refine ⟨⟨r.columns, ?_, rfl, ?_, ?_⟩, hpair ▸ Value.readsAsText_pair 61 512, by decide⟩
  · simp only [run, step, List.foldl_cons, List.foldl_nil, hstore]
    rfl
  · rw [hrecord]
    simp [sampleProvenance, Level.name]
  · rw [hrecord]
    simp

end Store

end ConsentGate.Ledger
