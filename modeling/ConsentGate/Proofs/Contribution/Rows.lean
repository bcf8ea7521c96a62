import ConsentGate.Proofs.Contribution.Calls

/-! The rows of the ledger and the contributions that were accepted.

Nothing is assumed of the collaborators in `Orderly`: whatever they do, a contribution that the caller
may make ends in an outcome, and it is accepted exactly if its one call of the store succeeded. Where
that call appends to a ledger that no other collaborator writes to (`HoldsLedger`), the rows appended
by any number of contributions belong to the accepted ones, one to each and in their order. -/
namespace ConsentGate.Collaborators
open Consent Ledger Scrub Text
set_option autoImplicit false

variable {σ : Type}

/-! ## One contribution -/

/-- What the calls of a contribution say of its outcome: the store is called once at most, with what was
scrubbed at the level of a decision that permits it; and the outcome is `accepted` exactly if that call
succeeded. -/
structure Orderly (w : Collaborators σ) (e : Entity) (type : String) (s : σ) (outcome : Outcome) :
    Prop where
  storesOnce : (w.calls (some e) s).countP Call.isStored ≤ 1
  storesScrubbed : ∀ x p result, .stored x p result ∈ w.calls (some e) s →
    ∃ d now, d.permits = true ∧ p = provenance e.domain type d x now ∧
      w.calls (some e) s = [.decided e.tenantId type (.ok d), .scrubbed e type d.level (.ok x),
        .timed (.ok now), .stored x p result]
  accepted_iff : outcome = .accepted ↔ ∃ x p, .stored x p (.ok ()) ∈ w.calls (some e) s

theorem exists_orderly {e : Entity} {type : String} (htype : e.type = .str type)
    (hblank : allBlank type.toList = false) (w : Collaborators σ) (s : σ) :
    ∃ outcome line, (w.contribute (some e) s).1 = .ok (outcome, line) ∧
      (w.observed.contribute (some e) (s, [])).1 = .ok (outcome, line) ∧
      Orderly w e type s outcome := by
  obtain ⟨r, _, hreport, hobserved, hcourse⟩ := exists_course htype hblank w s
  refine ⟨_, _, hreport, hobserved, hcourse.countP_isStored, ?_, ?_⟩
  · intro x p result hmem
    exact hcourse.of_stored_mem hmem
  · exact report_accepted.trans hcourse.stored_iff

/-! ## Contributions one after another -/

/-- An entity, or what is none, and the state in which it is contributed. -/
abbrev Moment (σ : Type) := Option Entity × σ

def isAccepted (w : Collaborators σ) (m : Moment σ) : Bool :=
  match (w.contribute m.1 m.2).1 with
  | .ok (outcome, _) => outcome == .accepted
  | .error _ => false

def after (w : Collaborators σ) : List (Option Entity) → σ → σ
  | [], s => s
  | e :: rest, s => w.after rest (w.contribute e s).2

/-- The moments of contributions one after another. -/
def moments (w : Collaborators σ) : List (Option Entity) → σ → List (Moment σ)
  | [], _ => []
  | e :: rest, s => (e, s) :: w.moments rest (w.contribute e s).2

/-- The contribution stored a scrubbed entity, of which this is the row; an identifier that is a text is
that of the row. -/
def Writes (w : Collaborators σ) (m : Moment σ) (row : Row) : Prop :=
  ∃ x p draft, .stored x p (.ok ()) ∈ w.calls m.1 m.2 ∧ Draft.of x p = .ok draft ∧
    Row.of draft = .ok row ∧ ∀ id, x.id = .str id → row.id = id

/-! ## The ledger among the collaborators -/

/-- The state holds a ledger: the store appends to it, and nobody else changes its rows. It may break
and be repaired at any time. -/
structure HoldsLedger (w : Collaborators σ) (ledger : σ → Store) : Prop where
  validate : ∀ tenant type s, (ledger (w.validate tenant type s).2).rows = (ledger s).rows
  scrub : ∀ e type level s, (ledger (w.scrub e type level s).2).rows = (ledger s).rows
  clock : ∀ s, (ledger (w.clock s).2).rows = (ledger s).rows
  store : ∀ x p s, (w.store x p s).1 = ((ledger s).append (some x) (some p)).1 ∧
    ledger (w.store x p s).2 = ((ledger s).append (some x) (some p)).2.2

namespace HoldsLedger

variable {w : Collaborators σ} {ledger : σ → Store} {e : Entity} {domain type : String} {s t : σ}

theorem observed (h : w.HoldsLedger ledger) : w.observed.HoldsLedger fun s => ledger s.1 :=
  ⟨fun tenant type s => h.validate tenant type s.1, fun e type level s => h.scrub e type level s.1,
    fun s => h.clock s.1, fun x p s => h.store x p s.1⟩

theorem rows_of_store (h : w.HoldsLedger ledger) {x : Scrubbed} {p : Provenance}
    (hstore : w.store x p s = (.ok (), t)) :
    ∃ draft row, Draft.of x p = .ok draft ∧ Row.of draft = .ok row ∧
      (ledger t).rows = (ledger s).rows ++ [row] := by
  obtain ⟨hresult, hledger⟩ := h.store x p s
  rw [hstore] at hresult hledger
  obtain ⟨draft, row, hdraft, hbroken, hrow⟩ := Store.append_ok hresult.symm
  rw [Store.append_eq hdraft hbroken hrow] at hledger
  exact ⟨draft, row, hdraft, hrow, congrArg Store.rows hledger⟩

theorem rows_of_validate (h : w.HoldsLedger ledger) {tenant : Value}
    {result : Except Fault Decision} (hstep : w.validate tenant type s = (result, t)) :
    (ledger t).rows = (ledger s).rows := by
  have hrows := h.validate tenant type s
  rwa [hstep] at hrows

theorem rows_of_scrub (h : w.HoldsLedger ledger) {level : Level} {result : Except Fault Scrubbed}
    (hstep : w.scrub e type level s = (result, t)) : (ledger t).rows = (ledger s).rows := by
  have hrows := h.scrub e type level s
  rwa [hstep] at hrows

theorem rows_of_clock (h : w.HoldsLedger ledger) {result : Except Fault Value}
    (hstep : w.clock s = (result, t)) : (ledger t).rows = (ledger s).rows := by
  have hrows := h.clock s
  rwa [hstep] at hrows

theorem ledger_of_store_error (h : w.HoldsLedger ledger) {x : Scrubbed} {p : Provenance} {f : Fault}
    (hstore : w.store x p s = (.error f, t)) : ledger t = ledger s := by
  obtain ⟨hresult, hledger⟩ := h.store x p s
  rw [hstore] at hresult hledger
  rw [hledger, Store.append_error hresult.symm]

/-- The stages come to a call of the store that succeeds, on the rows there were, or leave the rows
alone. -/
theorem rows_of_ends (h : w.HoldsLedger ledger) {r : Except Fault Ending}
    (hends : Ends w e domain type s r t) :
    (∃ d x p s₃, r = .ok (.stored d) ∧ w.store x p s₃ = (.ok (), t) ∧
        (ledger s₃).rows = (ledger s).rows) ∨
      (∀ d, r ≠ .ok (.stored d)) ∧ (ledger t).rows = (ledger s).rows := by
  cases hends with
  | undecided decides => exact Or.inr ⟨nofun, h.rows_of_validate decides⟩
  | rejected decides _ => exact Or.inr ⟨nofun, h.rows_of_validate decides⟩
  | unscrubbed decides _ scrubs =>
    exact Or.inr ⟨nofun, (h.rows_of_scrub scrubs).trans (h.rows_of_validate decides)⟩
  | untimed decides _ scrubs clock =>
    exact Or.inr ⟨nofun, (h.rows_of_clock clock).trans
      ((h.rows_of_scrub scrubs).trans (h.rows_of_validate decides))⟩
  | unstored decides _ scrubs clock stores =>
    refine Or.inr ⟨nofun, ?_⟩
    rw [h.ledger_of_store_error stores]
    exact (h.rows_of_clock clock).trans ((h.rows_of_scrub scrubs).trans (h.rows_of_validate decides))
  | stored decides _ scrubs clock stores =>
    exact Or.inl ⟨_, _, _, _, rfl, stores, (h.rows_of_clock clock).trans
      ((h.rows_of_scrub scrubs).trans (h.rows_of_validate decides))⟩

/-- An accepted contribution appends its row, and any other leaves the rows alone. -/
theorem rows_of_contribute (h : w.HoldsLedger ledger) (m : Moment σ) :
    (w.isAccepted m = true ∧ ∃ row, w.Writes m row ∧
        (ledger (w.contribute m.1 m.2).2).rows = (ledger m.2).rows ++ [row]) ∨
      w.isAccepted m = false ∧ (ledger (w.contribute m.1 m.2).2).rows = (ledger m.2).rows := by
  obtain ⟨e?, s⟩ := m
  cases hadmissible : admissible e? with
  | error f =>
    have hnothing : w.contribute e? s = (.error f, s) := by
      unfold contribute
      rw [hadmissible]
    right
    unfold isAccepted
    rw [hnothing]
    exact ⟨rfl, rfl⟩
  | ok admitted =>
    obtain ⟨e, type⟩ := admitted
    obtain ⟨rfl, htype, hblank⟩ := admissible_eq_ok.mp hadmissible
    -- The stages are taken as observed, so that the call of the store is among the calls.
    have hends := stages_ends w.observed e e.domain type (s, [])
    have hcalls : w.calls (some e) s = (w.observed.stages e e.domain type (s, [])).2.2 := by
      unfold Collaborators.calls
      rw [contribute_some htype hblank]
    have hcontribute := contribute_some htype hblank w s
    rw [(ends_of_observed hends).1.stages_eq] at hcontribute
    unfold isAccepted
    rw [hcontribute]
    rcases h.observed.rows_of_ends hends with ⟨d, x, p, s₃, hr, hstore, hrows⟩ | ⟨hne, hrows⟩
    · left
      obtain ⟨hstores, hnotes⟩ := noting_eq hstore
      obtain ⟨draft, row, hdraft, hrow, happend⟩ := h.rows_of_store hstores
      refine ⟨by rw [hr]; rfl, row, ⟨x, p, draft, ?_, hdraft, hrow, ?_⟩, ?_⟩
      · rw [hcalls, hnotes]
        exact List.mem_append_right _ List.mem_cons_self
      · intro id hid
        exact Row.id_of hrow ((Draft.encodes hdraft).id.trans hid)
      · rw [happend]
        exact congrArg (· ++ [row]) hrows
    · right
      refine ⟨?_, hrows⟩
      have hreport : (report e e.domain type
          (w.observed.stages e e.domain type (s, [])).1).1 ≠ .accepted := by
        intro haccepted
        obtain ⟨d, hd⟩ := report_accepted.mp haccepted
        exact hne d hd
      exact beq_eq_false_iff_ne.mpr hreport

/-- Contributions one after another append the rows of those accepted, in their order. -/
theorem rows_after (h : w.HoldsLedger ledger) (es : List (Option Entity)) (s : σ) :
    ∃ appended, (ledger (w.after es s)).rows = (ledger s).rows ++ appended ∧
      List.Forall₂ w.Writes ((w.moments es s).filter w.isAccepted) appended := by
  induction es generalizing s with
  | nil => exact ⟨[], (List.append_nil _).symm, .nil⟩
  | cons e rest ih =>
    obtain ⟨others, hothers, hwritten⟩ := ih (w.contribute e s).2
    rcases h.rows_of_contribute (e, s) with ⟨haccepted, row, hwrites, hrow⟩ | ⟨hnot, hsame⟩
    · refine ⟨row :: others, ?_, ?_⟩
      · rw [after, hothers, hrow, List.append_assoc, List.singleton_append]
      · rw [moments, List.filter_cons_of_pos haccepted]
        exact .cons hwrites hwritten
    · refine ⟨others, ?_, ?_⟩
      · rw [after, hothers, hsame]
      · rw [moments, List.filter_cons_of_neg (by simp [hnot])]
        exact hwritten

end HoldsLedger

/-- Whatever the collaborators do, a contribution of an entity that has a type ends in an outcome, after
orderly calls. If they hold a ledger, a contribution that is not accepted leaves its rows alone; and any
number of contributions append one row for each accepted one, in their order, which is found from then
on. -/
theorem rows_of_accepted (w : Collaborators σ) :
    (∀ e type s, e.type = .str type → allBlank type.toList = false →
        ∃ outcome line, (w.contribute (some e) s).1 = .ok (outcome, line) ∧
          (w.observed.contribute (some e) (s, [])).1 = .ok (outcome, line) ∧
          Orderly w e type s outcome) ∧
      ∀ ledger, w.HoldsLedger ledger →
        (∀ m, w.isAccepted m = false →
          (ledger (w.contribute m.1 m.2).2).rows = (ledger m.2).rows) ∧
        ∀ es s, ∃ appended, (ledger (w.after es s)).rows = (ledger s).rows ++ appended ∧
          List.Forall₂ w.Writes ((w.moments es s).filter w.isAccepted) appended ∧
          ∀ row ∈ appended, (ledger (w.after es s)).contains row.id =
            ((ledger (w.after es s)).access "contains").map fun _ => true := by
  refine ⟨fun e type s htype hblank => exists_orderly htype hblank w s, fun ledger h => ⟨?_, ?_⟩⟩
  · intro m hnot
    rcases h.rows_of_contribute m with ⟨haccepted, _⟩ | ⟨_, hsame⟩
    · rw [hnot] at haccepted
      cases haccepted
    · exact hsame
  · intro es s
    obtain ⟨appended, hrows, hwritten⟩ := h.rows_after es s
    refine ⟨appended, hrows, hwritten, fun row hmem => Store.contains_of_mem ?_⟩
    rw [hrows]
    exact List.mem_append_right _ hmem

/-! ### The network -/

theorem holdsLedger_network : Network.collaborators.HoldsLedger Network.store :=
  ⟨fun _ _ _ => rfl, fun _ _ _ _ => rfl, fun _ => rfl, fun _ _ _ => ⟨rfl, rfl⟩⟩

theorem isAccepted_network {n : Network} {e : Option Entity} :
    Network.collaborators.isAccepted (e, n) = true ↔ (n.contribute e).1 = .ok .accepted := by
  unfold isAccepted Network.contribute
  rcases Network.collaborators.contribute e n with ⟨_ | ⟨outcome, line⟩, m⟩
  · exact ⟨nofun, nofun⟩
  · dsimp only
    rw [beq_iff_eq]
    exact ⟨congrArg Except.ok, Except.ok.inj⟩

/-- The sample is contributed, and then something that is no entity. -/
theorem rows_of_accepted_sample :
    (∃ outcome line,
      (Network.collaborators.contribute (some sampleEntity) Network.sampleNetwork).1 =
        .ok (outcome, line) ∧
      (Network.collaborators.observed.contribute (some sampleEntity) (Network.sampleNetwork, [])).1 =
        .ok (outcome, line) ∧
      Orderly Network.collaborators sampleEntity "Note" Network.sampleNetwork outcome) ∧
      Network.collaborators.isAccepted (some sampleEntity, Network.sampleNetwork) = true ∧
      ∃ row, Network.collaborators.Writes (some sampleEntity, Network.sampleNetwork) row ∧
        (Network.collaborators.after [some sampleEntity, none] Network.sampleNetwork).store.rows =
          [row] := by
  obtain ⟨hall, hledger⟩ := rows_of_accepted Network.collaborators
  have haccepted : Network.collaborators.isAccepted (some sampleEntity, Network.sampleNetwork) = true :=
    isAccepted_network.mpr (Network.contribute_accepted_iff.mpr Network.exists_acceptance_sample)
  refine ⟨hall sampleEntity "Note" Network.sampleNetwork rfl (by decide), haccepted, ?_⟩
  obtain ⟨appended, hrows, hwritten, _⟩ :=
    (hledger Network.store holdsLedger_network).2 [some sampleEntity, none] Network.sampleNetwork
  rw [moments, moments, moments, List.filter_cons_of_pos haccepted,
    List.filter_cons_of_neg Bool.false_ne_true] at hwritten
  cases hwritten with
  | cons hwrites hnone =>
    cases hnone
    exact ⟨_, hwrites, hrows⟩

end ConsentGate.Collaborators
