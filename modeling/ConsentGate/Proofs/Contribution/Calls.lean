import ConsentGate.Proofs.Contribution.Acceptance

/-! The calls that a contribution makes to its collaborators.

`observed` are collaborators that do what the given ones do, whatever that is, and note each call with
what it came to. The notes of a contribution take one of six courses (`Course`), one for each way in
which its stages can end. The store is called in the last two only, after a decision that permits and
a scrub at the level of that decision. -/
namespace ConsentGate.Collaborators
open Consent Ledger Scrub Text
set_option autoImplicit false

/-! ## Noting calls -/

/-- A call to a collaborator and its result. -/
inductive Call where
  | decided (tenant : Value) (type : String) (result : Except Fault Decision)
  | scrubbed (e : Entity) (type : String) (level : Level) (result : Except Fault Scrubbed)
  | timed (result : Except Fault Value)
  | stored (x : Scrubbed) (p : Provenance) (result : Except Fault Unit)

def Call.isStored : Call → Bool
  | .stored .. => true
  | _ => false

variable {σ α : Type}

def noting (step : Step σ α) (call : Except Fault α → Call) : Step (σ × List Call) α := fun s =>
  let (result, t) := step s.1
  (result, t, s.2 ++ [call result])

/-- The collaborators with all calls noted. -/
def observed (w : Collaborators σ) : Collaborators (σ × List Call) where
  validate tenant type := noting (w.validate tenant type) (.decided tenant type)
  scrub e type level := noting (w.scrub e type level) (.scrubbed e type level)
  clock := noting w.clock .timed
  store x p := noting (w.store x p) (.stored x p)

/-- The calls of a contribution, in their order. -/
def calls (w : Collaborators σ) (e : Option Entity) (s : σ) : List Call :=
  (w.observed.contribute e (s, [])).2.2

theorem noting_eq {step : Step σ α} {call : Except Fault α → Call} {s t : σ × List Call}
    {result : Except Fault α} (h : noting step call s = (result, t)) :
    step s.1 = (result, t.1) ∧ t.2 = s.2 ++ [call result] := by
  unfold noting at h
  cases h
  exact ⟨rfl, rfl⟩

/-! ## Courses -/

/-- What the stages come to, and the calls that they make on the way. -/
inductive Course (e : Entity) (domain type : String) : Except Fault Ending → List Call → Prop
  | undecided (f : Fault) :
      Course e domain type (.error f) [.decided e.tenantId type (.error f)]
  | rejected {d : Decision} (denies : d.permits = false) :
      Course e domain type (.ok (.rejected d)) [.decided e.tenantId type (.ok d)]
  | unscrubbed {d : Decision} (permits : d.permits = true) (f : Fault) :
      Course e domain type (.error f)
        [.decided e.tenantId type (.ok d), .scrubbed e type d.level (.error f)]
  | untimed {d : Decision} (permits : d.permits = true) (x : Scrubbed) (f : Fault) :
      Course e domain type (.error f)
        [.decided e.tenantId type (.ok d), .scrubbed e type d.level (.ok x), .timed (.error f)]
  | unstored {d : Decision} (permits : d.permits = true) (x : Scrubbed) (now : Value) (f : Fault) :
      Course e domain type (.error f)
        [.decided e.tenantId type (.ok d), .scrubbed e type d.level (.ok x), .timed (.ok now),
          .stored x (provenance domain type d x now) (.error f)]
  | stored {d : Decision} (permits : d.permits = true) (x : Scrubbed) (now : Value) :
      Course e domain type (.ok (.stored d))
        [.decided e.tenantId type (.ok d), .scrubbed e type d.level (.ok x), .timed (.ok now),
          .stored x (provenance domain type d x now) (.ok ())]

variable {w : Collaborators σ} {e : Entity} {domain type : String} {s : σ}
  {r : Except Fault Ending} {calls : List Call}

/-- Observed, the stages end as they do unobserved, and their calls take a course to that end. -/
theorem ends_of_observed {t : σ × List Call} (h : Ends w.observed e domain type (s, []) r t) :
    Ends w e domain type s r t.1 ∧ Course e domain type r t.2 := by
  cases h with
  | undecided decides =>
    obtain ⟨hdecides, hcalls⟩ := noting_eq decides
    rw [hcalls]
    exact ⟨.undecided hdecides, .undecided _⟩
  | rejected decides denies =>
    obtain ⟨hdecides, hcalls⟩ := noting_eq decides
    rw [hcalls]
    exact ⟨.rejected hdecides denies, .rejected denies⟩
  | unscrubbed decides permits scrubs =>
    obtain ⟨hdecides, hcalls₁⟩ := noting_eq decides
    obtain ⟨hscrubs, hcalls⟩ := noting_eq scrubs
    rw [hcalls, hcalls₁]
    exact ⟨.unscrubbed hdecides permits hscrubs, .unscrubbed permits _⟩
  | untimed decides permits scrubs clock =>
    obtain ⟨hdecides, hcalls₁⟩ := noting_eq decides
    obtain ⟨hscrubs, hcalls₂⟩ := noting_eq scrubs
    obtain ⟨hclock, hcalls⟩ := noting_eq clock
    rw [hcalls, hcalls₂, hcalls₁]
    exact ⟨.untimed hdecides permits hscrubs hclock, .untimed permits _ _⟩
  | unstored decides permits scrubs clock stores =>
    obtain ⟨hdecides, hcalls₁⟩ := noting_eq decides
    obtain ⟨hscrubs, hcalls₂⟩ := noting_eq scrubs
    obtain ⟨hclock, hcalls₃⟩ := noting_eq clock
    obtain ⟨hstores, hcalls⟩ := noting_eq stores
    rw [hcalls, hcalls₃, hcalls₂, hcalls₁]
    exact ⟨.unstored hdecides permits hscrubs hclock hstores, .unstored permits _ _ _⟩
  | stored decides permits scrubs clock stores =>
    obtain ⟨hdecides, hcalls₁⟩ := noting_eq decides
    obtain ⟨hscrubs, hcalls₂⟩ := noting_eq scrubs
    obtain ⟨hclock, hcalls₃⟩ := noting_eq clock
    obtain ⟨hstores, hcalls⟩ := noting_eq stores
    rw [hcalls, hcalls₃, hcalls₂, hcalls₁]
    exact ⟨.stored hdecides permits hscrubs hclock hstores, .stored permits _ _⟩

theorem Course.countP_isStored (h : Course e domain type r calls) :
    calls.countP Call.isStored ≤ 1 := by
  cases h <;> simp [Call.isStored]

/-- A call of the store is the last one, and stores what was scrubbed at the level of a decision that
permits it. -/
theorem Course.of_stored_mem (h : Course e domain type r calls) {x : Scrubbed} {p : Provenance}
    {result : Except Fault Unit} (hmem : .stored x p result ∈ calls) :
    ∃ d now, d.permits = true ∧ p = provenance domain type d x now ∧
      calls = [.decided e.tenantId type (.ok d), .scrubbed e type d.level (.ok x),
        .timed (.ok now), .stored x p result] := by
  cases h with
  | unstored permits x' now f =>
    obtain ⟨rfl, rfl, rfl⟩ : x = x' ∧ p = _ ∧ result = _ := by simpa using hmem
    exact ⟨_, now, permits, rfl, rfl⟩
  | stored permits x' now =>
    obtain ⟨rfl, rfl, rfl⟩ : x = x' ∧ p = _ ∧ result = _ := by simpa using hmem
    exact ⟨_, now, permits, rfl, rfl⟩
  | _ => simp at hmem

theorem Course.stored_iff (h : Course e domain type r calls) :
    (∃ d, r = .ok (.stored d)) ↔ ∃ x p, .stored x p (.ok ()) ∈ calls := by
  cases h <;> simp

/-! ## Contributions -/

theorem contribute_some (htype : e.type = .str type) (hblank : allBlank type.toList = false)
    (w : Collaborators σ) (s : σ) :
    w.contribute (some e) s =
      (.ok (report e e.domain type (w.stages e e.domain type s).1),
        (w.stages e e.domain type s).2) := by
  unfold contribute
  rw [admissible_eq_ok.mpr ⟨rfl, htype, hblank⟩]

/-- Observed or not, a contribution of an entity that has a type comes to the same report, and its calls
take a course to what is reported. -/
theorem exists_course (htype : e.type = .str type) (hblank : allBlank type.toList = false)
    (w : Collaborators σ) (s : σ) :
    ∃ r, Ends w e e.domain type s r (w.contribute (some e) s).2 ∧
      (w.contribute (some e) s).1 = .ok (report e e.domain type r) ∧
      (w.observed.contribute (some e) (s, [])).1 = .ok (report e e.domain type r) ∧
      Course e e.domain type r (w.calls (some e) s) := by
  obtain ⟨hends, hcourse⟩ :=
    ends_of_observed (stages_ends w.observed e e.domain type (s, []))
  unfold Collaborators.calls
  rw [contribute_some htype hblank, contribute_some htype hblank, hends.stages_eq]
  exact ⟨_, hends, rfl, rfl, hcourse⟩

end ConsentGate.Collaborators
