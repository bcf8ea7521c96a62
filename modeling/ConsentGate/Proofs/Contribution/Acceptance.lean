import ConsentGate.Contribution
import ConsentGate.Proofs.Ledger.Encoding
import ConsentGate.Proofs.Scrub.Pruning

/-! When a contribution is accepted, and what it then writes.

`Collaborators.Ends` lists every way in which the stages of a contribution can end, whoever the
collaborators are. With the real ones, `Network.Acceptance` holds the result of each stage that an
accepted contribution went through. A contribution is accepted exactly if there is one
(`Network.contribute_accepted_iff`); it then appends the row of that acceptance, and in every other
case the ledger stays as it was. -/
namespace ConsentGate
open Consent Ledger Scrub Text
set_option autoImplicit false

/-! ## How the stages end -/

namespace Collaborators

variable {σ : Type} {w : Collaborators σ} {e : Entity} {domain type : String} {s : σ}

/-- `Ends w e domain type s r s'`: from the state `s` the stages come to `r` and leave `s'`. -/
inductive Ends (w : Collaborators σ) (e : Entity) (domain type : String) (s : σ) :
    Except Fault Ending → σ → Prop
  | undecided {f : Fault} {s₁ : σ} (decides : w.validate e.tenantId type s = (.error f, s₁)) :
      Ends w e domain type s (.error f) s₁
  | rejected {d : Decision} {s₁ : σ} (decides : w.validate e.tenantId type s = (.ok d, s₁))
      (denies : d.permits = false) : Ends w e domain type s (.ok (.rejected d)) s₁
  | unscrubbed {d : Decision} {f : Fault} {s₁ s₂ : σ}
      (decides : w.validate e.tenantId type s = (.ok d, s₁)) (permits : d.permits = true)
      (scrubs : w.scrub e type d.level s₁ = (.error f, s₂)) :
      Ends w e domain type s (.error f) s₂
  | untimed {d : Decision} {x : Scrubbed} {f : Fault} {s₁ s₂ s₃ : σ}
      (decides : w.validate e.tenantId type s = (.ok d, s₁)) (permits : d.permits = true)
      (scrubs : w.scrub e type d.level s₁ = (.ok x, s₂)) (clock : w.clock s₂ = (.error f, s₃)) :
      Ends w e domain type s (.error f) s₃
  | unstored {d : Decision} {x : Scrubbed} {now : Value} {f : Fault} {s₁ s₂ s₃ s₄ : σ}
      (decides : w.validate e.tenantId type s = (.ok d, s₁)) (permits : d.permits = true)
      (scrubs : w.scrub e type d.level s₁ = (.ok x, s₂)) (clock : w.clock s₂ = (.ok now, s₃))
      (stores : w.store x (provenance domain type d x now) s₃ = (.error f, s₄)) :
      Ends w e domain type s (.error f) s₄
  | stored {d : Decision} {x : Scrubbed} {now : Value} {s₁ s₂ s₃ s₄ : σ}
      (decides : w.validate e.tenantId type s = (.ok d, s₁)) (permits : d.permits = true)
      (scrubs : w.scrub e type d.level s₁ = (.ok x, s₂)) (clock : w.clock s₂ = (.ok now, s₃))
      (stores : w.store x (provenance domain type d x now) s₃ = (.ok (), s₄)) :
      Ends w e domain type s (.ok (.stored d)) s₄

theorem stages_ends (w : Collaborators σ) (e : Entity) (domain type : String) (s : σ) :
    Ends w e domain type s (w.stages e domain type s).1 (w.stages e domain type s).2 := by
  unfold stages
  split
  · rename_i f s₁ decides
    exact .undecided decides
  · rename_i d s₁ decides
    cases permits : d.permits with
    | false => exact .rejected decides permits
    | true =>
      simp only [Bool.not_true, Bool.false_eq_true, if_false]
      split
      · rename_i f s₂ scrubs
        exact .unscrubbed decides permits scrubs
      · rename_i x s₂ scrubs
        split
        · rename_i f s₃ clock
          exact .untimed decides permits scrubs clock
        · rename_i now s₃ clock
          split
          · rename_i f s₄ stores
            exact .unstored decides permits scrubs clock stores
          · rename_i s₄ stores
            exact .stored decides permits scrubs clock stores

/-- The stages end in one way only. -/
theorem Ends.stages_eq {r : Except Fault Ending} {s' : σ} (h : Ends w e domain type s r s') :
    w.stages e domain type s = (r, s') := by
  unfold stages
  cases h with
  | undecided decides => rw [decides]
  | rejected decides denies =>
    rw [decides]
    simp only [denies, Bool.not_false, if_true]
  | unscrubbed decides permits scrubs =>
    rw [decides]
    simp only [permits, Bool.not_true, Bool.false_eq_true, if_false, scrubs]
  | untimed decides permits scrubs clock =>
    rw [decides]
    simp only [permits, Bool.not_true, Bool.false_eq_true, if_false, scrubs, clock]
  | unstored decides permits scrubs clock stores =>
    rw [decides]
    simp only [permits, Bool.not_true, Bool.false_eq_true, if_false, scrubs, clock, stores]
  | stored decides permits scrubs clock stores =>
    rw [decides]
    simp only [permits, Bool.not_true, Bool.false_eq_true, if_false, scrubs, clock, stores]

/-- Only what was stored is reported as accepted. -/
theorem report_accepted {r : Except Fault Ending} :
    (report e domain type r).1 = .accepted ↔ ∃ d, r = .ok (.stored d) := by
  constructor
  · intro h
    cases r with
    | error f => cases h
    | ok ending =>
      cases ending with
      | stored d => exact ⟨d, rfl⟩
      | rejected d =>
        unfold report at h
        dsimp only at h
        split at h
        · cases h
        · cases h
  · rintro ⟨d, rfl⟩
    rfl

theorem admissible_eq_ok {e : Option Entity} {e' : Entity} {type : String} :
    admissible e = .ok (e', type) ↔
      e = some e' ∧ e'.type = .str type ∧ allBlank type.toList = false := by
  constructor
  · intro h
    unfold admissible at h
    split at h
    · cases h
    · split at h
      · rename_i text htext
        obtain ⟨hstr, hblank⟩ := Option.filter_eq_some_iff.mp htext
        cases h
        exact ⟨rfl, Value.str?_eq_some.mp hstr, by simpa using hblank⟩
      · cases h
  · rintro ⟨rfl, htype, hblank⟩
    simp [admissible, htype, Value.str?, Option.filter, hblank]

end Collaborators

/-! ## The real collaborators -/

namespace Network
open Collaborators

/-- The stages of an accepted contribution, from the type of the entity to the row. -/
structure Acceptance (n : Network) (e : Entity) where
  type : String
  decision : Decision
  scrubbed : Scrubbed
  draft : Draft
  row : Row
  hasType : e.type = .str type
  typeNotBlank : allBlank type.toList = false
  decides : (n.validator.validate e.tenantId (.str type)).1 = .ok decision
  permits : decision.permits = true
  scrubs : (n.scrubber.scrub (some e) (.str type) (.level decision.level)).1 = .ok scrubbed
  drafts : Draft.of scrubbed (provenance e.domain type decision scrubbed n.ingestedAt) = .ok draft
  notBroken : n.store.broken = none
  writes : Row.of draft = .ok row

variable {n : Network} {e : Entity}

/-! ### Each stage changes its own part only -/

theorem validate_eq {tenant : Value} {type : String} {r : Except Fault Decision} {m : Network}
    (h : collaborators.validate tenant type n = (r, m)) :
    (n.validator.validate tenant (.str type)).1 = r ∧
      m = { n with
        validator := (n.validator.validate tenant (.str type)).2.2
        log := n.log ++ (n.validator.validate tenant (.str type)).2.1 } :=
  ⟨congrArg Prod.fst h, (congrArg Prod.snd h).symm⟩

theorem scrub_eq {type : String} {l : Level} {r : Except Fault Scrubbed} {m : Network}
    (h : collaborators.scrub e type l n = (r, m)) :
    (n.scrubber.scrub (some e) (.str type) (.level l)).1 = r ∧
      m = { n with log := n.log ++ (n.scrubber.scrub (some e) (.str type) (.level l)).2 } :=
  ⟨congrArg Prod.fst h, (congrArg Prod.snd h).symm⟩

theorem store_eq {s : Scrubbed} {p : Provenance} {r : Except Fault Unit} {m : Network}
    (h : collaborators.store s p n = (r, m)) :
    (n.store.append (some s) (some p)).1 = r ∧
      m = { n with
        store := (n.store.append (some s) (some p)).2.2
        log := n.log ++ (n.store.append (some s) (some p)).2.1 } :=
  ⟨congrArg Prod.fst h, (congrArg Prod.snd h).symm⟩

/-- The stages decide once, and write only what they report as stored. -/
theorem ends_frame {domain type : String} {r : Except Fault Ending} {m : Network}
    (h : Ends collaborators e domain type n r m) :
    m.validator = (n.validator.validate e.tenantId (.str type)).2.2 ∧ m.scrubber = n.scrubber ∧
      m.ingestedAt = n.ingestedAt ∧ ((∀ d, r ≠ .ok (.stored d)) → m.store = n.store) := by
  cases h with
  | undecided decides =>
    obtain ⟨_, rfl⟩ := validate_eq decides
    exact ⟨rfl, rfl, rfl, fun _ => rfl⟩
  | rejected decides _ =>
    obtain ⟨_, rfl⟩ := validate_eq decides
    exact ⟨rfl, rfl, rfl, fun _ => rfl⟩
  | unscrubbed decides _ scrubs =>
    obtain ⟨_, rfl⟩ := validate_eq decides
    obtain ⟨_, rfl⟩ := scrub_eq scrubs
    exact ⟨rfl, rfl, rfl, fun _ => rfl⟩
  | untimed _ _ _ clock => cases clock
  | unstored decides _ scrubs clock stores =>
    obtain ⟨_, rfl⟩ := validate_eq decides
    obtain ⟨_, rfl⟩ := scrub_eq scrubs
    cases clock
    obtain ⟨hstores, rfl⟩ := store_eq stores
    exact ⟨rfl, rfl, rfl, fun _ => Store.append_error hstores⟩
  | stored decides _ scrubs clock stores =>
    obtain ⟨_, rfl⟩ := validate_eq decides
    obtain ⟨_, rfl⟩ := scrub_eq scrubs
    cases clock
    obtain ⟨_, rfl⟩ := store_eq stores
    exact ⟨rfl, rfl, rfl, fun hne => absurd rfl (hne _)⟩

/-! ### Acceptance -/

/-- What was stored went through every stage. -/
theorem exists_acceptance_of_ends {type : String} {d : Decision} {m : Network}
    (htype : e.type = .str type) (hblank : allBlank type.toList = false)
    (h : Ends collaborators e e.domain type n (.ok (.stored d)) m) : Nonempty (Acceptance n e) := by
  cases h with
  | stored decides permits scrubs clock stores =>
    obtain ⟨hdecides, rfl⟩ := validate_eq decides
    obtain ⟨hscrubs, rfl⟩ := scrub_eq scrubs
    cases clock
    obtain ⟨hstores, rfl⟩ := store_eq stores
    obtain ⟨draft, row, hdraft, hbroken, hrow⟩ := Store.append_ok hstores
    exact ⟨{
      type := type
      decision := d
      scrubbed := _
      draft := draft
      row := row
      hasType := htype
      typeNotBlank := hblank
      decides := hdecides
      permits := permits
      scrubs := hscrubs
      drafts := hdraft
      notBroken := hbroken
      writes := hrow }⟩

/-- The row carries the provenance that was put together from the stages. -/
theorem Acceptance.provenance_eq (a : Acceptance n e) :
    a.row.provenance = provenance e.domain a.type a.decision a.scrubbed n.ingestedAt :=
  (Row.shows a.writes).provenance.trans (Draft.encodes a.drafts).provenance

/-- An entity that is permitted, scrubbed and can be stored has an acceptance. -/
theorem exists_acceptance {type : String} {d : Decision} {x : Scrubbed}
    (htype : e.type = .str type) (hblank : allBlank type.toList = false)
    (hdecides : (n.validator.validate e.tenantId (.str type)).1 = .ok d)
    (hpermits : d.permits = true)
    (hscrubs : (n.scrubber.scrub (some e) (.str type) (.level d.level)).1 = .ok x)
    (hstorable : isStorable x = true) (hingested : (timeColumn n.ingestedAt).isOk = true)
    (hbroken : n.store.broken = none) : Nonempty (Acceptance n e) := by
  obtain ⟨draft, row, hdraft, hrow⟩ :=
    exists_row_of_isStorable (p := provenance e.domain type d x n.ingestedAt) hstorable hingested
  exact ⟨{
    type := type
    decision := d
    scrubbed := x
    draft := draft
    row := row
    hasType := htype
    typeNotBlank := hblank
    decides := hdecides
    permits := hpermits
    scrubs := hscrubs
    drafts := hdraft
    notBroken := hbroken
    writes := hrow }⟩

/-- An acceptance leads the stages to their end, where its row is appended. -/
theorem Acceptance.ends (a : Acceptance n e) :
    ∃ m, Ends collaborators e e.domain a.type n (.ok (.stored a.decision)) m ∧
      m.store = { n.store with rows := n.store.rows ++ [a.row] } := by
  have happend := Store.append_eq a.drafts a.notBroken a.writes
  have hstores := congrArg Prod.fst happend
  have hrows := congrArg (fun x => x.2.2) happend
  exact ⟨_, .stored (Prod.ext a.decides rfl) a.permits (Prod.ext a.scrubs rfl) rfl
    (Prod.ext hstores rfl), hrows⟩

/-! ### Contributions -/

theorem contribute_of_admissible {e? : Option Entity} {type : String}
    (h : admissible e? = .ok (e, type)) :
    (n.contribute e?).1 =
        .ok (report e e.domain type (collaborators.stages e e.domain type n).1).1 ∧
      (n.contribute e?).2.validator = (collaborators.stages e e.domain type n).2.validator ∧
      (n.contribute e?).2.store = (collaborators.stages e e.domain type n).2.store := by
  unfold Network.contribute Collaborators.contribute
  rw [h]
  exact ⟨rfl, rfl, rfl⟩

theorem contribute_of_not_admissible {e? : Option Entity} {f : Failure}
    (h : admissible e? = .error f) : n.contribute e? = (.error f, n) := by
  unfold Network.contribute Collaborators.contribute
  rw [h]

/-- Exactly the entities with an acceptance are accepted. -/
theorem contribute_accepted_iff :
    (n.contribute (some e)).1 = .ok .accepted ↔ Nonempty (Acceptance n e) := by
  constructor
  · intro h
    cases hadmissible : admissible (some e) with
    | error f =>
      rw [contribute_of_not_admissible hadmissible] at h
      cases h
    | ok admitted =>
      obtain ⟨e', type⟩ := admitted
      obtain ⟨he, htype, hblank⟩ := admissible_eq_ok.mp hadmissible
      cases he
      rw [(contribute_of_admissible hadmissible).1] at h
      obtain ⟨d, hd⟩ := report_accepted.mp (Except.ok.inj h)
      have hends := stages_ends collaborators e e.domain type n
      rw [hd] at hends
      exact exists_acceptance_of_ends htype hblank hends
  · rintro ⟨a⟩
    obtain ⟨m, hends, _⟩ := a.ends
    have hadmissible := admissible_eq_ok.mpr ⟨rfl, a.hasType, a.typeNotBlank⟩
    rw [(contribute_of_admissible hadmissible).1, hends.stages_eq]
    rfl

/-- An accepted contribution appends the row of its acceptance. -/
theorem Acceptance.store_eq (a : Acceptance n e) :
    (n.contribute (some e)).2.store = { n.store with rows := n.store.rows ++ [a.row] } := by
  obtain ⟨m, hends, hstore⟩ := a.ends
  have hadmissible := admissible_eq_ok.mpr ⟨rfl, a.hasType, a.typeNotBlank⟩
  rw [(contribute_of_admissible hadmissible).2.2, hends.stages_eq]
  exact hstore

/-- Every other contribution leaves the ledger as it was. -/
theorem store_of_not_accepted {e? : Option Entity} (h : (n.contribute e?).1 ≠ .ok .accepted) :
    (n.contribute e?).2.store = n.store := by
  cases hadmissible : admissible e? with
  | error f => rw [contribute_of_not_admissible hadmissible]
  | ok admitted =>
    obtain ⟨e, type⟩ := admitted
    obtain ⟨hreport, _, hstore⟩ := contribute_of_admissible (n := n) hadmissible
    rw [hstore]
    refine (ends_frame (stages_ends collaborators e e.domain type n)).2.2.2 ?_
    intro d hd
    apply h
    rw [hreport, hd]
    rfl

/-- A contribution changes the validator by one decision at most. -/
theorem validator_of_contribute (n : Network) (e? : Option Entity) :
    (n.contribute e?).2.validator = n.validator ∨
      ∃ tenant type, (n.contribute e?).2.validator = (n.validator.validate tenant type).2.2 := by
  cases hadmissible : admissible e? with
  | error f =>
    rw [contribute_of_not_admissible hadmissible]
    exact Or.inl rfl
  | ok admitted =>
    obtain ⟨e, type⟩ := admitted
    obtain ⟨_, hvalidator, _⟩ := contribute_of_admissible (n := n) hadmissible
    rw [hvalidator]
    exact Or.inr ⟨_, _, (ends_frame (stages_ends collaborators e e.domain type n)).1⟩

/-! ### A sample -/

/-- A network in which the tenant of the sample entity shares its notes. -/
def sampleNetwork : Network where
  validator :=
    { source := .static [("acme", .record ⟨true, .moderate, "2.1", ["Note"], none⟩)] true
      cache := some ⟨.whole 300, 10, [], 0⟩ }
  scrubber := sampleScrubber
  ingestedAt := .datetime sampleScrubber.clock
  store := {}

/-- It accepts every note of its tenant that can be scrubbed and stored. -/
theorem exists_acceptance_of_note (htype : e.type = .str "Note") (htenant : e.tenantId = .str "acme")
    (hscrubs : (sampleScrubber.scrub (some e) (.str "Note") (.level .moderate)).1.toOption.any
      isStorable = true) : Nonempty (Acceptance sampleNetwork e) := by
  have hdecides : (sampleNetwork.validator.validate e.tenantId (.str "Note")).1 =
      .ok ⟨true, .moderate, "2.1", true⟩ := by
    rw [htenant]
    rfl
  cases hresult : (sampleScrubber.scrub (some e) (.str "Note") (.level .moderate)).1 with
  | error f =>
    rw [hresult] at hscrubs
    cases hscrubs
  | ok x =>
    rw [hresult] at hscrubs
    exact exists_acceptance htype (by decide) hdecides rfl hresult hscrubs rfl rfl

theorem exists_acceptance_sample : Nonempty (Acceptance sampleNetwork sampleEntity) := by
  refine exists_acceptance_of_note rfl rfl ?_
  decide +kernel

end Network

end ConsentGate
