import ConsentGate.Consent.Validator

/-! The record in force for a tenant, and what the cache may hold beside it.

A static source that tells its changes is the only authority on consent. `Coherent` says that the
cache holds nothing else than what the source answers now; every change and every decision keeps it so
(`Coherent.apply`, `Coherent.validate`). Under it, a decision that permits a contribution repeats the
record in force (`Coherent.permits`). -/
namespace ConsentGate.Consent
open Number Text
set_option autoImplicit false

/-! ## Answers of a source -/

namespace Source

/-- What the source answers for a tenant now; a scripted one answers by turns, not by tenant. -/
def answerFor : Source → String → Answer
  | .static answers _, tenant => lookup answers tenant
  | .scripted _, _ => .absent

theorem lookup_replace_of_ne {tenant t : String} (h : t ≠ tenant) (answer : Answer)
    (answers : List (String × Answer)) :
    lookup (replace tenant answer answers) t = lookup answers t := by
  have hne : (t == tenant) = false := beq_eq_false_iff_ne.mpr h
  unfold lookup
  induction answers with
  | nil => rw [replace, List.lookup_cons, hne]
  | cons a rest ih =>
    by_cases ha : (a.1 == tenant) = true
    · rw [replace, if_pos ha, List.lookup_cons, List.lookup_cons, beq_iff_eq.mp ha, hne]
    · rw [replace, if_neg ha, List.lookup_cons, List.lookup_cons]
      cases t == a.1 with
      | true => rfl
      | false => exact ih

theorem lookup_remove_of_ne {tenant t : String} (h : t ≠ tenant)
    (answers : List (String × Answer)) :
    lookup (answers.filter fun a => a.1 != tenant) t = lookup answers t := by
  unfold lookup
  induction answers with
  | nil => rfl
  | cons a rest ih =>
    by_cases ha : a.1 = tenant
    · have hne : (t == a.1) = false := by
        rw [ha]
        exact beq_eq_false_iff_ne.mpr h
      rw [List.filter_cons_of_neg (by simpa using ha), List.lookup_cons, hne]
      exact ih
    · rw [List.filter_cons_of_pos (by simpa using ha), List.lookup_cons, List.lookup_cons]
      cases t == a.1 with
      | true => rfl
      | false => exact ih

theorem answerFor_set_of_ne {tenant t : String} (h : t ≠ tenant) (s : Source) (answer : Answer) :
    (s.set tenant answer).answerFor t = s.answerFor t := by
  cases s with
  | static answers subscribed => exact lookup_replace_of_ne h answer answers
  | scripted replies => rfl

theorem answerFor_remove_of_ne {tenant t : String} (h : t ≠ tenant) (s : Source) :
    (s.remove tenant).answerFor t = s.answerFor t := by
  cases s with
  | static answers subscribed => exact lookup_remove_of_ne h answers
  | scripted replies => rfl

@[simp] theorem tells_set (s : Source) (tenant : String) (answer : Answer) :
    (s.set tenant answer).tells = s.tells := by cases s <;> rfl

@[simp] theorem tells_remove (s : Source) (tenant : String) :
    (s.remove tenant).tells = s.tells := by cases s <;> rfl

/-- A source that tells its changes answers from its records and is not changed by that. -/
theorem ask_of_tells {s : Source} (h : s.tells = true) (tenant : String) :
    s.ask tenant = (⟨[], .ok (s.answerFor tenant)⟩, s) := by
  cases s with
  | static answers subscribed => rfl
  | scripted replies => cases h

end Source

/-! ## Entries of a cache -/

namespace Cache

variable {α : Type} {c : Cache α} {now : Quantity} {tenant : String} {e : CacheEntry α}

theorem mem_without : e ∈ c.without tenant ↔ e ∈ c.entries ∧ e.tenant ≠ tenant := by
  simp [without]

theorem find?_eq_some (h : c.find? tenant = some e) : e ∈ c.entries ∧ e.tenant = tenant := by
  refine ⟨List.mem_of_find?_eq_some h, ?_⟩
  simpa using List.find?_some h

/-- A look into the cache adds no entry. -/
theorem mem_of_mem_get (h : e ∈ (c.get now tenant).2.entries) : e ∈ c.entries := by
  unfold get at h
  split at h
  · exact h
  · rename_i found hfound
    split at h
    · exact h
    · exact (mem_without.mp h).1
    · rcases List.mem_append.mp h with h | h
      · exact (mem_without.mp h).1
      · rw [List.mem_singleton.mp h]
        exact (find?_eq_some hfound).1

/-- What a look into the cache finds is the record of an entry. -/
theorem exists_mem_of_get {record : α} (h : (c.get now tenant).1 = .ok (some record)) :
    ∃ e ∈ c.entries, e.tenant = tenant ∧ e.record = record := by
  unfold get at h
  split at h
  · cases h
  · rename_i found hfound
    split at h
    · cases h
    · cases h
    · obtain ⟨hmem, htenant⟩ := find?_eq_some hfound
      exact ⟨found, hmem, htenant, Option.some.inj (Except.ok.inj h)⟩

theorem mem_of_mem_put {record : α} {generation : Option Int}
    (h : e ∈ (c.put now tenant record generation).2.entries) :
    e ∈ c.entries ∨ (e.tenant = tenant ∧ e.record = record) := by
  unfold put at h
  split at h
  · exact Or.inl h
  · split at h
    · exact Or.inl h
    · rcases List.mem_append.mp (List.mem_of_mem_drop h) with h | h
      · exact Or.inl (mem_without.mp h).1
      · rw [List.mem_singleton.mp h]
        exact Or.inr ⟨rfl, rfl⟩

theorem mem_invalidate :
    e ∈ (c.invalidate tenant).2.entries ↔ e ∈ c.entries ∧ e.tenant ≠ tenant := mem_without

theorem make_entries {ttl : Value} {capacity : Int} (h : make ttl capacity = .ok c) :
    c.entries = [] := by
  unfold make at h
  split at h
  · cases h
  · obtain ⟨late, _, h⟩ := bind_eq_ok.mp h
    split at h
    · obtain ⟨text, _, h⟩ := bind_eq_ok.mp h
      cases h
    · split at h
      · obtain ⟨text, _, h⟩ := bind_eq_ok.mp h
        cases h
      · cases h
        rfl

theorem make_whole {n capacity : Int} (hn : 0 < n) (hcapacity : 0 < capacity) :
    make (α := α) (.int n) capacity = .ok ⟨.whole n, capacity.toNat, [], 0⟩ := by
  have hlate : Quantity.le? (.whole n) (.whole 0) = .ok false := by
    rw [Quantity.le?_whole, decide_eq_false (by omega)]
  simp only [make, Value.quantity?, hlate, bind, Except.bind, pure, Except.pure,
    Bool.false_eq_true, if_false, if_neg (show ¬capacity ≤ 0 by omega)]

end Cache

/-! ## Changes -/

/-- What may happen to a validator between two decisions. -/
inductive Change where
  | set (tenant : String) (answer : Answer)
  | remove (tenant : String)
  | invalidate (tenant : String)
  | advance (elapsed : Value)

namespace Validator

/-- The validator after a change; where the clock cannot be advanced it stays. -/
def apply (v : Validator) : Change → Validator
  | .set tenant answer => v.setConsent tenant answer
  | .remove tenant => v.removeConsent tenant
  | .invalidate tenant => v.invalidate tenant
  | .advance elapsed => (v.advance elapsed).toOption.getD v

/-- The record in force for a tenant: the one that the source holds now, or that the payload it holds
describes. -/
def current? (v : Validator) (tenant : String) : Option Record :=
  match (v.source.answerFor tenant).toRecord with
  | .ok record => record
  | .error _ => none

/-- Asking a source that tells its changes brings its answer and moves nothing but the counter. -/
theorem consult_of_tells {v : Validator} (h : v.source.tells = true) (tenant : String) :
    v.consult tenant =
      ((v.source.answerFor tenant).toRecord, { v with lookups := v.lookups + 1 }) := by
  simp only [consult, Source.ask_of_tells h, List.foldl_nil]
  rfl

/-! ## Coherence -/

/-- The source tells its changes, and every entry of the cache is what it answers now. -/
structure Coherent (v : Validator) : Prop where
  tells : v.source.tells = true
  cached : ∀ c, v.cache = some c → ∀ e ∈ c.entries,
    (v.source.answerFor e.tenant).toRecord = .ok e.record

namespace Coherent

variable {v : Validator}

/-- A validator that differs in its clock and its counter only. -/
theorem congr {w : Validator} (h : Coherent v) (hs : w.source = v.source) (hc : w.cache = v.cache) :
    Coherent w := by
  refine ⟨hs ▸ h.tells, ?_⟩
  intro c hw e he
  rw [hs]
  exact h.cached c (hc ▸ hw) e he

/-- After a change of one tenant's answer the entries of all others still agree with the source, and
those of the tenant are gone. -/
theorem invalidate_of_agree {s : Source} {tenant : String} (h : Coherent v) (ht : s.tells = true)
    (hs : ∀ t, t ≠ tenant → s.answerFor t = v.source.answerFor t) :
    Coherent ({ v with source := s }.invalidate tenant) := by
  refine ⟨ht, ?_⟩
  intro c hc e he
  obtain ⟨c', hc', rfl⟩ := Option.map_eq_some_iff.mp hc
  obtain ⟨hmem, hne⟩ := Cache.mem_invalidate.mp he
  have hcached := h.cached c' hc' e hmem
  rw [← hs e.tenant hne] at hcached
  exact hcached

theorem apply (h : Coherent v) (change : Change) : Coherent (v.apply change) := by
  cases change with
  | set tenant answer =>
    have ht : (v.source.set tenant answer).tells = true := by rw [Source.tells_set, h.tells]
    have hagree := h.invalidate_of_agree ht
      fun t hne => Source.answerFor_set_of_ne hne v.source answer
    simp only [Validator.apply, setConsent, ht, if_true]
    exact hagree
  | remove tenant =>
    have ht : (v.source.remove tenant).tells = true := by rw [Source.tells_remove, h.tells]
    have hagree := h.invalidate_of_agree ht
      fun t hne => Source.answerFor_remove_of_ne hne v.source
    simp only [Validator.apply, removeConsent, ht, if_true]
    exact hagree
  | invalidate tenant => exact h.invalidate_of_agree h.tells fun t _ => rfl
  | advance elapsed =>
    cases hadvance : v.advance elapsed with
    | error f =>
      simp only [Validator.apply, hadvance]
      exact h
    | ok w =>
      obtain ⟨now, _, hw⟩ := bind_eq_ok.mp hadvance
      cases hw
      simp only [Validator.apply, hadvance]
      exact h.congr rfl rfl

/-! ## Lookups -/

theorem consult_eq (h : Coherent v) (tenant : String) :
    v.consult tenant =
      ((v.source.answerFor tenant).toRecord, { v with lookups := v.lookups + 1 }) :=
  consult_of_tells h.tells tenant

/-- A cache that holds no entry but those it had, or what the source answers. -/
theorem withCache {c d : RecordCache} (h : Coherent v) (hc : v.cache = some c)
    (hd : ∀ e ∈ d.entries, e ∈ c.entries ∨ (v.source.answerFor e.tenant).toRecord = .ok e.record) :
    Coherent { v with cache := some d } := by
  refine ⟨h.tells, ?_⟩
  intro c' hc' e he
  cases hc'
  rcases hd e he with hmem | hanswer
  · exact h.cached c hc e hmem
  · exact hanswer

/-- Keeping what the source answers keeps the cache coherent. -/
theorem keep {tenant : String} {record : Option Record} (h : Coherent v)
    (hanswer : (v.source.answerFor tenant).toRecord = .ok record) (generation : Nat) :
    Coherent (v.keep tenant record generation).2 ∧
      (v.keep tenant record generation).2.source = v.source ∧
      ∀ r, (v.keep tenant record generation).1 = .ok r → r = record := by
  unfold Validator.keep
  cases hc : v.cache with
  | none => exact ⟨h, rfl, fun r hr => (Except.ok.inj hr).symm⟩
  | some c =>
    refine ⟨h.withCache hc fun e he => ?_, rfl, fun r hr => ?_⟩
    · rcases Cache.mem_of_mem_put he with hmem | ⟨htenant, hrecord⟩
      · exact Or.inl hmem
      · right
        rw [htenant, hrecord]
        exact hanswer
    · obtain ⟨kept, _, hkept⟩ := map_eq_ok.mp hr
      exact hkept.symm

/-- A lookup keeps the cache coherent, and what it comes to is what the source answers. -/
theorem lookup (h : Coherent v) (tenant : String) :
    Coherent (v.lookup tenant).2 ∧ (v.lookup tenant).2.source = v.source ∧
      ∀ record, (v.lookup tenant).1 = .ok record →
        (v.source.answerFor tenant).toRecord = .ok record := by
  unfold Validator.lookup
  cases hc : v.cache with
  | none =>
    dsimp only
    rw [h.consult_eq]
    exact ⟨h.congr rfl rfl, rfl, fun record hr => hr⟩
  | some c =>
    have hget : Coherent { v with cache := some (c.get v.now tenant).2 } :=
      h.withCache hc fun e he => Or.inl (Cache.mem_of_mem_get he)
    dsimp only
    cases hhit : (c.get v.now tenant).1 with
    | error f => exact ⟨hget, rfl, fun record hr => nomatch hr⟩
    | ok found =>
      cases found with
      | some record =>
        refine ⟨hget, rfl, fun r hr => ?_⟩
        obtain ⟨e, hmem, rfl, rfl⟩ := Cache.exists_mem_of_get hhit
        rw [h.cached c hc e hmem]
        exact hr
      | none =>
        dsimp only
        rw [hget.consult_eq]
        cases hanswer : (v.source.answerFor tenant).toRecord with
        | error f => exact ⟨hget.congr rfl rfl, rfl, fun record hr => nomatch hr⟩
        | ok record =>
          have hasked : Coherent { v with
              cache := some (c.get v.now tenant).2
              lookups := v.lookups + 1 } := hget.congr rfl rfl
          obtain ⟨hkeep, hsource, hresult⟩ :=
            hasked.keep hanswer (c.get v.now tenant).2.generation
          exact ⟨hkeep, hsource, fun r hr => congrArg Except.ok (hresult r hr).symm⟩

/-! ## Decisions -/

theorem validate (h : Coherent v) (tenant entityType : Value) :
    Coherent (v.validate tenant entityType).2.2 := by
  unfold Validator.validate
  split
  · split
    · exact h
    · split
      · exact h
      · rename_i type _ t _
        have hlookup := (h.lookup t).1
        split
        · rename_i f w hw
          rw [hw] at hlookup
          exact hlookup
        · rename_i record w hw
          rw [hw] at hlookup
          exact hlookup
  · exact h

end Coherent

/-- A record under which entities of a type may be contributed: the tenant opted in, and the type is
one of those listed, if any are. -/
structure Grants (r : Record) (type : String) : Prop where
  hasConsent : r.hasConsent = true
  inScope : r.categories = [] ∨ type ∈ r.categories

theorem grants_of_judge {tenant type : String} {r : Record}
    (h : (judge tenant type (some r)).1.permits = true) :
    Grants r type ∧ (judge tenant type (some r)).1 = ⟨true, r.level, r.version, true⟩ := by
  cases hconsent : r.hasConsent with
  | false => simp [judge, hconsent, Decision.denied, Decision.permits] at h
  | true =>
    simp only [judge, hconsent, Bool.not_true, Bool.false_eq_true, if_false, Decision.permits,
      Bool.true_and] at h ⊢
    refine ⟨⟨hconsent, ?_⟩, by rw [h]⟩
    simpa [Record.allows] using h

/-- A decision that permits a contribution repeats the record in force for the tenant, which grants
the type. -/
theorem Coherent.permits {v : Validator} (h : Coherent v) {tenant : Value} {type : String}
    {d : Decision} (hd : (v.validate tenant (.str type)).1 = .ok d) (hp : d.permits = true) :
    ∃ t r, tenant = .str t ∧ v.current? t = some r ∧ Grants r type ∧ d.level = r.level ∧
      d.version = r.version := by
  unfold Validator.validate at hd
  dsimp only at hd
  split at hd
  · cases hd
  · split at hd
    · cases hd
      cases hp
    · rename_i t ht
      obtain ⟨htext, _⟩ := Option.filter_eq_some_iff.mp ht
      have hanswer := (h.lookup t).2.2
      split at hd
      · cases hd
        cases hp
      · rename_i record w hw
        rw [hw] at hanswer
        cases hd
        cases record with
        | none => cases hp
        | some r =>
          obtain ⟨hgrants, hd⟩ := grants_of_judge hp
          refine ⟨t, r, Value.str?_eq_some.mp htext, ?_, hgrants, congrArg Decision.level hd,
            congrArg Decision.version hd⟩
          simp only [current?, hanswer (some r) rfl]

end Validator

end ConsentGate.Consent
