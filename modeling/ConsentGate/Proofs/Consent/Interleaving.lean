import ConsentGate.Proofs.Consent.Coherence
import Mathlib.Data.Multiset.ZeroCons
import Mathlib.Logic.Relation

/-! Lookups that overlap with one another and with changes of consent.

A lookup that misses the cache goes on in three more steps: it notes the generation of the cache,
reads the source, and puts what it read into the cache under the generation it noted. A change goes in
two: the source is changed, and later the validator is told. `Step` lets any number of both take their
steps in any order. An entry of the cache may then be out of date, but only until the validator is told
of the change (`stale_only_while_untold`). What carries this is `Guarded`: what a lookup under way has
read is as good as an entry, unless the generation it noted has passed, and then it is never kept. -/
namespace ConsentGate.Consent
open Number Relation
set_option autoImplicit false

/-! ## Generations of a cache -/

namespace Cache

variable {α : Type}

@[simp] theorem get_generation (c : Cache α) (now : Quantity) (tenant : String) :
    (c.get now tenant).2.generation = c.generation := by
  unfold get
  split
  · rfl
  · split <;> rfl

@[simp] theorem put_generation (c : Cache α) (now : Quantity) (tenant : String) (record : α)
    (generation : Option Int) : (c.put now tenant record generation).2.generation = c.generation := by
  unfold put
  split
  · rfl
  · split <;> rfl

theorem put_of_ne {c : Cache α} {generation : Nat} (h : generation ≠ c.generation) (now : Quantity)
    (tenant : String) (record : α) :
    c.put now tenant record (some (generation : Int)) = (.ok false, c) := by
  have hne : ((generation : Int) != (c.generation : Int)) = true := bne_iff_ne.mpr (by omega)
  simp only [put, Option.any_some, hne, if_true]

end Cache

/-! ## Steps -/

/-- How far a lookup under way has come. -/
inductive Stage where
  /-- The cache held nothing for the tenant. -/
  | missed
  | noted (generation : Nat)
  | answered (generation : Nat) (record : Option Record)

structure Flight where
  tenant : String
  stage : Stage

/-- A validator, the lookups under way, and the tenants of changes that it is still to be told of. -/
structure Traffic where
  validator : Validator
  flights : Multiset Flight
  untold : Multiset String

namespace Traffic

def withCache (s : Traffic) (c : RecordCache) : Traffic :=
  { s with validator := { s.validator with cache := some c } }

/-- The source answers differently from now on; the validator is still to be told. -/
def changed (s : Traffic) (source : Source) (tenant : String) : Traffic where
  validator := { s.validator with source := source }
  flights := s.flights
  untold := tenant ::ₘ s.untold

def start (answers : List (String × Answer)) (c : RecordCache) (now : Quantity) : Traffic where
  validator := { source := .static answers true, cache := some c, now := now }
  flights := 0
  untold := 0

inductive Step : Traffic → Traffic → Prop
  /-- A lookup ends at the cache. -/
  | hit {s : Traffic} {c : RecordCache} {tenant : String} (cache : s.validator.cache = some c)
      (hits : (c.get s.validator.now tenant).1 ≠ .ok none) :
      Step s (s.withCache (c.get s.validator.now tenant).2)
  | miss {s : Traffic} {c : RecordCache} {tenant : String} (cache : s.validator.cache = some c)
      (misses : (c.get s.validator.now tenant).1 = .ok none) :
      Step s { s.withCache (c.get s.validator.now tenant).2 with
        flights := ⟨tenant, .missed⟩ ::ₘ s.flights }
  | note {s : Traffic} {c : RecordCache} {tenant : String} {others : Multiset Flight}
      (cache : s.validator.cache = some c) (flight : s.flights = ⟨tenant, .missed⟩ ::ₘ others) :
      Step s { s with flights := ⟨tenant, .noted c.generation⟩ ::ₘ others }
  | read {s : Traffic} {tenant : String} {generation : Nat} {record : Option Record}
      {others : Multiset Flight} (flight : s.flights = ⟨tenant, .noted generation⟩ ::ₘ others)
      (answers : (s.validator.consult tenant).1 = .ok record) :
      Step s { s with
        validator := (s.validator.consult tenant).2
        flights := ⟨tenant, .answered generation record⟩ ::ₘ others }
  /-- A lookup ends at an answer that is no record. -/
  | fail {s : Traffic} {tenant : String} {generation : Nat} {f : Fault} {others : Multiset Flight}
      (flight : s.flights = ⟨tenant, .noted generation⟩ ::ₘ others)
      (fails : (s.validator.consult tenant).1 = .error f) :
      Step s { s with validator := (s.validator.consult tenant).2, flights := others }
  | put {s : Traffic} {tenant : String} {generation : Nat} {record : Option Record}
      {others : Multiset Flight}
      (flight : s.flights = ⟨tenant, .answered generation record⟩ ::ₘ others) :
      Step s { s with
        validator := (s.validator.keep tenant record generation).2
        flights := others }
  | set {s : Traffic} (tenant : String) (answer : Answer) :
      Step s (s.changed (s.validator.source.set tenant answer) tenant)
  | remove {s : Traffic} (tenant : String) :
      Step s (s.changed (s.validator.source.remove tenant) tenant)
  | tell {s : Traffic} {tenant : String} {others : Multiset String}
      (change : s.untold = tenant ::ₘ others) :
      Step s { s with validator := s.validator.invalidate tenant, untold := others }
  | advance {s : Traffic} {v : Validator} {elapsed : Value}
      (advances : s.validator.advance elapsed = .ok v) : Step s { s with validator := v }
  | evict {s : Traffic} {c : RecordCache} (cache : s.validator.cache = some c) (tenant : String) :
      Step s (s.withCache { c with entries := c.without tenant })

/-! ### What runs without a break -/

/-- A lookup that nothing comes between takes these steps. -/
theorem steps_lookup {v : Validator} {c : RecordCache} (hc : v.cache = some c) (tenant : String)
    (flights : Multiset Flight) (untold : Multiset String) :
    ReflTransGen Step ⟨v, flights, untold⟩ ⟨(v.lookup tenant).2, flights, untold⟩ := by
  unfold Validator.lookup
  rw [hc]
  dsimp only
  cases hfound : (c.get v.now tenant).1 with
  | error f => exact .single (.hit hc (by rw [hfound]; nofun))
  | ok found =>
    cases found with
    | some record => exact .single (.hit hc (by rw [hfound]; nofun))
    | none =>
      have miss : Step ⟨v, flights, untold⟩ _ := .miss hc hfound
      refine .head miss (.head (.note rfl rfl) ?_)
      cases hanswer : (Validator.consult { v with cache := some (c.get v.now tenant).2 } tenant).1 with
      | error f => exact .single (.fail rfl hanswer)
      | ok record => exact .head (.read rfl hanswer) (.single (.put rfl))

theorem steps_apply_set {v : Validator} (ht : v.source.tells = true) (tenant : String)
    (answer : Answer) (flights : Multiset Flight) (untold : Multiset String) :
    ReflTransGen Step ⟨v, flights, untold⟩ ⟨v.apply (.set tenant answer), flights, untold⟩ := by
  have htells : (v.source.set tenant answer).tells = true := by rw [Source.tells_set, ht]
  simp only [Validator.apply, Validator.setConsent, htells, if_true]
  exact .head (.set tenant answer) (.single (.tell rfl))

theorem steps_apply_remove {v : Validator} (ht : v.source.tells = true) (tenant : String)
    (flights : Multiset Flight) (untold : Multiset String) :
    ReflTransGen Step ⟨v, flights, untold⟩ ⟨v.apply (.remove tenant), flights, untold⟩ := by
  have htells : (v.source.remove tenant).tells = true := by rw [Source.tells_remove, ht]
  simp only [Validator.apply, Validator.removeConsent, htells, if_true]
  exact .head (.remove tenant) (.single (.tell rfl))

/-! ## What keeps old records out -/

/-- The source answers so for the tenant now, or the validator is still to be told that it does not. -/
def Vouched (s : Traffic) (tenant : String) (record : Option Record) : Prop :=
  (s.validator.source.answerFor tenant).toRecord = .ok record ∨ tenant ∈ s.untold

/-- What a lookup has read is vouched for as long as the generation that it noted lasts. -/
def Sound (s : Traffic) (c : RecordCache) (f : Flight) : Prop :=
  match f.stage with
  | .missed => True
  | .noted generation => generation ≤ c.generation
  | .answered generation record =>
    generation ≤ c.generation ∧ (generation = c.generation → s.Vouched f.tenant record)

/-- With the generation grown, a lookup under way stays sound; what it has read has to be vouched for
only if the generation is still the same. -/
theorem Sound.mono {s t : Traffic} {c d : RecordCache} {f : Flight} (h : s.Sound c f)
    (hle : c.generation ≤ d.generation)
    (hvouched : d.generation = c.generation → ∀ tenant record, s.Vouched tenant record →
      t.Vouched tenant record) : t.Sound d f := by
  unfold Sound at h ⊢
  split at h
  · trivial
  · exact h.trans hle
  · obtain ⟨hold, hread⟩ := h
    refine ⟨hold.trans hle, fun hpresent => ?_⟩
    have hsame : d.generation = c.generation := Nat.le_antisymm (hpresent ▸ hold) hle
    exact hvouched hsame _ _ (hread (hpresent.trans hsame))

/-- All that the cache holds is vouched for, and all lookups under way are sound. -/
structure Guarded (s : Traffic) (c : RecordCache) : Prop where
  tells : s.validator.source.tells = true
  cached : s.validator.cache = some c
  entries : ∀ e ∈ c.entries, s.Vouched e.tenant e.record
  flights : ∀ f ∈ s.flights, s.Sound c f

namespace Guarded

variable {s t : Traffic} {c d : RecordCache}

/-- A step that changes neither the source nor what is still to be told, nor the generation, and adds
only what is as good as what was there. -/
theorem frame (h : Guarded s c) (hsource : t.validator.source = s.validator.source)
    (huntold : t.untold = s.untold) (hcached : t.validator.cache = some d)
    (hgeneration : d.generation = c.generation)
    (hentries : ∀ e ∈ d.entries, e ∈ c.entries ∨ s.Vouched e.tenant e.record)
    (hflights : ∀ f ∈ t.flights, f ∈ s.flights ∨ s.Sound c f) : Guarded t d := by
  have hvouched : ∀ tenant record, s.Vouched tenant record → t.Vouched tenant record := by
    intro tenant record hv
    unfold Vouched
    rw [hsource, huntold]
    exact hv
  refine ⟨hsource ▸ h.tells, hcached, ?_, ?_⟩
  · intro e he
    exact hvouched _ _ ((hentries e he).elim (h.entries e) id)
  · intro f hf
    have hsound : s.Sound c f := (hflights f hf).elim (h.flights f) id
    exact hsound.mono (Nat.le_of_eq hgeneration.symm) fun _ => hvouched

/-- A change of one tenant's answer leaves all records of other tenants as good as they were, and those
of the tenant wait for the validator to be told. -/
theorem changed {source : Source} {tenant : String} (h : Guarded s c) (ht : source.tells = true)
    (hagree : ∀ u, u ≠ tenant → source.answerFor u = s.validator.source.answerFor u) :
    Guarded (s.changed source tenant) c := by
  have hvouched : ∀ u record, s.Vouched u record → (s.changed source tenant).Vouched u record := by
    intro u record hv
    by_cases hu : u = tenant
    · exact Or.inr (hu ▸ Multiset.mem_cons_self _ _)
    · refine hv.imp (fun hanswer => ?_) fun hmem => Multiset.mem_cons_of_mem hmem
      rw [← hagree u hu] at hanswer
      exact hanswer
  exact ⟨ht, h.cached, fun e he => hvouched _ _ (h.entries e he),
    fun f hf => (h.flights f hf).mono (Nat.le_refl _) fun _ => hvouched⟩

/-- Being told raises the generation: nothing that a lookup has read so far is kept any more. -/
theorem tell {tenant : String} {others : Multiset String} (h : Guarded s c)
    (hchange : s.untold = tenant ::ₘ others) :
    Guarded { s with validator := s.validator.invalidate tenant, untold := others }
      (c.invalidate tenant).2 := by
  refine ⟨h.tells, ?_, ?_, ?_⟩
  · simp only [Validator.invalidate, h.cached, Option.map_some]
  · intro e he
    obtain ⟨hmem, hne⟩ := Cache.mem_invalidate.mp he
    refine (h.entries e hmem).imp id fun huntold => ?_
    rw [hchange] at huntold
    exact (Multiset.mem_cons.mp huntold).resolve_left hne
  · intro f hf
    -- Under the new generation nothing has been read yet.
    have hgrown : (c.invalidate tenant).2.generation = c.generation + 1 := rfl
    exact (h.flights f hf).mono (Nat.le_succ _) fun hsame => absurd (hgrown.symm.trans hsame)
      (Nat.succ_ne_self _)

theorem mem_flights_of_mem {f old : Flight} {others : Multiset Flight}
    (hflights : s.flights = old ::ₘ others) (hf : f ∈ others) : f ∈ s.flights := by
  rw [hflights]
  exact Multiset.mem_cons_of_mem hf

theorem mem_flights_or {f old new : Flight} {others : Multiset Flight}
    (hflights : s.flights = old ::ₘ others) (hnew : s.Sound c new) (hf : f ∈ new ::ₘ others) :
    f ∈ s.flights ∨ s.Sound c f := by
  rcases Multiset.mem_cons.mp hf with rfl | hf
  · exact Or.inr hnew
  · exact Or.inl (mem_flights_of_mem hflights hf)

/-- What a lookup keeps is vouched for, since the generation that it noted is still the present one. -/
theorem put {tenant : String} {generation : Nat} {record : Option Record} {others : Multiset Flight}
    (h : Guarded s c) (hflight : s.flights = ⟨tenant, .answered generation record⟩ ::ₘ others) :
    Guarded { s with
      validator := (s.validator.keep tenant record generation).2
      flights := others } (c.put s.validator.now tenant record (some (generation : Int))).2 := by
  have hsound := h.flights _ (hflight ▸ Multiset.mem_cons_self _ _)
  simp only [Validator.keep, h.cached]
  refine h.frame rfl rfl rfl (Cache.put_generation ..) ?_
    fun f hf => Or.inl (mem_flights_of_mem hflight hf)
  intro e he
  by_cases hgeneration : generation = c.generation
  · rcases Cache.mem_of_mem_put he with hmem | ⟨htenant, hrecord⟩
    · exact Or.inl hmem
    · rw [htenant, hrecord]
      exact Or.inr (hsound.2 hgeneration)
  · rw [Cache.put_of_ne hgeneration] at he
    exact Or.inl he

theorem step (h : Guarded s c) (hstep : Step s t) : ∃ d, Guarded t d := by
  -- All steps but a change and its telling go through `frame`: they add what is vouched for or nothing.
  cases hstep with
  | hit cache hits =>
    cases h.cached.symm.trans cache
    exact ⟨_, h.frame rfl rfl rfl (Cache.get_generation ..)
      (fun e he => Or.inl (Cache.mem_of_mem_get he)) fun f hf => Or.inl hf⟩
  | miss cache misses =>
    cases h.cached.symm.trans cache
    refine ⟨_, h.frame rfl rfl rfl (Cache.get_generation ..)
      (fun e he => Or.inl (Cache.mem_of_mem_get he)) fun f hf => ?_⟩
    rcases Multiset.mem_cons.mp hf with rfl | hf
    · exact Or.inr trivial
    · exact Or.inl hf
  | note cache flight =>
    cases h.cached.symm.trans cache
    exact ⟨c, h.frame rfl rfl h.cached rfl (fun e he => Or.inl he)
      fun f hf => mem_flights_or flight (Nat.le_refl _) hf⟩
  | @read tenant generation record others flight answers =>
    rw [Validator.consult_of_tells h.tells] at answers ⊢
    have hnoted : generation ≤ c.generation :=
      h.flights ⟨tenant, .noted generation⟩ (flight ▸ Multiset.mem_cons_self _ _)
    have hread : s.Sound c ⟨tenant, .answered generation record⟩ := ⟨hnoted, fun _ => Or.inl answers⟩
    exact ⟨c, h.frame rfl rfl h.cached rfl (fun e he => Or.inl he)
      fun f hf => mem_flights_or flight hread hf⟩
  | fail flight fails =>
    rw [Validator.consult_of_tells h.tells]
    exact ⟨c, h.frame rfl rfl h.cached rfl (fun e he => Or.inl he)
      fun f hf => Or.inl (mem_flights_of_mem flight hf)⟩
  | put flight => exact ⟨_, h.put flight⟩
  | set tenant answer =>
    refine ⟨c, h.changed ?_ fun u hu => Source.answerFor_set_of_ne hu _ answer⟩
    rw [Source.tells_set, h.tells]
  | remove tenant =>
    refine ⟨c, h.changed ?_ fun u hu => Source.answerFor_remove_of_ne hu _⟩
    rw [Source.tells_remove, h.tells]
  | tell change => exact ⟨_, h.tell change⟩
  | advance advances =>
    obtain ⟨now, _, hv⟩ := bind_eq_ok.mp advances
    cases hv
    exact ⟨c, h.frame rfl rfl h.cached rfl (fun e he => Or.inl he) fun f hf => Or.inl hf⟩
  | evict cache tenant =>
    cases h.cached.symm.trans cache
    exact ⟨_, h.frame rfl rfl rfl rfl (fun e he => Or.inl (Cache.mem_without.mp he).1)
      fun f hf => Or.inl hf⟩

end Guarded

/-! ## Whatever the order of the steps -/

theorem guarded_of_make {answers : List (String × Answer)} {ttl : Value} {capacity : Int}
    {c : RecordCache} (hmake : Cache.make ttl capacity = .ok c) (now : Quantity) :
    Guarded (start answers c now) c := by
  refine ⟨rfl, rfl, ?_, ?_⟩
  · intro e he
    rw [Cache.make_entries hmake] at he
    cases he
  · intro f hf
    exact absurd hf (Multiset.notMem_zero f)

theorem guarded_of_steps {s t : Traffic} {c : RecordCache} (h : Guarded s c)
    (hrun : ReflTransGen Step s t) : ∃ d, Guarded t d := by
  induction hrun with
  | refl => exact ⟨c, h⟩
  | tail _ hstep ih =>
    obtain ⟨d, hd⟩ := ih
    exact hd.step hstep

theorem Guarded.coherent {s : Traffic} {c : RecordCache} (h : Guarded s c) (hall : s.untold = 0) :
    s.validator.Coherent := by
  refine ⟨h.tells, ?_⟩
  intro d hd e he
  cases h.cached.symm.trans hd
  refine (h.entries e he).resolve_right ?_
  rw [hall]
  exact Multiset.notMem_zero e.tenant

/-- However lookups, changes and what is told of them overlap, an entry that differs from what the
source answers is there only while the validator is still to be told of a change of that tenant. Once
it has been told of all, no entry differs, and what the lookups under way have read makes none that
does. -/
theorem stale_only_while_untold {answers : List (String × Answer)} {ttl : Value} {capacity : Int}
    {c : RecordCache} {now : Quantity} {s : Traffic} (hmake : Cache.make ttl capacity = .ok c)
    (hrun : ReflTransGen Step (start answers c now) s) :
    (∀ d, s.validator.cache = some d → ∀ e ∈ d.entries,
        (s.validator.source.answerFor e.tenant).toRecord ≠ .ok e.record → e.tenant ∈ s.untold) ∧
      (s.untold = 0 → s.validator.Coherent ∧
        ∀ tenant generation record, ⟨tenant, .answered generation record⟩ ∈ s.flights →
          (s.validator.keep tenant record generation).2.Coherent) := by
  obtain ⟨d, hd⟩ := guarded_of_steps (guarded_of_make hmake now) hrun
  refine ⟨?_, fun hall => ⟨hd.coherent hall, ?_⟩⟩
  · intro d' hd' e he hstale
    cases hd.cached.symm.trans hd'
    exact (hd.entries e he).resolve_left hstale
  · intro tenant generation record hflight
    obtain ⟨others, hothers⟩ := Multiset.exists_cons_of_mem hflight
    exact (hd.put hothers).coherent hall

/-! ### Sample -/

def sampleGrant : Record := ⟨true, .moderate, "2.1", ["Note"], none⟩

def sampleCache : RecordCache := ⟨.whole 300, 10, [], 0⟩

/-- The tenant's record is being looked up for the first time. -/
def askingOnce (stage : Stage) (lookups : Nat) : Traffic where
  validator :=
    { source := .static [("acme", .record sampleGrant)] true, cache := some sampleCache,
      lookups := lookups }
  flights := ⟨"acme", stage⟩ ::ₘ 0
  untold := 0

/-- What the lookup read was kept after the tenant had gone and before the validator was told. -/
def overtaken : Traffic where
  validator := {
    source := .static [] true
    cache := some { sampleCache with entries := [⟨"acme", some sampleGrant, .whole 1300⟩] }
    lookups := 1 }
  flights := 0
  untold := "acme" ::ₘ 0

theorem steps_overtaken :
    ReflTransGen Step (start [("acme", .record sampleGrant)] sampleCache (.whole 1000)) overtaken := by
  have missed : Step (start _ sampleCache (.whole 1000)) (askingOnce .missed 0) :=
    @Step.miss (start _ sampleCache _) sampleCache "acme" rfl rfl
  have noted : Step (askingOnce .missed 0) (askingOnce (.noted 0) 0) :=
    @Step.note (askingOnce .missed 0) sampleCache "acme" 0 rfl rfl
  have answered : Step (askingOnce (.noted 0) 0) (askingOnce (.answered 0 (some sampleGrant)) 1) :=
    .read rfl rfl
  let gone : Traffic :=
    (askingOnce (.answered 0 (some sampleGrant)) 1).changed (.static [] true) "acme"
  have removed : Step (askingOnce (.answered 0 (some sampleGrant)) 1) gone := .remove "acme"
  have kept : Step gone overtaken := @Step.put gone "acme" 0 (some sampleGrant) 0 rfl
  exact .head missed (.head noted (.head answered (.head removed (.single kept))))

theorem stale_only_while_untold_sample :
    Cache.make (.int 300) 10 = .ok sampleCache ∧
      ReflTransGen Step (start [("acme", .record sampleGrant)] sampleCache (.whole 1000)) overtaken ∧
      (∃ d, overtaken.validator.cache = some d ∧ ∃ e ∈ d.entries,
        (overtaken.validator.source.answerFor e.tenant).toRecord ≠ .ok e.record ∧
          e.tenant ∈ overtaken.untold) ∧
      ∃ s, Step overtaken s ∧ s.validator.Coherent := by
  have hmake : Cache.make (.int 300) 10 = .ok sampleCache :=
    Cache.make_whole (by decide) (by decide)
  have htold : Step overtaken _ := @Step.tell overtaken "acme" 0 rfl
  have hstale := (stale_only_while_untold hmake steps_overtaken).1
  have hcoherent := (stale_only_while_untold hmake (steps_overtaken.tail htold)).2
  refine ⟨hmake, steps_overtaken, ⟨_, rfl, _, List.mem_cons_self, ?_, ?_⟩, _, htold,
    (hcoherent rfl).1⟩
  · nofun
  · exact hstale _ rfl _ List.mem_cons_self nofun

end Traffic

end ConsentGate.Consent
