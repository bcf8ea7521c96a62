import ConsentGate.Proofs.Consent.Transparency

/-! What a permission rests on.

A source may answer anything at any time, or fail, and tenants may be invalidated while it is asked.
The answers it has given are kept beside the validator, for the proofs only. `Backed` says that the
cache holds nothing but what the last answer about a tenant came to; so an answer that failed, or that
is no record, is never cached. Every question keeps it (`Backed.validate`), and with it a permission
rests on an answer that consents (`permits_only_on_consent`). -/
namespace ConsentGate.Consent
open Number Text
set_option autoImplicit false

/-! ## Answers that consent -/

/-- A record of a tenant that opted in, or a payload that describes one and says so in so many words. -/
def Answer.Consents (a : Answer) (r : Record) : Prop :=
  (a = .record r ∧ r.hasConsent = true) ∨
    ∃ fields, a = .payload (.map fields) ∧ Record.ofPayload (.map fields) = .ok r ∧
      Value.get? fields "dataNetworkConsent" = some (.bool true)

theorem Record.readFlag_eq_true {flag : Option Value} (h : readFlag flag = .ok true) :
    flag = some (.bool true) := by
  unfold readFlag at h
  split at h
  · cases h
  · cases h
    rfl
  · cases h

theorem Record.hasConsent_of_ofPayload {fields : Fields} {r : Record}
    (h : Record.ofPayload (.map fields) = .ok r) :
    readFlag (Value.get? fields "dataNetworkConsent") = .ok r.hasConsent := by
  unfold Record.ofPayload at h
  obtain ⟨hasConsent, hflag, h⟩ := bind_eq_ok.mp h
  obtain ⟨level, _, h⟩ := bind_eq_ok.mp h
  obtain ⟨version, _, h⟩ := bind_eq_ok.mp h
  obtain ⟨categories, _, h⟩ := bind_eq_ok.mp h
  obtain ⟨date, _, h⟩ := bind_eq_ok.mp h
  cases h
  exact hflag

theorem Answer.consents_of_toRecord {a : Answer} {r : Record} (h : a.toRecord = .ok (some r))
    (hconsent : r.hasConsent = true) : a.Consents r := by
  unfold Answer.toRecord at h
  split at h
  · cases h
  · cases h
    exact Or.inl ⟨rfl, hconsent⟩
  · cases h
  · rename_i fields
    obtain ⟨read, hread, hr⟩ := map_eq_ok.mp h
    cases hr
    have hflag := Record.hasConsent_of_ofPayload hread
    rw [hconsent] at hflag
    exact Or.inr ⟨fields, rfl, hread, Record.readFlag_eq_true hflag⟩
  · cases h

/-! ## What the cache holds for a tenant -/

namespace Cache

variable {α : Type} {c : Cache α} {now : Quantity} {tenant : String} {e : CacheEntry α}

/-- After a look that found nothing, the cache has no entry of the tenant. -/
theorem tenant_ne_of_get (h : (c.get now tenant).1 = .ok none)
    (he : e ∈ (c.get now tenant).2.entries) : e.tenant ≠ tenant := by
  unfold get at h he
  split at h
  · rename_i hfind
    simp only [hfind] at he
    simpa using List.find?_eq_none.mp hfind e he
  · rename_i found hfind
    simp only [hfind] at he
    split at h
    · cases h
    · rename_i hlate
      rw [hlate] at he
      exact (mem_without.mp he).2
    · cases h

theorem find?_of_get {record : α} (h : (c.get now tenant).1 = .ok (some record)) :
    (c.find? tenant).map (·.record) = some record := by
  unfold get at h
  split at h
  · cases h
  · rename_i found hfind
    split at h
    · cases h
    · cases h
    · rw [hfind]
      exact congrArg some (Option.some.inj (Except.ok.inj h))

end Cache

/-! ## Answers that were given -/

/-- The answers of a source, each with the tenant asked about, the latest first. -/
abbrev Answers := List (String × Except Fault Answer)

/-- What happens to a validator in turn: a question or a change; or its source becomes another, that is,
will answer otherwise from now on. -/
inductive Turn where
  | act (a : Act)
  | source (s : Source)

namespace Validator

/-- What is cached for a tenant. -/
def cached? (v : Validator) (tenant : String) : Option (Option Record) :=
  (v.cache.bind fun c => c.find? tenant).map (·.record)

/-- The answer that a question draws from the source, with the tenant asked about; nothing where the
source is not asked. -/
def drawn? (v : Validator) (tenant entityType : Value) : Option (String × Except Fault Answer) :=
  if (v.validate tenant entityType).2.2.lookups = v.lookups then none
  else tenant.str?.map fun t => (t, (v.source.ask t).1.answer)

/-- The validator after a turn, and the answers given until then. -/
def take (v : Validator) (answers : Answers) : Turn → Validator × Answers
  | .act (.decide tenant entityType) =>
    ((v.validate tenant entityType).2.2, (v.drawn? tenant entityType).toList ++ answers)
  | .act (.change c) => (v.apply c, answers)
  | .source s => ({ v with source := s }, answers)

def takeAll (v : Validator) (answers : Answers) : List Turn → Validator × Answers
  | [] => (v, answers)
  | turn :: rest => (v.take answers turn).1.takeAll (v.take answers turn).2 rest

/-- `w` caches nothing that `v` does not. -/
def CachesWithin (w v : Validator) : Prop :=
  ∀ d, w.cache = some d → ∃ c, v.cache = some c ∧ ∀ e ∈ d.entries, e ∈ c.entries

theorem CachesWithin.of_eq {v w : Validator} (h : w.cache = v.cache) : w.CachesWithin v :=
  fun d hd => ⟨d, h ▸ hd, fun _ he => he⟩

theorem CachesWithin.trans {u v w : Validator} (h : w.CachesWithin v) (hv : v.CachesWithin u) :
    w.CachesWithin u := by
  intro d hd
  obtain ⟨c, hc, hentries⟩ := h d hd
  obtain ⟨b, hb, hothers⟩ := hv c hc
  exact ⟨b, hb, fun e he => hothers e (hentries e he)⟩

theorem cachesWithin_invalidate (v : Validator) (tenant : String) :
    (v.invalidate tenant).CachesWithin v := by
  intro d hd
  obtain ⟨c, hc, rfl⟩ := Option.map_eq_some_iff.mp hd
  exact ⟨c, hc, fun e he => (Cache.mem_invalidate.mp he).1⟩

/-- Every entry of the cache is what the last answer about its tenant came to. -/
def Backed (v : Validator) (answers : Answers) : Prop :=
  ∀ c, v.cache = some c → ∀ e ∈ c.entries, ∃ a, answers.lookup e.tenant = some (.ok a) ∧
    a.toRecord = .ok e.record

namespace Backed

variable {v w : Validator} {answers : Answers}

/-- Fewer entries need fewer answers. -/
theorem of_within (h : v.Backed answers) (hw : w.CachesWithin v) : w.Backed answers := by
  intro d hd e he
  obtain ⟨c, hc, hentries⟩ := hw d hd
  exact h c hc e (hentries e he)

theorem of_cache_eq (h : v.Backed answers) (hw : w.cache = v.cache) : w.Backed answers :=
  h.of_within (.of_eq hw)

theorem invalidate (h : v.Backed answers) (tenant : String) :
    (v.invalidate tenant).Backed answers :=
  h.of_within (cachesWithin_invalidate v tenant)

theorem apply (h : v.Backed answers) (change : Change) : (v.apply change).Backed answers := by
  cases change with
  | set tenant answer =>
    have hset : ({ v with source := v.source.set tenant answer } : Validator).Backed answers :=
      h.of_cache_eq rfl
    simp only [Validator.apply, setConsent]
    split
    · exact hset.invalidate tenant
    · exact hset
  | remove tenant =>
    have hremove : ({ v with source := v.source.remove tenant } : Validator).Backed answers :=
      h.of_cache_eq rfl
    simp only [Validator.apply, removeConsent]
    split
    · exact hremove.invalidate tenant
    · exact hremove
  | invalidate tenant => exact h.invalidate tenant
  | advance elapsed =>
    rw [apply_advance]
    exact h.of_cache_eq rfl

/-- What is cached for a tenant is what the last answer about it came to. -/
theorem exists_of_cached (h : v.Backed answers) {tenant : String} {record : Option Record}
    (hcached : v.cached? tenant = some record) :
    ∃ a, answers.lookup tenant = some (.ok a) ∧ a.toRecord = .ok record := by
  obtain ⟨e, he, rfl⟩ := Option.map_eq_some_iff.mp hcached
  obtain ⟨c, hc, hfind⟩ := Option.bind_eq_some_iff.mp he
  obtain ⟨hmem, rfl⟩ := Cache.find?_eq_some hfind
  exact h c hc e hmem

end Backed

/-! ## Lookups -/

/-- While the source is asked, tenants may be forgotten, but nothing is added to the cache. -/
theorem cachesWithin_foldl_invalidate (tenants : List String) (v : Validator) :
    (tenants.foldl invalidate v).lookups = v.lookups ∧
      (tenants.foldl invalidate v).CachesWithin v := by
  induction tenants generalizing v with
  | nil => exact ⟨rfl, .of_eq rfl⟩
  | cons t rest ih =>
    obtain ⟨hlookups, hwithin⟩ := ih (v.invalidate t)
    exact ⟨hlookups, hwithin.trans (cachesWithin_invalidate v t)⟩

/-- Asking the source comes to a record only through its answer, is counted, and caches nothing. -/
theorem consult_cases (v : Validator) (tenant : String) :
    (v.consult tenant).2.lookups = v.lookups + 1 ∧ (v.consult tenant).2.CachesWithin v ∧
      ∀ record, (v.consult tenant).1 = .ok record →
        ∃ a, (v.source.ask tenant).1.answer = .ok a ∧ a.toRecord = .ok record := by
  obtain ⟨hlookups, hcache⟩ := cachesWithin_foldl_invalidate (v.source.ask tenant).1.invalidated
    { v with source := (v.source.ask tenant).2, lookups := v.lookups + 1 }
  refine ⟨hlookups, hcache, fun record hrecord => ?_⟩
  simp only [consult] at hrecord
  cases hanswer : (v.source.ask tenant).1.answer with
  | error f =>
    rw [hanswer] at hrecord
    cases hrecord
  | ok a =>
    rw [hanswer] at hrecord
    exact ⟨a, rfl, hrecord⟩

/-- A record that is kept is the only new entry. -/
theorem keep_cases (v : Validator) (tenant : String) (record : Option Record) (generation : Nat) :
    (v.keep tenant record generation).2.lookups = v.lookups ∧
      (∀ r, (v.keep tenant record generation).1 = .ok r → r = record) ∧
      ∀ d, (v.keep tenant record generation).2.cache = some d →
        ∃ c, v.cache = some c ∧ ∀ e ∈ d.entries, e ∈ c.entries ∨
          (e.tenant = tenant ∧ e.record = record) := by
  unfold keep
  cases hc : v.cache with
  | none =>
    refine ⟨rfl, fun r hr => (Except.ok.inj hr).symm, fun d hd => ?_⟩
    rw [hc] at hd
    cases hd
  | some c =>
    refine ⟨rfl, fun r hr => ?_, fun d hd => ⟨c, rfl, fun e he => ?_⟩⟩
    · obtain ⟨kept, _, hkept⟩ := map_eq_ok.mp hr
      exact hkept.symm
    · cases hd
      exact Cache.mem_of_mem_put he

/-- A lookup that the cache settles: it finds what is cached for the tenant, if anything. -/
structure Settled (v : Validator) (tenant : String) : Prop where
  lookups : (v.lookup tenant).2.lookups = v.lookups
  entries : (v.lookup tenant).2.CachesWithin v
  found : ∀ record, (v.lookup tenant).1 = .ok record → v.cached? tenant = some record

/-- A lookup that the source answers: what it finds, and what is cached for the tenant afterwards, is what
the answer came to. -/
structure Asked (v : Validator) (tenant : String) : Prop where
  lookups : (v.lookup tenant).2.lookups = v.lookups + 1
  entries : ∀ d, (v.lookup tenant).2.cache = some d → ∀ e ∈ d.entries,
    (∃ c, v.cache = some c ∧ e ∈ c.entries ∧ e.tenant ≠ tenant) ∨
      (e.tenant = tenant ∧ ∃ a, (v.source.ask tenant).1.answer = .ok a ∧ a.toRecord = .ok e.record)
  found : ∀ record, (v.lookup tenant).1 = .ok record →
    ∃ a, (v.source.ask tenant).1.answer = .ok a ∧ a.toRecord = .ok record

section Lookups

variable {v : Validator} {tenant : String} {c : Cache (Option Record)}

theorem asked_of_uncached (hc : v.cache = none) : v.Asked tenant := by
  obtain ⟨hlookups, hcache, hfound⟩ := consult_cases v tenant
  have hlookup : v.lookup tenant = v.consult tenant := by
    unfold lookup
    rw [hc]
  refine ⟨hlookup ▸ hlookups, fun d hd => ?_, hlookup ▸ hfound⟩
  obtain ⟨c, hsome, _⟩ := hcache d (hlookup ▸ hd)
  rw [hc] at hsome
  cases hsome

theorem settled_of_get (hc : v.cache = some c)
    (hlookup : (v.lookup tenant).2 = { v with cache := some (c.get v.now tenant).2 })
    (hfound : ∀ record, (v.lookup tenant).1 = .ok record →
      (c.get v.now tenant).1 = .ok (some record)) : v.Settled tenant := by
  refine ⟨by rw [hlookup], fun d hd => ?_, fun record hr => ?_⟩
  · rw [hlookup] at hd
    cases hd
    exact ⟨c, hc, fun e he => Cache.mem_of_mem_get he⟩
  · rw [cached?, hc]
    exact Cache.find?_of_get (hfound record hr)

/-- The cache knows nothing of the tenant, so whatever it holds of it afterwards is new. -/
theorem asked_of_miss (hc : v.cache = some c) (hget : (c.get v.now tenant).1 = .ok none) :
    v.Asked tenant := by
  obtain ⟨hlookups, hcache, hfound⟩ :=
    consult_cases { v with cache := some (c.get v.now tenant).2 } tenant
  cases hconsult : ({ v with cache := some (c.get v.now tenant).2 } : Validator).consult tenant with
  | mk result w =>
    rw [hconsult] at hlookups hcache hfound
    have hold : ∀ d, w.cache = some d → ∀ e ∈ d.entries, e ∈ c.entries ∧ e.tenant ≠ tenant := by
      intro d hd e he
      obtain ⟨c', hc', hentries⟩ := hcache d hd
      cases hc'
      have hmem := hentries e he
      exact ⟨Cache.mem_of_mem_get hmem, Cache.tenant_ne_of_get hget hmem⟩
    cases result with
    | error f =>
      have hlookup : v.lookup tenant = (.error f, w) := by
        simp only [lookup, hc, hget, hconsult]
      refine ⟨by rw [hlookup]; exact hlookups, fun d hd e he => ?_, fun r hr => ?_⟩
      · rw [hlookup] at hd
        obtain ⟨hmem, hne⟩ := hold d hd e he
        exact Or.inl ⟨c, hc, hmem, hne⟩
      · rw [hlookup] at hr
        cases hr
    | ok record =>
      obtain ⟨hcount, hresult, hkept⟩ :=
        keep_cases w tenant record (c.get v.now tenant).2.generation
      obtain ⟨a, ha, hrecord⟩ := hfound record rfl
      have hlookup : v.lookup tenant = w.keep tenant record (c.get v.now tenant).2.generation := by
        simp only [lookup, hc, hget, hconsult]
      refine ⟨by rw [hlookup, hcount]; exact hlookups, fun d hd e he => ?_, fun r hr => ?_⟩
      · rw [hlookup] at hd
        obtain ⟨c', hc', hentries⟩ := hkept d hd
        rcases hentries e he with hmem | ⟨htenant, hnew⟩
        · obtain ⟨hmem, hne⟩ := hold c' hc' e hmem
          exact Or.inl ⟨c, hc, hmem, hne⟩
        · exact Or.inr ⟨htenant, a, ha, hnew ▸ hrecord⟩
      · rw [hlookup] at hr
        rw [hresult r hr]
        exact ⟨a, ha, hrecord⟩

end Lookups

theorem settled_or_asked (v : Validator) (tenant : String) :
    v.Settled tenant ∨ v.Asked tenant := by
  cases hc : v.cache with
  | none => exact Or.inr (asked_of_uncached hc)
  | some c =>
    cases hget : (c.get v.now tenant).1 with
    | error f =>
      have hlookup : v.lookup tenant =
          (.error f, { v with cache := some (c.get v.now tenant).2 }) := by
        simp only [lookup, hc, hget]
      refine Or.inl (settled_of_get hc (by rw [hlookup]) fun record hr => ?_)
      rw [hlookup] at hr
      cases hr
    | ok hit =>
      cases hit with
      | none => exact Or.inr (asked_of_miss hc hget)
      | some record =>
        have hlookup : v.lookup tenant =
            (.ok record, { v with cache := some (c.get v.now tenant).2 }) := by
          simp only [lookup, hc, hget]
        refine Or.inl (settled_of_get hc (by rw [hlookup]) fun r hr => ?_)
        rw [hlookup] at hr
        cases hr
        exact hget

/-! ## Questions -/

/-- A permission repeats a record that was found and grants the type. -/
theorem exists_record_of_permits {tenant type : String} {found : Except Fault (Option Record)}
    (h : (decisionOn tenant type found).permits = true) :
    ∃ r, found = .ok (some r) ∧ Grants r type ∧
      decisionOn tenant type found = ⟨true, r.level, r.version, true⟩ := by
  cases found with
  | error f => cases h
  | ok record =>
    cases record with
    | none => cases h
    | some r =>
      obtain ⟨hgrants, hdecision⟩ := grants_of_judge h
      exact ⟨r, rfl, hgrants, hdecision⟩

variable {v : Validator} {tenant entityType : Value} {t type : String}

theorem drawn?_of_unchanged (h : (v.validate tenant entityType).2.2 = v) :
    v.drawn? tenant entityType = none := by
  rw [drawn?, h, if_pos rfl]

theorem drawn?_of_settled (h : v.Settled t)
    (hlookup : (v.validate tenant entityType).2.2 = (v.lookup t).2) :
    v.drawn? tenant entityType = none := by
  rw [drawn?, hlookup, h.lookups, if_pos rfl]

theorem drawn?_of_asked (h : v.Asked t)
    (hlookup : (v.validate (.str t) entityType).2.2 = (v.lookup t).2) :
    v.drawn? (.str t) entityType = some (t, (v.source.ask t).1.answer) := by
  rw [drawn?, hlookup, h.lookups, if_neg (Nat.succ_ne_self _)]
  rfl

/-- A question leaves the cache backed by the answers given, the one that it drew included. -/
theorem Backed.validate {answers : Answers} (h : v.Backed answers) (tenant entityType : Value) :
    (v.validate tenant entityType).2.2.Backed
      ((v.drawn? tenant entityType).toList ++ answers) := by
  rcases validate_forms tenant entityType with
    ⟨_, hforms⟩ | hforms | ⟨t, type, rfl, _, rfl, hforms⟩
  · rw [drawn?_of_unchanged (hforms v).2, (hforms v).2]
    exact h
  · rw [drawn?_of_unchanged (hforms v).2, (hforms v).2]
    exact h
  · rw [(hforms v).2]
    rcases settled_or_asked v t with hsettled | hasked
    · rw [drawn?_of_settled hsettled (hforms v).2]
      exact h.of_within hsettled.entries
    · rw [drawn?_of_asked hasked (hforms v).2]
      intro d hd e he
      rcases hasked.entries d hd e he with ⟨c, hc, hmem, hne⟩ | ⟨htenant, a, ha, hrecord⟩
      · obtain ⟨a, ha, hrecord⟩ := h c hc e hmem
        refine ⟨a, ?_, hrecord⟩
        rw [Option.toList_some, List.singleton_append, List.lookup_cons,
          beq_eq_false_iff_ne.mpr hne]
        exact ha
      · refine ⟨a, ?_, hrecord⟩
        rw [Option.toList_some, List.singleton_append, htenant, List.lookup_cons, beq_self_eq_true,
          ha]

theorem Backed.take {answers : Answers} (h : v.Backed answers) (turn : Turn) :
    (v.take answers turn).1.Backed (v.take answers turn).2 := by
  cases turn with
  | act a =>
    cases a with
    | decide tenant entityType => exact h.validate tenant entityType
    | change c => exact h.apply c
  | source s => exact h.of_cache_eq rfl

theorem Backed.takeAll {answers : Answers} (h : v.Backed answers) (turns : List Turn) :
    (v.takeAll answers turns).1.Backed (v.takeAll answers turns).2 := by
  induction turns generalizing v answers with
  | nil => exact h
  | cons turn rest ih => exact ih (h.take turn)

/-! ## Permissions -/

/-- After any turns, whatever the source has answered to the questions among them, a question about a
type that is a text and not blank is answered; it permits a contribution only if the tenant is a text
and not blank, and some answer about it consents to the type, which was drawn by this question, or came
to what is cached still; and it repeats the record of that answer. At all times, what is cached for a
tenant is what the last answer about it came to: never one that failed or that is no record. -/
theorem permits_only_on_consent {w : Validator} {answers : Answers} {turns : List Turn}
    (hnew : ∀ c, v.cache = some c → c.entries = []) (hturns : v.takeAll [] turns = (w, answers))
    (htype : allBlank type.toList = false) :
    (∃ d, (w.validate tenant (.str type)).1 = .ok d ∧
      (d.permits = true → ∃ t a r, tenant = .str t ∧ allBlank t.toList = false ∧
        (w.drawn? tenant (.str type) = some (t, .ok a) ∨
          (w.drawn? tenant (.str type) = none ∧ w.cached? t = some (some r) ∧
            answers.lookup t = some (.ok a))) ∧
        a.Consents r ∧ Grants r type ∧ d.level = r.level ∧ d.version = r.version)) ∧
      ∀ t record, w.cached? t = some record →
        ∃ a, answers.lookup t = some (.ok a) ∧ a.toRecord = .ok record := by
  have hstart : v.Backed [] := by
    intro c hc e he
    rw [hnew c hc] at he
    cases he
  have hbacked := hstart.takeAll turns
  rw [hturns] at hbacked
  refine ⟨?_, fun t record => hbacked.exists_of_cached⟩
  rcases validate_forms tenant (.str type) with
    ⟨hblank, _⟩ | hforms | ⟨t, type', rfl, hnot, htypes, hforms⟩
  · rw [hblank type rfl] at htype
    cases htype
  · exact ⟨_, (hforms w).1, fun hpermits => nomatch hpermits⟩
  · cases htypes
    refine ⟨_, (hforms w).1, fun hpermits => ?_⟩
    obtain ⟨r, hfound, hgrants, hdecision⟩ := exists_record_of_permits hpermits
    rw [hdecision]
    rcases settled_or_asked w t with hsettled | hasked
    · have hcached := hsettled.found _ hfound
      obtain ⟨a, ha, hrecord⟩ := hbacked.exists_of_cached hcached
      exact ⟨t, a, r, rfl, hnot,
        Or.inr ⟨drawn?_of_settled hsettled (hforms w).2, hcached, ha⟩,
        Answer.consents_of_toRecord hrecord hgrants.hasConsent, hgrants, rfl, rfl⟩
    · obtain ⟨a, ha, hrecord⟩ := hasked.found _ hfound
      refine ⟨t, a, r, rfl, hnot, Or.inl ?_,
        Answer.consents_of_toRecord hrecord hgrants.hasConsent, hgrants, rfl, rfl⟩
      rw [drawn?_of_asked hasked (hforms w).2, ha]

/-- A source that fails at first, while another tenant is invalidated, and then opts in with a payload. -/
def sampleScripted : Validator where
  source := .scripted [⟨["other"], .error (.external "ConnectionError")⟩,
    ⟨[], .ok (.payload (.map [(.str "dataNetworkConsent", .bool true),
      (.str "piiScrubbingLevel", .str " moderate "),
      (.str "dataNetworkCategories", .list [.str "Note"])]))⟩]
  cache := some ⟨.whole 300, 10, [], 0⟩

/-- Two questions, of which the second is answered, and some time. -/
def sampleTurns : List Turn :=
  [.act (.decide (.str "acme") (.str "Note")), .act (.decide (.str "acme") (.str "Note")),
    .act (.change (.advance (.int 100)))]

theorem permits_only_on_consent_sample :
    (∀ c, sampleScripted.cache = some c → c.entries = []) ∧ allBlank "Note".toList = false ∧
      ∃ w answers d, sampleScripted.takeAll [] sampleTurns = (w, answers) ∧
        (w.validate (.str "acme") (.str "Note")).1 = .ok d ∧ d.permits = true ∧
        ∃ t a r, Value.str "acme" = .str t ∧ allBlank t.toList = false ∧
          (w.drawn? (.str "acme") (.str "Note") = some (t, .ok a) ∨
            (w.drawn? (.str "acme") (.str "Note") = none ∧ w.cached? t = some (some r) ∧
              answers.lookup t = some (.ok a))) ∧
          a.Consents r ∧ Grants r "Note" ∧ d.level = r.level ∧ d.version = r.version := by
  have hnew : ∀ c, sampleScripted.cache = some c → c.entries = [] := by
    rintro _ ⟨⟩
    rfl
  have htype : allBlank "Note".toList = false := by decide
  have hpermits : ((sampleScripted.takeAll [] sampleTurns).1.validate (.str "acme")
      (.str "Note")).1.toOption.any Decision.permits = true := by decide +kernel
  obtain ⟨w, answers, hturns⟩ : ∃ w answers, sampleScripted.takeAll [] sampleTurns = (w, answers) :=
    ⟨_, _, rfl⟩
  rw [hturns] at hpermits
  obtain ⟨⟨d, hd, hgrounds⟩, _⟩ :=
    @permits_only_on_consent sampleScripted (.str "acme") "Note" w answers sampleTurns hnew hturns htype
  rw [hd] at hpermits
  exact ⟨hnew, htype, w, answers, d, hturns, hd, hpermits, hgrounds hpermits⟩

end Validator

end ConsentGate.Consent
