import ConsentGate.Proofs.Consent.Freshness

/-! What a cache retains, and in which order.

Its tenants stand in the order of their last use, which is a hit or a put that kept the record
(`Orderly.order`). A put makes room at the front, so that only the tenant goes that has not been used for
longest (`Admits`). A tenant that is missing has an excuse (`Excused`): it was never kept, it was
forgotten, its record expired, or as many others as there is room for have been used since. That the last
excuse is good follows from the order: all tenants behind one that goes have been used after it. With a
clock that does not go back every call keeps all this (`Orderly.step`). -/
namespace ConsentGate.Consent.Cache
open Number
set_option autoImplicit false

variable {α : Type}

/-! ## Use -/

namespace Event

/-- A record of the tenant is kept or found. -/
def uses (tenant : String) : Event α → Bool
  | .got t (.ok (some _)) => t == tenant
  | .put t _ _ (.ok true) => t == tenant
  | _ => false

theorem uses_put_iff {t tenant : String} {record : α} {time : Quantity} {kept : Except Fault Bool} :
    (put t record time kept).uses tenant = true ↔ t = tenant ∧ kept = .ok true := by
  cases kept with
  | error f => simp [uses]
  | ok b => cases b <;> simp [uses]

theorem uses_got_of_ne {t : String} {found : Except Fault (Option α)}
    (h : ∀ record, found ≠ .ok (some record)) (tenant : String) :
    (got t found).uses tenant = false := by
  match found with
  | .error f => rfl
  | .ok none => rfl
  | .ok (some record) => exact absurd rfl (h record)

theorem uses_of_keeps {e : Event α} {tenant : String} (h : e.keeps tenant = true) :
    e.uses tenant = true := by
  cases e with
  | put t record time kept => exact uses_put_iff.mpr (keeps_put_iff.mp h)
  | _ => cases h

end Event

/-- What has happened since the tenant was used last. -/
def sinceUsed (past : List (Event α)) (tenant : String) : List (Event α) :=
  past.takeWhile fun e => !e.uses tenant

/-- The other tenant has been used after the first was used last. -/
def UsedSince (past : List (Event α)) (tenant other : String) : Prop :=
  ∃ e ∈ sinceUsed past tenant, e.uses other = true

theorem usedSince_cons {past : List (Event α)} {e : Event α} {tenant other : String} :
    UsedSince (e :: past) tenant other ↔
      e.uses tenant = false ∧ (e.uses other = true ∨ UsedSince past tenant other) := by
  unfold UsedSince sinceUsed
  cases huses : e.uses tenant with
  | true => simp [huses]
  | false => simp [huses]

/-- Where none of the tenants is used, their order stays that of their last use. -/
theorem pairwise_usedSince_cons {past : List (Event α)} {e : Event α} {tenants : List String}
    (h : tenants.Pairwise (UsedSince past)) (hunused : ∀ t ∈ tenants, e.uses t = false) :
    tenants.Pairwise (UsedSince (e :: past)) :=
  h.imp_of_mem fun ht _ hused => usedSince_cons.mpr ⟨hunused _ ht, Or.inr hused⟩

/-! ## Excuses -/

/-- Why there may be no record of a tenant. -/
inductive Excused (ttl : Quantity) (capacity : Nat) (s : Session α) (tenant : String) : Prop
  | unknown (never : ∀ e ∈ s.past, e.keeps tenant = false)
  | forgotten (since : ∃ e ∈ sinceKept s.past tenant, e.forgets tenant = true)
  | expired {record : α} {time expiry : Quantity}
      (latest : latestKept? s.past tenant = some (record, time)) (sum : time.add ttl = .ok expiry)
      (late : expiry.le s.now = true)
  | crowded {others : List String} (distinct : others.Nodup) (many : capacity ≤ others.length)
      (used : ∀ t ∈ others, t ≠ tenant ∧ UsedSince s.past tenant t)

/-- An excuse is good until the tenant is used again. -/
theorem Excused.cons {ttl : Quantity} {capacity : Nat} {s t : Session α} {e : Event α}
    {tenant : String} (h : Excused ttl capacity s tenant) (hpast : t.past = e :: s.past)
    (hunused : e.uses tenant = false)
    (hnow : ∀ q : Quantity, q.le s.now = true → q.le t.now = true) :
    Excused ttl capacity t tenant := by
  have hkeeps : e.keeps tenant = false :=
    Bool.eq_false_iff.mpr fun hkeeps => absurd (Event.uses_of_keeps hkeeps) (by simp [hunused])
  cases h with
  | unknown never =>
    refine .unknown ?_
    rw [hpast]
    exact List.forall_mem_cons.mpr ⟨hkeeps, never⟩
  | forgotten since =>
    obtain ⟨f, hf, hforgets⟩ := since
    refine .forgotten ⟨f, ?_, hforgets⟩
    rw [hpast, sinceKept_cons_of_not hkeeps]
    exact List.mem_cons_of_mem _ hf
  | expired latest sum late =>
    rw [← latestKept?_cons_of_not hkeeps, ← hpast] at latest
    exact .expired latest sum (hnow _ late)
  | crowded distinct many used =>
    refine .crowded distinct many fun u hu => ⟨(used u hu).1, ?_⟩
    rw [hpast]
    exact usedSince_cons.mpr ⟨hunused, Or.inr (used u hu).2⟩

/-! ## Clocks that do not go back -/

/-- What the clock shows from this call on, if the call is about that. -/
def Call.reading? : Call α → Option Quantity
  | .clock now => some now
  | _ => none

/-- From a time on, the clock does not go back in these calls. -/
def Forward (now : Quantity) (calls : List (Call α)) : Prop :=
  (now :: calls.filterMap Call.reading?).IsChain fun before after => before.le after = true

instance (now : Quantity) (calls : List (Call α)) : Decidable (Forward now calls) :=
  inferInstanceAs (Decidable (List.IsChain _ _))

theorem forward_cons {s : Session α} {call : Call α} {rest : List (Call α)} :
    Forward s.now (call :: rest) ↔
      (∀ now ∈ call.reading?, s.now.le now = true) ∧ Forward (s.step call).now rest := by
  unfold Forward
  rw [List.filterMap_cons]
  cases call <;> simp [Call.reading?, Session.step]

/-! ## What a put makes room for -/

theorem tenants_without (c : Cache α) (tenant : String) :
    (c.without tenant).map (·.tenant) = c.tenants.filter (· != tenant) := by
  rw [tenants, List.filter_map]
  rfl

/-- How a put changes the entries of a cache: it adds one at the end, for a tenant that is there or as
long as there is room; or else the first one goes. -/
inductive Admits (c : Cache α) (e : CacheEntry α) : List (CacheEntry α) → Prop
  | roomy (room : e.tenant ∈ c.tenants ∨ c.size < c.capacity) : Admits c e (c.without e.tenant ++ [e])
  | full {oldest : CacheEntry α} {rest : List (CacheEntry α)} (isNew : e.tenant ∉ c.tenants)
      (full : c.size = c.capacity) (entries : c.entries = oldest :: rest) : Admits c e (rest ++ [e])

theorem without_of_not_mem {c : Cache α} {tenant : String} (h : tenant ∉ c.tenants) :
    c.without tenant = c.entries := by
  refine List.filter_eq_self.mpr fun e he => bne_iff_ne.mpr fun htenant => h ?_
  rw [← htenant]
  exact List.mem_map_of_mem he

theorem length_without_lt {c : Cache α} {tenant : String} (h : tenant ∈ c.tenants) :
    (c.without tenant).length < c.size := by
  obtain ⟨e, he, htenant⟩ := List.mem_map.mp h
  exact List.length_filter_lt_length_iff_exists.mpr ⟨e, he, by simp [htenant]⟩

theorem admits_entriesWith {c : Cache α} (hsize : c.size ≤ c.capacity) (hcapacity : 0 < c.capacity)
    (e : CacheEntry α) : Admits c e (c.entriesWith e) := by
  by_cases hroom : e.tenant ∈ c.tenants ∨ c.size < c.capacity
  · have hfits : (c.without e.tenant ++ [e]).length - c.capacity = 0 := by
      have hlength : (c.without e.tenant).length < c.capacity := by
        rcases hroom with hmem | hlt
        · exact (length_without_lt hmem).trans_le hsize
        · exact (List.length_filter_le _ _).trans_lt hlt
      rw [List.length_append, List.length_singleton]
      omega
    rw [entriesWith, hfits, List.drop_zero]
    exact .roomy hroom
  · obtain ⟨hnew, hfull⟩ := not_or.mp hroom
    have hfull : c.size = c.capacity := by omega
    cases hentries : c.entries with
    | nil =>
      rw [size, hentries, List.length_nil] at hfull
      omega
    | cons oldest rest =>
      have hlength : (c.entries ++ [e]).length - c.capacity = 1 := by
        rw [List.length_append, List.length_singleton, ← hfull, size]
        omega
      rw [entriesWith, without_of_not_mem hnew, hlength, hentries]
      exact .full hnew hfull hentries

/-! ## Order -/

/-- The tenants of the cache stand in the order of their last use, and all others are excused. -/
structure Orderly (ttl : Quantity) (capacity : Nat) (s : Session α) : Prop where
  tracks : Tracks ttl s
  bound : s.cache.capacity = capacity
  room : s.cache.size ≤ capacity
  distinct : s.cache.tenants.Nodup
  order : s.cache.tenants.Pairwise (UsedSince s.past)
  used : ∀ t ∈ s.cache.tenants, ∃ e ∈ s.past, e.uses t = true
  excused : ∀ t ∉ s.cache.tenants, Excused ttl capacity s t

namespace Orderly

variable {ttl : Quantity} {capacity : Nat} {s t : Session α} {e : Event α}

theorem size_eq (c : Cache α) : c.size = c.tenants.length := by
  rw [tenants, List.length_map, size]

/-- A step that uses no tenant, and after which there is an excuse for each that is gone. -/
theorem of_unused (h : Orderly ttl capacity s) (htracks : Tracks ttl t)
    (hcapacity : t.cache.capacity = s.cache.capacity) (hpast : t.past = e :: s.past)
    (hunused : ∀ u, e.uses u = false)
    (hnow : ∀ q : Quantity, q.le s.now = true → q.le t.now = true)
    (htenants : t.cache.tenants.Sublist s.cache.tenants)
    (hgone : ∀ u ∈ s.cache.tenants, u ∉ t.cache.tenants → Excused ttl capacity t u) :
    Orderly ttl capacity t := by
  refine ⟨htracks, hcapacity.trans h.bound, ?_, htenants.nodup h.distinct, ?_, ?_, ?_⟩
  · rw [size_eq]
    exact htenants.length_le.trans (size_eq s.cache ▸ h.room)
  · rw [hpast]
    exact pairwise_usedSince_cons (h.order.sublist htenants) fun u _ => hunused u
  · intro u hu
    obtain ⟨f, hf, huses⟩ := h.used u (htenants.subset hu)
    exact ⟨f, hpast ▸ List.mem_cons_of_mem _ hf, huses⟩
  · intro u hu
    by_cases hmem : u ∈ s.cache.tenants
    · exact hgone u hmem hu
    · exact (h.excused u hmem).cons hpast (hunused u) hnow

/-- A step that uses no tenant and leaves the cache as it is. -/
theorem of_unchanged (h : Orderly ttl capacity s) (htracks : Tracks ttl t)
    (hcache : t.cache = s.cache) (hpast : t.past = e :: s.past) (hunused : ∀ u, e.uses u = false)
    (hnow : ∀ q : Quantity, q.le s.now = true → q.le t.now = true) : Orderly ttl capacity t := by
  refine h.of_unused htracks (by rw [hcache]) hpast hunused hnow ?_ ?_
  · rw [hcache]
  · intro u hu hnot
    rw [hcache] at hnot
    exact absurd hu hnot

/-- A step that uses no tenant and drops one for which there is an excuse then. -/
theorem of_without {tenant : String} (h : Orderly ttl capacity s) (htracks : Tracks ttl t)
    (hcapacity : t.cache.capacity = s.cache.capacity) (hpast : t.past = e :: s.past)
    (hunused : ∀ u, e.uses u = false) (hnow : t.now = s.now)
    (hentries : t.cache.entries = s.cache.without tenant)
    (hexcused : Excused ttl capacity t tenant) : Orderly ttl capacity t := by
  have htenants : t.cache.tenants = s.cache.tenants.filter (· != tenant) := by
    rw [tenants, hentries, tenants_without]
  refine h.of_unused htracks hcapacity hpast hunused (fun q hq => hnow ▸ hq) ?_ ?_
  · rw [htenants]
    exact List.filter_sublist
  · intro u hu hnot
    rw [htenants, List.mem_filter, not_and, bne_iff_ne, not_not] at hnot
    exact hnot hu ▸ hexcused

/-- A step that uses one tenant, which stands last then. -/
theorem of_used {tenant : String} {rest : List String} (h : Orderly ttl capacity s)
    (htracks : Tracks ttl t) (hcapacity : t.cache.capacity = s.cache.capacity)
    (hpast : t.past = e :: s.past) (huses : ∀ u, e.uses u = true ↔ tenant = u) (hnow : t.now = s.now)
    (htenants : t.cache.tenants = rest ++ [tenant]) (hrest : rest.Sublist s.cache.tenants)
    (hnew : tenant ∉ rest) (hlength : rest.length < capacity)
    (hgone : ∀ u ∈ s.cache.tenants, u ≠ tenant → u ∉ rest → Excused ttl capacity t u) :
    Orderly ttl capacity t := by
  have hunused : ∀ u, u ≠ tenant → e.uses u = false := fun u hne =>
    Bool.eq_false_iff.mpr fun huse => hne ((huses u).mp huse).symm
  have hother : ∀ u ∈ rest, e.uses u = false := fun u hu => hunused u fun heq => hnew (heq ▸ hu)
  refine ⟨htracks, hcapacity.trans h.bound, ?_, ?_, ?_, ?_, ?_⟩
  · rw [size_eq, htenants, List.length_append, List.length_singleton]
    omega
  · rw [htenants]
    exact (hrest.nodup h.distinct).append (List.nodup_singleton _) (by simpa using hnew)
  · rw [htenants, hpast, List.pairwise_append]
    refine ⟨pairwise_usedSince_cons (h.order.sublist hrest) hother, List.pairwise_singleton _ _, ?_⟩
    intro u hu v hv
    rw [List.mem_singleton.mp hv]
    exact usedSince_cons.mpr ⟨hother u hu, Or.inl ((huses tenant).mpr rfl)⟩
  · rw [htenants, hpast]
    intro u hu
    rcases List.mem_append.mp hu with hu | hu
    · obtain ⟨f, hf, huse⟩ := h.used u (hrest.subset hu)
      exact ⟨f, List.mem_cons_of_mem _ hf, huse⟩
    · exact ⟨e, List.mem_cons_self, (huses u).mpr (List.mem_singleton.mp hu).symm⟩
  · intro u hu
    rw [htenants, List.mem_append, List.mem_singleton, not_or] at hu
    by_cases hmem : u ∈ s.cache.tenants
    · exact hgone u hmem hu.2 hu.1
    · exact (h.excused u hmem).cons hpast (hunused u hu.2) fun q hq => hnow ▸ hq

/-- A step that uses one tenant and leaves all others as they are. -/
theorem of_renewed {entry : CacheEntry α} (h : Orderly ttl capacity s) (htracks : Tracks ttl t)
    (hcapacity : t.cache.capacity = s.cache.capacity) (hpast : t.past = e :: s.past)
    (huses : ∀ u, e.uses u = true ↔ entry.tenant = u) (hnow : t.now = s.now)
    (hentries : t.cache.entries = s.cache.without entry.tenant ++ [entry])
    (hroom : entry.tenant ∈ s.cache.tenants ∨ s.cache.size < s.cache.capacity) :
    Orderly ttl capacity t := by
  have htenants : t.cache.tenants =
      s.cache.tenants.filter (· != entry.tenant) ++ [entry.tenant] := by
    rw [tenants, hentries, List.map_append, tenants_without]
    rfl
  refine h.of_used htracks hcapacity hpast huses hnow htenants List.filter_sublist ?_ ?_ ?_
  · simp
  · rw [← tenants_without, List.length_map]
    rcases hroom with hmem | hlt
    · exact (length_without_lt hmem).trans_le h.room
    · exact (List.length_filter_le _ _).trans_lt (h.bound ▸ hlt)
  · intro u hu hne hnot
    refine absurd (List.mem_filter.mpr ⟨hu, ?_⟩) hnot
    exact bne_iff_ne.mpr hne

/-- A step that uses a new tenant, for which the first one of a full cache goes. -/
theorem of_full {oldest entry : CacheEntry α} {rest : List (CacheEntry α)}
    (h : Orderly ttl capacity s) (htracks : Tracks ttl t)
    (hcapacity : t.cache.capacity = s.cache.capacity) (hpast : t.past = e :: s.past)
    (huses : ∀ u, e.uses u = true ↔ entry.tenant = u) (hnow : t.now = s.now)
    (hfull : s.cache.size = s.cache.capacity) (hold : s.cache.entries = oldest :: rest)
    (hnew : entry.tenant ∉ s.cache.tenants) (hentries : t.cache.entries = rest ++ [entry]) :
    Orderly ttl capacity t := by
  have htenants : s.cache.tenants = oldest.tenant :: rest.map (·.tenant) := by
    rw [tenants, hold, List.map_cons]
  have htenants' : t.cache.tenants = rest.map (·.tenant) ++ [entry.tenant] := by
    rw [tenants, hentries, List.map_append]
    rfl
  have hlength : (rest.map (·.tenant)).length + 1 = capacity := by
    rw [← h.bound, ← hfull, size_eq, htenants, List.length_cons]
  have hsub : (rest.map (·.tenant)).Sublist s.cache.tenants := htenants ▸ List.sublist_cons_self _ _
  have hnew' : entry.tenant ∉ rest.map (·.tenant) := fun hmem => hnew (hsub.subset hmem)
  refine h.of_used htracks hcapacity hpast huses hnow htenants' hsub hnew' (by omega) ?_
  intro u hu hne hnot
  have holdest : u = oldest.tenant := by
    rw [htenants] at hu
    exact (List.mem_cons.mp hu).resolve_right hnot
  subst holdest
  -- The one that goes stood first, so all that stay have been used after it, and now the new one.
  obtain ⟨hbehind, _⟩ := List.pairwise_cons.mp (htenants ▸ h.order)
  have hunused : e.uses oldest.tenant = false :=
    Bool.eq_false_iff.mpr fun huse => hne ((huses _).mp huse).symm
  have hothers : (rest.map (·.tenant) ++ [entry.tenant]).length = capacity := by
    rw [List.length_append, List.length_singleton, hlength]
  refine .crowded ?_ hothers.ge fun v hv => ?_
  · exact (hsub.nodup h.distinct).append (List.nodup_singleton _) (by simpa using hnew')
  · rw [hpast, usedSince_cons]
    rcases List.mem_append.mp hv with hv | hv
    · exact ⟨fun heq => hnot (heq ▸ hv), hunused, Or.inr (hbehind v hv)⟩
    · rw [List.mem_singleton.mp hv]
      exact ⟨hne.symm, hunused, Or.inl ((huses entry.tenant).mpr rfl)⟩

theorem get (h : Orderly ttl capacity s) (tenant : String) :
    Orderly ttl capacity (s.step (.get tenant)) := by
  have htracks := h.tracks.step (.get tenant)
  rcases get_cases s.cache s.now tenant with ⟨hcache, _, hmiss⟩ | ⟨e, he, rfl, ⟨hlate, hget⟩ | ⟨_, hget⟩⟩
  · exact h.of_unchanged htracks hcache rfl (Event.uses_got_of_ne hmiss) fun q hq => hq
  · simp only [Session.step, hget] at htracks ⊢
    obtain ⟨time, hstands, hsum⟩ := h.tracks.entries e he
    refine h.of_without htracks rfl rfl (fun u => rfl) rfl rfl ?_
    exact .expired (hstands.cons rfl rfl).latest hsum (Quantity.le_of_le? hlate)
  · simp only [Session.step, hget] at htracks ⊢
    refine h.of_renewed htracks rfl rfl (fun u => ?_) rfl rfl (Or.inl (List.mem_map_of_mem he))
    exact beq_iff_eq

theorem put (h : Orderly ttl capacity s) (hcapacity : 0 < capacity) (tenant : String) (record : α)
    (generation : Option Int) : Orderly ttl capacity (s.step (.put tenant record generation)) := by
  have htracks := h.tracks.step (.put tenant record generation)
  by_cases hkept : (s.cache.put s.now tenant record generation).1 = .ok true
  · obtain ⟨expiry, _, hput⟩ := put_eq_kept hkept
    simp only [Session.step, hput, hkept] at htracks ⊢
    have huses : ∀ u, (Event.put tenant record s.now (.ok true)).uses u = true ↔ tenant = u :=
      fun u => Event.uses_put_iff.trans (and_iff_left rfl)
    have hadmits := admits_entriesWith (h.bound ▸ h.room) (h.bound ▸ hcapacity)
      (CacheEntry.mk tenant record expiry)
    generalize s.cache.entriesWith ⟨tenant, record, expiry⟩ = entries at hadmits htracks ⊢
    cases hadmits with
    | roomy room => exact h.of_renewed htracks rfl rfl huses rfl rfl room
    | full isNew full entries => exact h.of_full htracks rfl rfl huses rfl full entries isNew rfl
  · refine h.of_unchanged htracks (put_eq_self hkept) rfl (fun u => ?_) fun q hq => hq
    exact Bool.eq_false_iff.mpr fun huse => hkept (Event.uses_put_iff.mp huse).2

theorem invalidate (h : Orderly ttl capacity s) (tenant : String) :
    Orderly ttl capacity (s.step (.invalidate tenant)) := by
  have hsince : sinceKept (.invalidated tenant :: s.past) tenant =
      .invalidated tenant :: sinceKept s.past tenant := sinceKept_cons_of_not rfl
  refine h.of_without (h.tracks.step (.invalidate tenant)) rfl rfl (fun u => rfl) rfl rfl ?_
  exact .forgotten ⟨.invalidated tenant, hsince ▸ List.mem_cons_self, beq_self_eq_true tenant⟩

theorem clock (h : Orderly ttl capacity s) {now : Quantity} (hnow : s.now.le now = true) :
    Orderly ttl capacity (s.step (.clock now)) :=
  h.of_unchanged (h.tracks.step (.clock now)) rfl rfl (fun _ => rfl) fun _ hq =>
    Quantity.le_trans hq hnow

theorem step (h : Orderly ttl capacity s) (hcapacity : 0 < capacity) (call : Call α)
    (hnow : ∀ now ∈ call.reading?, s.now.le now = true) : Orderly ttl capacity (s.step call) := by
  cases call with
  | get tenant => exact h.get tenant
  | put tenant record generation => exact h.put hcapacity tenant record generation
  | invalidate tenant => exact h.invalidate tenant
  | clock now => exact h.clock (hnow now rfl)

theorem run (h : Orderly ttl capacity s) (hcapacity : 0 < capacity) (calls : List (Call α))
    (hforward : Forward s.now calls) : Orderly ttl capacity (s.run calls) := by
  induction calls generalizing s with
  | nil => exact h
  | cons call rest ih =>
    obtain ⟨hnow, hrest⟩ := forward_cons.mp hforward
    exact ih (h.step hcapacity call hnow) hrest

end Orderly

end ConsentGate.Consent.Cache
