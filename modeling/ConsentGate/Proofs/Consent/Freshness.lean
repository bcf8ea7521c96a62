import ConsentGate.Proofs.Consent.Grounds
import ConsentGate.Proofs.Consent.Interleaving
import ConsentGate.Proofs.Number.Order

/-! A cache against the full history of its calls.

A session is a cache in use, with the time that its clock shows and everything that has happened, the
latest first. `Tracks` ties the cache to the history: its generation counts the invalidations, and every
entry is the tenant's latest record that was kept, with nothing forgotten since. Every call keeps it
(`Tracks.step`), and so a hit repeats the latest record kept, before its lifetime is over
(`hits_repeat_latest_kept`). -/
namespace ConsentGate.Consent.Cache
open Number
set_option autoImplicit false

variable {α : Type}

/-! ## Calls and what came of them -/

/-- A call of a cache; or its clock shows another time from now on. -/
inductive Call (α : Type) where
  | get (tenant : String)
  | put (tenant : String) (record : α) (generation : Option Int)
  | invalidate (tenant : String)
  | clock (now : Quantity)

/-- What came of a call; a put is told with the time at which it was made. -/
inductive Event (α : Type) where
  | got (tenant : String) (found : Except Fault (Option α))
  | put (tenant : String) (record : α) (time : Quantity) (kept : Except Fault Bool)
  | invalidated (tenant : String)
  | clock (now : Quantity)

namespace Event

/-- The record of the tenant that was kept, and when. -/
def kept? (tenant : String) : Event α → Option (α × Quantity)
  | .put t record time (.ok true) => if t = tenant then some (record, time) else none
  | _ => none

def keeps (tenant : String) (e : Event α) : Bool := (e.kept? tenant).isSome

def forgets (tenant : String) : Event α → Bool
  | .invalidated t => t == tenant
  | _ => false

def isInvalidation : Event α → Bool
  | .invalidated _ => true
  | _ => false

section Keeps

variable {t tenant : String} {record : α} {time : Quantity} {kept : Except Fault Bool}

theorem keeps_put_iff : (put t record time kept).keeps tenant = true ↔ t = tenant ∧ kept = .ok true := by
  cases kept with
  | error f => simp [keeps, kept?]
  | ok b => cases b <;> simp [keeps, kept?]

theorem keeps_put_of_ne (h : t ≠ tenant) : (put t record time kept).keeps tenant = false :=
  Bool.eq_false_iff.mpr fun hkeeps => h (keeps_put_iff.mp hkeeps).1

theorem keeps_put_of_not_kept (h : kept ≠ .ok true) :
    (put t record time kept).keeps tenant = false :=
  Bool.eq_false_iff.mpr fun hkeeps => h (keeps_put_iff.mp hkeeps).2

end Keeps

end Event

/-- A cache in use: what its clock shows, and what has happened so far, the latest first. -/
structure Session (α : Type) where
  cache : Cache α
  now : Quantity
  past : List (Event α) := []

namespace Session

def step (s : Session α) : Call α → Session α
  | .get tenant =>
    { s with
      cache := (s.cache.get s.now tenant).2
      past := .got tenant (s.cache.get s.now tenant).1 :: s.past }
  | .put tenant record generation =>
    { s with
      cache := (s.cache.put s.now tenant record generation).2
      past := .put tenant record s.now (s.cache.put s.now tenant record generation).1 :: s.past }
  | .invalidate tenant =>
    { s with cache := (s.cache.invalidate tenant).2, past := .invalidated tenant :: s.past }
  | .clock now => { s with now := now, past := .clock now :: s.past }

def run (s : Session α) (calls : List (Call α)) : Session α := calls.foldl step s

end Session

/-! ## The latest record kept -/

/-- The record of the tenant that was kept last, and when. -/
def latestKept? (past : List (Event α)) (tenant : String) : Option (α × Quantity) :=
  past.findSome? (·.kept? tenant)

/-- What has happened since a record of the tenant was kept last. -/
def sinceKept (past : List (Event α)) (tenant : String) : List (Event α) :=
  past.takeWhile fun e => !e.keeps tenant

def invalidations (past : List (Event α)) : Nat := past.countP Event.isInvalidation

/-- The record was the latest of the tenant to be kept, at that time, and the tenant has not been
forgotten since. -/
structure Stands (past : List (Event α)) (tenant : String) (record : α) (time : Quantity) : Prop where
  latest : latestKept? past tenant = some (record, time)
  unforgotten : ∀ e ∈ sinceKept past tenant, e.forgets tenant = false

section Kept

variable {past : List (Event α)} {e : Event α} {tenant : String} {record : α} {time : Quantity}

theorem latestKept?_cons_of_not (h : e.keeps tenant = false) :
    latestKept? (e :: past) tenant = latestKept? past tenant := by
  have hnone : e.kept? tenant = none := by simpa [Event.keeps] using h
  rw [latestKept?, List.findSome?_cons, hnone]
  rfl

theorem sinceKept_cons_of_not (h : e.keeps tenant = false) :
    sinceKept (e :: past) tenant = e :: sinceKept past tenant := by
  rw [sinceKept, List.takeWhile_cons_of_pos (by rw [h]; rfl)]
  rfl

/-- A record still stands after whatever neither keeps nor forgets the tenant. -/
theorem Stands.cons (h : Stands past tenant record time) (hkeeps : e.keeps tenant = false)
    (hforgets : e.forgets tenant = false) : Stands (e :: past) tenant record time := by
  refine ⟨(latestKept?_cons_of_not hkeeps).trans h.latest, ?_⟩
  rw [sinceKept_cons_of_not hkeeps]
  exact List.forall_mem_cons.mpr ⟨hforgets, h.unforgotten⟩

theorem stands_put (past : List (Event α)) (tenant : String) (record : α) (time : Quantity) :
    Stands (.put tenant record time (.ok true) :: past) tenant record time := by
  refine ⟨by simp [latestKept?, Event.kept?], ?_⟩
  simp [sinceKept, Event.keeps, Event.kept?]

end Kept

/-! ## Puts -/

/-- The entries after one is added: it stands last, in place of the one that its tenant had, and the
first ones make room. -/
def entriesWith (c : Cache α) (e : CacheEntry α) : List (CacheEntry α) :=
  (c.without e.tenant ++ [e]).drop ((c.without e.tenant ++ [e]).length - c.capacity)

theorem mem_of_mem_entriesWith {c : Cache α} {e entry : CacheEntry α}
    (h : entry ∈ c.entriesWith e) : (entry ∈ c.entries ∧ entry.tenant ≠ e.tenant) ∨ entry = e := by
  rcases List.mem_append.mp (List.mem_of_mem_drop h) with hold | hnew
  · exact Or.inl (mem_without.mp hold)
  · exact Or.inr (List.mem_singleton.mp hnew)

@[simp] theorem put_ttl (c : Cache α) (now : Quantity) (tenant : String) (record : α)
    (generation : Option Int) : (c.put now tenant record generation).2.ttl = c.ttl := by
  unfold put
  split
  · rfl
  · split <;> rfl

section Puts

variable {c : Cache α} {now : Quantity} {tenant : String} {record : α} {generation : Option Int}

/-- A put keeps its record exactly if its generation is the present one, if it has any, and if the
lifetime can be added to the time. -/
theorem put_eq_true_iff : (c.put now tenant record generation).1 = .ok true ↔
    (∀ g ∈ generation, g = (c.generation : Int)) ∧ ∃ expiry, now.add c.ttl = .ok expiry := by
  have hcurrent : (∀ g ∈ generation, g = (c.generation : Int)) ↔
      (generation.any fun g => g != (c.generation : Int)) = false := by
    cases generation <;> simp
  rw [hcurrent]
  unfold put
  split
  · rename_i hstale
    simp [hstale]
  · rename_i hstale
    split
    · rename_i f hadd
      simp [hadd]
    · rename_i expiry hadd
      simpa [hadd] using hstale

theorem put_eq_false (h : ∃ g ∈ generation, g ≠ (c.generation : Int)) :
    (c.put now tenant record generation).1 = .ok false := by
  obtain ⟨g, hg, hne⟩ := h
  have hstale : (generation.any fun g => g != (c.generation : Int)) = true := by
    rw [Option.mem_def.mp hg]
    simpa using hne
  unfold put
  rw [if_pos hstale]

theorem put_eq_self (h : (c.put now tenant record generation).1 ≠ .ok true) :
    (c.put now tenant record generation).2 = c := by
  unfold put at h ⊢
  split
  · rfl
  · rename_i hstale
    rw [if_neg hstale] at h
    split
    · rfl
    · rename_i expiry hadd
      rw [hadd] at h
      exact absurd rfl h

theorem put_eq_kept (h : (c.put now tenant record generation).1 = .ok true) :
    ∃ expiry, now.add c.ttl = .ok expiry ∧ (c.put now tenant record generation).2 =
      { c with entries := c.entriesWith ⟨tenant, record, expiry⟩ } := by
  obtain ⟨_, expiry, hadd⟩ := put_eq_true_iff.mp h
  refine ⟨expiry, hadd, ?_⟩
  unfold put at h ⊢
  split
  · rename_i hstale
    rw [if_pos hstale] at h
    cases h
  · rw [hadd]
    rfl

end Puts

/-! ## Tracking -/

/-- The generation counts the invalidations, and every entry is a record that stands, with the end of
its lifetime. -/
structure Tracks (ttl : Quantity) (s : Session α) : Prop where
  lifetime : s.cache.ttl = ttl
  generation : s.cache.generation = invalidations s.past
  entries : ∀ e ∈ s.cache.entries, ∃ time, Stands s.past e.tenant e.record time ∧
    time.add ttl = .ok e.expiresAt

namespace Tracks

variable {ttl : Quantity} {s : Session α}

theorem of_make {ttl : Value} {capacity : Int} {c : Cache α} (h : make ttl capacity = .ok c)
    (hgeneration : c.generation = 0) (now : Quantity) : Tracks c.ttl ⟨c, now, []⟩ := by
  refine ⟨rfl, hgeneration, fun e he => ?_⟩
  rw [make_entries h] at he
  cases he

/-- Whatever happens beside a record, without another one being kept, leaves it standing. -/
theorem entries_cons {c : Cache α} (h : Tracks ttl s) (e : Event α)
    (hentries : ∀ entry ∈ c.entries, entry ∈ s.cache.entries ∧ e.keeps entry.tenant = false ∧
      e.forgets entry.tenant = false) :
    ∀ entry ∈ c.entries, ∃ time, Stands (e :: s.past) entry.tenant entry.record time ∧
      time.add ttl = .ok entry.expiresAt := by
  intro entry hentry
  obtain ⟨hold, hkeeps, hforgets⟩ := hentries entry hentry
  obtain ⟨time, hstands, hexpiry⟩ := h.entries entry hold
  exact ⟨time, hstands.cons hkeeps hforgets, hexpiry⟩

theorem get (h : Tracks ttl s) (tenant : String) : Tracks ttl (s.step (.get tenant)) := by
  refine ⟨(get_ttl _ _ _).trans h.lifetime, (get_generation _ _ _).trans h.generation, ?_⟩
  exact h.entries_cons _ fun e he => ⟨mem_of_mem_get he, rfl, rfl⟩

theorem put (h : Tracks ttl s) (tenant : String) (record : α) (generation : Option Int) :
    Tracks ttl (s.step (.put tenant record generation)) := by
  refine ⟨(put_ttl _ _ _ _ _).trans h.lifetime, (put_generation _ _ _ _ _).trans h.generation, ?_⟩
  by_cases hkept : (s.cache.put s.now tenant record generation).1 = .ok true
  · obtain ⟨expiry, hadd, hput⟩ := put_eq_kept hkept
    intro e he
    simp only [Session.step, hput, hkept] at he ⊢
    rcases mem_of_mem_entriesWith he with ⟨hold, hne⟩ | rfl
    · obtain ⟨time, hstands, hexpiry⟩ := h.entries e hold
      exact ⟨time, hstands.cons (Event.keeps_put_of_ne hne.symm) rfl, hexpiry⟩
    · exact ⟨s.now, stands_put s.past tenant record s.now, h.lifetime ▸ hadd⟩
  · refine h.entries_cons _ fun e he => ⟨?_, Event.keeps_put_of_not_kept hkept, rfl⟩
    rw [Session.step, put_eq_self hkept] at he
    exact he

theorem invalidate (h : Tracks ttl s) (tenant : String) :
    Tracks ttl (s.step (.invalidate tenant)) := by
  refine ⟨h.lifetime, ?_, ?_⟩
  · exact (congrArg (· + 1) h.generation).trans (List.countP_cons_of_pos rfl).symm
  · refine h.entries_cons _ fun e he => ?_
    obtain ⟨hmem, hne⟩ := mem_invalidate.mp he
    exact ⟨hmem, rfl, beq_eq_false_iff_ne.mpr hne.symm⟩

theorem step (h : Tracks ttl s) (call : Call α) : Tracks ttl (s.step call) := by
  cases call with
  | get tenant => exact h.get tenant
  | put tenant record generation => exact h.put tenant record generation
  | invalidate tenant => exact h.invalidate tenant
  | clock now =>
    exact ⟨h.lifetime, h.generation, h.entries_cons (.clock now) fun e he => ⟨he, rfl, rfl⟩⟩

theorem run (h : Tracks ttl s) (calls : List (Call α)) : Tracks ttl (s.run calls) := by
  induction calls generalizing s with
  | nil => exact h
  | cons call rest ih => exact ih (h.step call)

end Tracks

/-! ## Hits and puts -/

/-- A look finds nothing that may be shown and leaves the cache as it is, or it finds an entry, which has
expired and goes, or stands last from now on. -/
theorem get_cases (c : Cache α) (now : Quantity) (tenant : String) :
    ((c.get now tenant).2 = c ∧ ((c.get now tenant).1 = .ok none → tenant ∉ c.tenants) ∧
        ∀ record, (c.get now tenant).1 ≠ .ok (some record)) ∨
      ∃ e ∈ c.entries, e.tenant = tenant ∧
        ((e.expiresAt.le? now = .ok true ∧
            c.get now tenant = (.ok none, { c with entries := c.without tenant })) ∨
          (e.expiresAt.le? now = .ok false ∧ c.get now tenant =
            (.ok (some e.record), { c with entries := c.without tenant ++ [e] }))) := by
  unfold get
  split
  · rename_i hfind
    refine Or.inl ⟨rfl, fun _ hmem => ?_, nofun⟩
    obtain ⟨e, he, htenant⟩ := List.mem_map.mp hmem
    exact absurd htenant (by simpa using List.find?_eq_none.mp hfind e he)
  · rename_i e hfind
    obtain ⟨he, htenant⟩ := find?_eq_some hfind
    split
    · exact Or.inl ⟨rfl, nofun, nofun⟩
    · rename_i hlate
      exact Or.inr ⟨e, he, htenant, Or.inl ⟨hlate, rfl⟩⟩
    · rename_i hfresh
      exact Or.inr ⟨e, he, htenant, Or.inr ⟨hfresh, rfl⟩⟩

/-- What a look into the cache finds is an entry that has not expired. -/
theorem exists_entry_of_get {c : Cache α} {now : Quantity} {tenant : String} {record : α}
    (h : (c.get now tenant).1 = .ok (some record)) :
    ∃ e ∈ c.entries, e.tenant = tenant ∧ e.record = record ∧ e.expiresAt.le? now = .ok false := by
  rcases get_cases c now tenant with ⟨_, _, hmiss⟩ | ⟨e, he, htenant, ⟨_, hget⟩ | ⟨hfresh, hget⟩⟩
  · exact absurd h (hmiss record)
  · rw [hget] at h
    cases h
  · rw [hget] at h
    exact ⟨e, he, htenant, Option.some.inj (Except.ok.inj h), hfresh⟩

/-- In every session of a new cache, a hit repeats the latest record of the tenant that was kept, which
has not been forgotten since, and it comes before the time of that put plus the lifetime, where both
times are numbers. A put under a generation is kept exactly if that many invalidations have been made
and the lifetime can be added to the time; under any other generation it is refused, and a put that is
not kept changes nothing. -/
theorem hits_repeat_latest_kept {ttl capacity : Int} (httl : 0 < ttl) (hcapacity : 0 < capacity) :
    ∃ c : Cache α, make (.int ttl) capacity = .ok c ∧
      ∀ (now : Quantity) (calls : List (Call α)) (s : Session α),
        (Session.mk c now []).run calls = s →
          (∀ tenant record, (s.cache.get s.now tenant).1 = .ok (some record) →
            ∃ time expiry, Stands s.past tenant record time ∧
              time.add (.whole ttl) = .ok expiry ∧
              (time.isNan = false → s.now.isNan = false → s.now.lt expiry = true)) ∧
          ∀ tenant record, (∀ g : Int,
              ((s.cache.put s.now tenant record (some g)).1 = .ok true ↔
                g = invalidations s.past ∧ ∃ expiry, s.now.add (.whole ttl) = .ok expiry) ∧
              (g ≠ invalidations s.past →
                (s.cache.put s.now tenant record (some g)).1 = .ok false)) ∧
            ∀ generation, (s.cache.put s.now tenant record generation).1 ≠ .ok true →
              (s.cache.put s.now tenant record generation).2 = s.cache := by
  refine ⟨_, make_whole httl hcapacity, fun now calls s hs => ?_⟩
  have htracks : Tracks (.whole ttl) s := by
    rw [← hs]
    exact (Tracks.of_make (make_whole httl hcapacity) rfl now).run calls
  refine ⟨fun tenant record hhit => ?_, fun tenant record => ⟨fun g => ⟨?_, fun hne => ?_⟩, ?_⟩⟩
  · obtain ⟨e, he, rfl, rfl, hfresh⟩ := exists_entry_of_get hhit
    obtain ⟨time, hstands, hexpiry⟩ := htracks.entries e he
    refine ⟨time, e.expiresAt, hstands, hexpiry, fun htime hnow => ?_⟩
    exact Quantity.lt_of_le? hfresh ((Quantity.isNan_of_add_whole hexpiry).trans htime) hnow
  · rw [put_eq_true_iff, htracks.generation, htracks.lifetime]
    simp
  · exact put_eq_false ⟨g, rfl, htracks.generation ▸ hne⟩
  · exact fun generation => put_eq_self

/-- A record is kept and replaced, another tenant is invalidated, a put under the generation before that
is refused, and in the end the clock shows just less than the second put and the lifetime. -/
def sampleCalls : List (Call Nat) :=
  [.put "acme" 1 none, .clock (.whole 1100), .put "acme" 2 (some 0), .invalidate "other",
    .put "acme" 3 (some 0), .clock (.float (.round false 2799 2))]

/-- The session of these calls, with a new cache. -/
def sampleSession : Session Nat :=
  (Session.mk ⟨.whole 300, 10, [], 0⟩ (.whole 1000) []).run sampleCalls

theorem hits_repeat_latest_kept_sample :
    (0 : Int) < 300 ∧ (0 : Int) < 10 ∧ ∃ c : Cache Nat, make (.int 300) 10 = .ok c ∧
      (Session.mk c (.whole 1000) []).run sampleCalls = sampleSession ∧
        (sampleSession.cache.get sampleSession.now "acme").1 = .ok (some 2) ∧
        (∃ time expiry, Stands sampleSession.past "acme" 2 time ∧
          time.add (.whole 300) = .ok expiry ∧ (time.isNan = false →
            sampleSession.now.isNan = false → sampleSession.now.lt expiry = true)) ∧
        (sampleSession.cache.put sampleSession.now "acme" 4 (some 1)).1 = .ok true ∧
        (sampleSession.cache.put sampleSession.now "acme" 4 (some 0)).1 = .ok false := by
  obtain ⟨c, hmake, hsessions⟩ := @hits_repeat_latest_kept Nat 300 10 (by decide) (by decide)
  cases hmake.symm.trans (make_whole (by decide) (by decide))
  obtain ⟨hhits, hputs⟩ := hsessions (.whole 1000) sampleCalls sampleSession rfl
  have hhit : (sampleSession.cache.get sampleSession.now "acme").1 = .ok (some 2) := by decide +kernel
  have hone : invalidations sampleSession.past = 1 := by decide +kernel
  have hadd : (sampleSession.now.add (.whole 300)).isOk = true := by decide +kernel
  obtain ⟨hkept, hrefused⟩ := (hputs "acme" 4).1 1
  refine ⟨by decide, by decide, _, hmake, rfl, hhit, hhits "acme" 2 hhit, ?_, ?_⟩
  · exact hkept.mpr ⟨by rw [hone]; rfl, exists_eq_ok hadd⟩
  · exact ((hputs "acme" 4).1 0).2 (by rw [hone]; decide)

/-- While the clock shows no number, nothing expires; and nothing can be kept for a lifetime that cannot
be added to what the clock shows. -/
theorem hit_and_fault_beyond_numbers :
    (∃ c : Cache Nat, make (.int 300) 10 = .ok c ∧
      ∃ s, (Session.mk c (.whole 1000) []).run [.clock (.float .nan), .put "acme" 7 (some 0)] = s ∧
        (s.cache.get s.now "acme").1 = .ok (some 7) ∧
        ∀ expiry, s.now.lt expiry = false) ∧
      ∃ c : Cache Nat, make (.int Validator.farLifetime) 10 = .ok c ∧
        ∃ s, (Session.mk c (.whole 1000) []).run [.clock (.float (.round false 2001 2))] = s ∧
          invalidations s.past = 0 ∧ (s.cache.put s.now "acme" 7 (some 0)).1 ≠ .ok true := by
  refine ⟨⟨_, make_whole (by decide) (by decide), _, rfl, by decide +kernel, fun expiry => ?_⟩, _,
    make_whole (by decide +kernel) (by decide), _, rfl, rfl, by decide +kernel⟩
  cases expiry <;> rfl

end ConsentGate.Consent.Cache
