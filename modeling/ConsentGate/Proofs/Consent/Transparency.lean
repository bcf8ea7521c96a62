import ConsentGate.Proofs.Consent.Coherence

/-! A validator with a cache decides as one without.

Two validators over the same source, one of them with a cache, are asked the same questions while
consent and the clock change in between. `Shadows` says how far they may differ; every change and every
decision keeps it so, and under it both come to the same decision. The cache adds one thing that can go
wrong: it adds the lifetime of an entry to the time and compares the sum with later times, and not all
numbers can be added or compared. Where they can (`Reckonable`), a cache shows in nothing but fewer
lookups (`decisions_eq_uncached`). -/
namespace ConsentGate.Consent
open Number Text
set_option autoImplicit false

/-! ## Times that a lifetime can be reckoned with -/

/-- At each of the times the lifetime can be added, and the sum compared with each of them. -/
structure Reckonable (ttl : Quantity) (times : List Quantity) : Prop where
  sum : ∀ t ∈ times, ∃ expiry, t.add ttl = .ok expiry
  order : ∀ t ∈ times, ∀ expiry, t.add ttl = .ok expiry → ∀ u ∈ times, ∃ late,
    expiry.le? u = .ok late

theorem exists_le?_eq_ok {x y : Quantity} (hx : x.isDecimal = false) (hy : y.isDecimal = false) :
    ∃ b, x.le? y = .ok b := by
  -- Only decimals can be out of order.
  refine ⟨x.le y, ?_⟩
  unfold Quantity.le? Quantity.orderFault?
  simp only [hx, hy, Bool.or_self, Bool.false_and, Bool.false_eq_true, if_false]

theorem reckonable_of_whole {n : Int} {times : List Quantity} (h : ∀ t ∈ times, ∃ m, t = .whole m) :
    Reckonable (.whole n) times := by
  refine ⟨?_, ?_⟩
  · intro t ht
    obtain ⟨m, rfl⟩ := h t ht
    exact ⟨_, Quantity.add_whole m n⟩
  · intro t ht expiry hexpiry u hu
    obtain ⟨m, rfl⟩ := h t ht
    obtain ⟨k, rfl⟩ := h u hu
    cases hexpiry
    exact exists_le?_eq_ok rfl rfl

/-- Whole and floating-point times go with every whole lifetime that is not beyond all floating-point
numbers. -/
theorem reckonable_of_not_decimal {n : Int} {x : Binary64} {times : List Quantity}
    (hn : Quantity.toFloat? (.whole n) = .ok x) (h : ∀ t ∈ times, t.isDecimal = false) :
    Reckonable (.whole n) times := by
  have hsum : ∀ t ∈ times, ∃ expiry, t.add (.whole n) = .ok expiry ∧ expiry.isDecimal = false := by
    intro t ht
    cases t with
    | whole m => exact ⟨_, Quantity.add_whole m n, rfl⟩
    | float y =>
      refine ⟨.float (y.add x), ?_, rfl⟩
      simp only [Quantity.add, hn]
      rfl
    | decimal d => exact absurd (h _ ht) (by simp [Quantity.isDecimal])
  refine ⟨?_, ?_⟩
  · intro t ht
    obtain ⟨expiry, hexpiry, _⟩ := hsum t ht
    exact ⟨expiry, hexpiry⟩
  · intro t ht expiry hexpiry u hu
    obtain ⟨sum, hsum, hkind⟩ := hsum t ht
    rw [hsum] at hexpiry
    cases hexpiry
    exact exists_le?_eq_ok hkind (h u hu)

/-! ## A cache at such times -/

namespace Cache

variable {α : Type} {c : Cache α} {ttl now : Quantity} {times : List Quantity} {tenant : String}

/-- Every entry was kept at one of the times. -/
structure KeptAt (ttl : Quantity) (times : List Quantity) (c : Cache α) : Prop where
  lifetime : c.ttl = ttl
  kept : ∀ e ∈ c.entries, ∃ t ∈ times, t.add ttl = .ok e.expiresAt

theorem KeptAt.of_subset {d : Cache α} (h : KeptAt ttl times c) (hlifetime : d.ttl = c.ttl)
    (hentries : ∀ e ∈ d.entries, e ∈ c.entries) : KeptAt ttl times d :=
  ⟨hlifetime.trans h.lifetime, fun e he => h.kept e (hentries e he)⟩

@[simp] theorem get_ttl (c : Cache α) (now : Quantity) (tenant : String) :
    (c.get now tenant).2.ttl = c.ttl := by
  unfold get
  split
  · rfl
  · split <;> rfl

theorem KeptAt.get (h : KeptAt ttl times c) (now : Quantity) (tenant : String) :
    KeptAt ttl times (c.get now tenant).2 :=
  h.of_subset (get_ttl c now tenant) fun _ => mem_of_mem_get

theorem KeptAt.invalidate (h : KeptAt ttl times c) (tenant : String) :
    KeptAt ttl times (c.invalidate tenant).2 :=
  h.of_subset rfl fun _ he => (mem_invalidate.mp he).1

theorem KeptAt.exists_get_eq_ok (h : KeptAt ttl times c) (hreckon : Reckonable ttl times)
    (hnow : now ∈ times) (tenant : String) : ∃ found, (c.get now tenant).1 = .ok found := by
  unfold Cache.get
  split
  · exact ⟨none, rfl⟩
  · rename_i e hfound
    obtain ⟨t, ht, hexpiry⟩ := h.kept e (find?_eq_some hfound).1
    obtain ⟨late, hlate⟩ := hreckon.order t ht e.expiresAt hexpiry now hnow
    rw [hlate]
    cases late with
    | true => exact ⟨none, rfl⟩
    | false => exact ⟨some e.record, rfl⟩

/-- Under its present generation the cache keeps a record at any of the times. -/
theorem KeptAt.put (h : KeptAt ttl times c) (hreckon : Reckonable ttl times) (hnow : now ∈ times)
    (tenant : String) (record : α) :
    (c.put now tenant record (some (c.generation : Int))).1 = .ok true ∧
      KeptAt ttl times (c.put now tenant record (some (c.generation : Int))).2 := by
  obtain ⟨expiry, hexpiry⟩ := hreckon.sum now hnow
  unfold Cache.put
  simp only [Option.any_some, bne_self_eq_false, Bool.false_eq_true, if_false, h.lifetime, hexpiry,
    true_and]
  refine ⟨rfl, ?_⟩
  intro e he
  rcases List.mem_append.mp (List.mem_of_mem_drop he) with hold | hnew
  · exact h.kept e (mem_without.mp hold).1
  · rw [List.mem_singleton.mp hnew]
    exact ⟨now, hnow, hexpiry⟩

end Cache

/-! ## Decisions one after another -/

/-- A question to a validator, or a change in between. -/
inductive Act where
  | decide (tenant entityType : Value)
  | change (c : Change)

/-- The time after an act; where it cannot be advanced it stays. -/
def Act.timeAfter (now : Quantity) : Act → Quantity
  | .change (.advance elapsed) => (later now elapsed).toOption.getD now
  | _ => now

/-- What the clock shows from a time on, before each act and in the end. -/
def timesOf (now : Quantity) : List Act → List Quantity
  | [] => [now]
  | act :: rest => now :: timesOf (act.timeAfter now) rest

theorem forall_timesOf {P : Quantity → Prop} {now : Quantity} {acts : List Act} (hnow : P now)
    (hact : ∀ act ∈ acts, ∀ t, P t → P (act.timeAfter t)) : ∀ t ∈ timesOf now acts, P t := by
  induction acts generalizing now with
  | nil =>
    intro t ht
    rw [List.mem_singleton.mp ht]
    exact hnow
  | cons act rest ih =>
    intro t ht
    rcases List.mem_cons.mp ht with rfl | ht
    · exact hnow
    · exact ih (hact act List.mem_cons_self now hnow)
        (fun a ha => hact a (List.mem_cons_of_mem _ ha)) t ht

theorem whole_of_mem_timesOf {n : Int} {acts : List Act}
    (h : ∀ elapsed, .change (.advance elapsed) ∈ acts → ∃ k, elapsed = .int k) :
    ∀ t ∈ timesOf (.whole n) acts, ∃ m, t = .whole m := by
  refine forall_timesOf ⟨n, rfl⟩ ?_
  rintro act hact t ⟨m, rfl⟩
  unfold Act.timeAfter
  split
  · rename_i elapsed
    obtain ⟨k, rfl⟩ := h elapsed hact
    exact ⟨m + k, rfl⟩
  · exact ⟨m, rfl⟩

theorem isDecimal_of_add {x y z : Quantity} (hx : x.isDecimal = false) (hy : y.isDecimal = false)
    (h : x.add y = .ok z) : z.isDecimal = false := by
  unfold Quantity.add at h
  split at h
  · cases h
    rfl
  · cases hx
  · cases hx
  · cases hy
  · cases hx
  · cases hy
  · obtain ⟨a, _, h⟩ := bind_eq_ok.mp h
    obtain ⟨b, _, h⟩ := bind_eq_ok.mp h
    cases h
    rfl

theorem not_decimal_of_mem_timesOf {now : Quantity} {acts : List Act}
    (hnow : now.isDecimal = false)
    (h : ∀ d, .change (.advance (.decimal d)) ∉ acts) :
    ∀ t ∈ timesOf now acts, t.isDecimal = false := by
  refine forall_timesOf hnow ?_
  intro act hact t ht
  unfold Act.timeAfter
  split
  · rename_i elapsed
    cases hlater : later t elapsed with
    | error f => exact ht
    | ok sum =>
      unfold later at hlater
      cases elapsed with
      | decimal d => exact absurd hact (h d)
      | bool b => exact isDecimal_of_add ht rfl hlater
      | int k => exact isDecimal_of_add ht rfl hlater
      | float x => exact isDecimal_of_add ht rfl hlater
      | _ => cases hlater
  · exact ht

namespace Validator

/-- The decisions in their order, and the validator after them. -/
def decisions (v : Validator) : List Act → List (Except Fault Decision) × Validator
  | [] => ([], v)
  | .decide tenant entityType :: rest =>
    let (result, _, v) := v.validate tenant entityType
    let (others, v) := v.decisions rest
    (result :: others, v)
  | .change c :: rest => (v.apply c).decisions rest

def decisionOn (tenant entityType : String) : Except Fault (Option Record) → Decision
  | .error _ => .denied standardVersion
  | .ok record => (judge tenant entityType record).1

/-- A question without a type is refused, and one without a tenant is denied, whatever the validator is
like, and neither changes it; any other is answered from what the lookup of the tenant comes to. -/
theorem validate_forms (tenant entityType : Value) :
    ((∀ type, entityType = .str type → allBlank type.toList = true) ∧ ∀ v : Validator,
        (v.validate tenant entityType).1 =
          .error (.named (.invalidArgument "entity_type" "must be a non-empty string")) ∧
        (v.validate tenant entityType).2.2 = v) ∨
      (∀ v : Validator, (v.validate tenant entityType).1 = .ok (.denied standardVersion) ∧
        (v.validate tenant entityType).2.2 = v) ∨
      ∃ t type, tenant = .str t ∧ allBlank t.toList = false ∧ entityType = .str type ∧
        ∀ v : Validator,
          (v.validate tenant entityType).1 = .ok (decisionOn t type (v.lookup t).1) ∧
          (v.validate tenant entityType).2.2 = (v.lookup t).2 := by
  cases entityType with
  | str type =>
    cases hblank : allBlank type.toList with
    | true =>
      refine Or.inl ⟨?_, fun v => ?_⟩
      · rintro _ ⟨⟩
        exact hblank
      · simp only [validate, hblank, if_true, and_self]
    | false =>
      cases htenant : tenant.str?.filter fun t => !allBlank t.toList with
      | none =>
        refine Or.inr (Or.inl fun v => ?_)
        simp only [validate, hblank, Bool.false_eq_true, if_false, htenant, and_self]
      | some t =>
        obtain ⟨htext, hnot⟩ := Option.filter_eq_some_iff.mp htenant
        refine Or.inr (Or.inr ⟨t, type, Value.str?_eq_some.mp htext, by simpa using hnot, rfl,
          fun v => ?_⟩)
        simp only [validate, hblank, Bool.false_eq_true, if_false, htenant]
        rcases v.lookup t with ⟨found, w⟩
        cases found <;> exact ⟨rfl, rfl⟩
  | _ =>
    refine Or.inl ⟨?_, fun v => ⟨rfl, rfl⟩⟩
    rintro _ ⟨⟩

theorem apply_advance (v : Validator) (elapsed : Value) :
    v.apply (.advance elapsed) =
      { v with now := Act.timeAfter v.now (.change (.advance elapsed)) } := by
  simp only [apply, advance, Act.timeAfter]
  cases later v.now elapsed <;> rfl

theorem now_apply (v : Validator) (c : Change) :
    (v.apply c).now = Act.timeAfter v.now (.change c) := by
  cases c with
  | set tenant answer =>
    simp only [apply, setConsent, Act.timeAfter]
    split <;> rfl
  | remove tenant =>
    simp only [apply, removeConsent, Act.timeAfter]
    split <;> rfl
  | invalidate tenant => rfl
  | advance elapsed => rw [apply_advance]

/-! ## With a cache and without -/

/-- Where no time fails the cache, a lookup comes to what the source answers, and asks it once at
most. -/
theorem Coherent.lookup_of_keptAt {v : Validator} {c : RecordCache} {ttl : Quantity}
    {times : List Quantity} (h : Coherent v) (hc : v.cache = some c) (hkept : c.KeptAt ttl times)
    (hreckon : Reckonable ttl times) (hnow : v.now ∈ times) (tenant : String) :
    (v.lookup tenant).1 = (v.source.answerFor tenant).toRecord ∧
      (v.lookup tenant).2.now = v.now ∧
      (∃ d, (v.lookup tenant).2.cache = some d ∧ d.KeptAt ttl times) ∧
      (v.lookup tenant).2.lookups ≤ v.lookups + 1 := by
  have hget : Coherent { v with cache := some (c.get v.now tenant).2 } :=
    h.withCache hc fun e he => Or.inl (Cache.mem_of_mem_get he)
  have hkeptGet := hkept.get v.now tenant
  obtain ⟨found, hfound⟩ := hkept.exists_get_eq_ok hreckon hnow tenant
  unfold Validator.lookup
  rw [hc]
  dsimp only
  rw [hfound]
  cases found with
  | some record =>
    -- A hit repeats an entry, and every entry is what the source answers.
    obtain ⟨e, hmem, rfl, rfl⟩ := Cache.exists_mem_of_get hfound
    exact ⟨(h.cached c hc e hmem).symm, rfl, ⟨_, rfl, hkeptGet⟩, Nat.le_succ _⟩
  | none =>
    dsimp only
    rw [hget.consult_eq]
    cases hanswer : (v.source.answerFor tenant).toRecord with
    | error f => exact ⟨rfl, rfl, ⟨_, rfl, hkeptGet⟩, Nat.le_refl _⟩
    | ok record =>
      obtain ⟨hput, hkeptPut⟩ := hkeptGet.put hreckon hnow tenant record
      dsimp only [Validator.keep]
      rw [hput]
      exact ⟨rfl, rfl, ⟨_, rfl, hkeptPut⟩, Nat.le_refl _⟩

/-- A validator with a cache, and one without that otherwise agrees with it, but may have asked the
source more often. -/
structure Shadows (ttl : Quantity) (times : List Quantity) (v plain : Validator) : Prop where
  coherent : v.Coherent
  cached : ∃ c, v.cache = some c ∧ c.KeptAt ttl times
  source : plain.source = v.source
  uncached : plain.cache = none
  lookups : v.lookups ≤ plain.lookups

namespace Shadows

variable {ttl : Quantity} {times : List Quantity} {v plain : Validator}

theorem invalidate {s : Source} {tenant : String} (h : Shadows ttl times v plain)
    (hcoherent : Coherent ({ v with source := s }.invalidate tenant)) :
    Shadows ttl times ({ v with source := s }.invalidate tenant)
      ({ plain with source := s }.invalidate tenant) := by
  obtain ⟨c, hc, hkept⟩ := h.cached
  refine ⟨hcoherent, ⟨_, ?_, hkept.invalidate tenant⟩, rfl, ?_, h.lookups⟩
  · simp only [Validator.invalidate, hc, Option.map_some]
  · simp only [Validator.invalidate, h.uncached, Option.map_none]

theorem apply (h : Shadows ttl times v plain) (change : Change) :
    Shadows ttl times (v.apply change) (plain.apply change) := by
  have hcoherent := h.coherent.apply change
  cases change with
  | set tenant answer =>
    have ht : (v.source.set tenant answer).tells = true := by
      rw [Source.tells_set, h.coherent.tells]
    simp only [Validator.apply, setConsent, h.source, ht, if_true] at hcoherent ⊢
    exact h.invalidate hcoherent
  | remove tenant =>
    have ht : (v.source.remove tenant).tells = true := by
      rw [Source.tells_remove, h.coherent.tells]
    simp only [Validator.apply, removeConsent, h.source, ht, if_true] at hcoherent ⊢
    exact h.invalidate hcoherent
  | invalidate tenant =>
    have hplain : { plain with source := v.source } = plain := by rw [← h.source]
    have hsame := h.invalidate (s := v.source) hcoherent
    rw [hplain] at hsame
    exact hsame
  | advance elapsed =>
    rw [apply_advance] at hcoherent ⊢
    rw [apply_advance]
    exact ⟨hcoherent, h.cached, h.source, h.uncached, h.lookups⟩

theorem lookup_plain (h : Shadows ttl times v plain) (tenant : String) :
    plain.lookup tenant = ((v.source.answerFor tenant).toRecord,
      { plain with lookups := plain.lookups + 1 }) := by
  have hasks : plain.lookup tenant = plain.consult tenant := by
    unfold Validator.lookup
    rw [h.uncached]
  have htells : plain.source.tells = true := h.source ▸ h.coherent.tells
  rw [hasks, consult_of_tells htells, h.source]

theorem lookup (h : Shadows ttl times v plain) (hreckon : Reckonable ttl times)
    (hnow : v.now ∈ times) (tenant : String) :
    (v.lookup tenant).1 = (plain.lookup tenant).1 ∧ (v.lookup tenant).2.now = v.now ∧
      Shadows ttl times (v.lookup tenant).2 (plain.lookup tenant).2 := by
  obtain ⟨c, hc, hkept⟩ := h.cached
  obtain ⟨hcoherent, hsource, _⟩ := h.coherent.lookup tenant
  obtain ⟨hresult, hnow', hcached, hlookups⟩ :=
    h.coherent.lookup_of_keptAt hc hkept hreckon hnow tenant
  rw [h.lookup_plain]
  refine ⟨hresult, hnow', hcoherent, hcached, h.source.trans hsource.symm, h.uncached, ?_⟩
  have hless := h.lookups
  show _ ≤ plain.lookups + 1
  omega

theorem validate (h : Shadows ttl times v plain) (hreckon : Reckonable ttl times)
    (hnow : v.now ∈ times) (tenant entityType : Value) :
    (v.validate tenant entityType).1 = (plain.validate tenant entityType).1 ∧
      (v.validate tenant entityType).2.2.now = v.now ∧
      Shadows ttl times (v.validate tenant entityType).2.2
        (plain.validate tenant entityType).2.2 := by
  rcases validate_forms tenant entityType with ⟨_, hall⟩ | hall | ⟨t, type, _, _, _, hall⟩
  · rw [(hall v).1, (hall plain).1, (hall v).2, (hall plain).2]
    exact ⟨rfl, rfl, h⟩
  · rw [(hall v).1, (hall plain).1, (hall v).2, (hall plain).2]
    exact ⟨rfl, rfl, h⟩
  · obtain ⟨hresult, hnow', hshadows⟩ := h.lookup hreckon hnow t
    rw [(hall v).1, (hall plain).1, (hall v).2, (hall plain).2, hresult]
    exact ⟨rfl, hnow', hshadows⟩

/-- Both come to the same decisions on the same acts. -/
theorem decisions (hreckon : Reckonable ttl times) (acts : List Act)
    (h : Shadows ttl times v plain) (htimes : ∀ t ∈ timesOf v.now acts, t ∈ times) :
    (v.decisions acts).1 = (plain.decisions acts).1 ∧
      Shadows ttl times (v.decisions acts).2 (plain.decisions acts).2 := by
  -- Both validators move on with each act, and the times left are those after it.
  induction acts generalizing v plain with
  | nil => exact ⟨rfl, h⟩
  | cons act rest ih =>
    have hnow : v.now ∈ times := htimes _ List.mem_cons_self
    have hrest : ∀ t ∈ timesOf (act.timeAfter v.now) rest, t ∈ times :=
      fun t ht => htimes t (List.mem_cons_of_mem _ ht)
    cases act with
    | decide tenant entityType =>
      obtain ⟨hresult, hnow', hnext⟩ := h.validate hreckon hnow tenant entityType
      obtain ⟨hothers, hlast⟩ := ih hnext (by rw [hnow']; exact hrest)
      refine ⟨?_, hlast⟩
      simp only [Validator.decisions]
      rw [hresult, hothers]
    | change c => exact ih (h.apply c) (by rw [now_apply]; exact hrest)

end Shadows

/-! ## From a new cache on -/

theorem Shadows.of_make {answers : List (String × Answer)} {ttl : Value} {capacity : Int}
    {c : RecordCache} (hmake : Cache.make ttl capacity = .ok c) (now : Quantity)
    (times : List Quantity) :
    Shadows c.ttl times { source := .static answers true, cache := some c, now := now }
      { source := .static answers true, cache := none, now := now } := by
  have hempty := Cache.make_entries hmake
  refine ⟨⟨rfl, ?_⟩, ⟨c, rfl, rfl, ?_⟩, rfl, rfl, Nat.le_refl _⟩
  · intro d hd e he
    cases hd
    rw [hempty] at he
    cases he
  · intro e he
    rw [hempty] at he
    cases he

/-- With a new cache of any lifetime and size, a validator over a source that tells its changes comes to
the same decisions as without the cache, whatever happens in between, and asks the source no more
often; provided that the cache can reckon with what the clock shows. -/
theorem decisions_eq_uncached {answers : List (String × Answer)} {ttl : Value} {capacity : Int}
    {c : RecordCache} {now : Quantity} {acts : List Act} (hmake : Cache.make ttl capacity = .ok c)
    (hreckon : Reckonable c.ttl (timesOf now acts)) :
    (decisions { source := .static answers true, cache := some c, now := now } acts).1 =
        (decisions { source := .static answers true, cache := none, now := now } acts).1 ∧
      (decisions { source := .static answers true, cache := some c, now := now } acts).2.lookups ≤
        (decisions { source := .static answers true, cache := none, now := now } acts).2.lookups := by
  obtain ⟨hsame, hend⟩ :=
    (Shadows.of_make hmake now (timesOf now acts)).decisions hreckon acts fun _ ht => ht
  exact ⟨hsame, hend.lookups⟩

/-- So it is with every whole lifetime while the clock is whole, and with one that is not beyond all
floating-point numbers while the clock shows no decimals. -/
theorem decisions_eq_of_clock {answers : List (String × Answer)} {ttl capacity n : Int}
    {acts : List Act} (httl : 0 < ttl) (hcapacity : 0 < capacity)
    (hclock : (∀ elapsed, .change (.advance elapsed) ∈ acts → ∃ k, elapsed = .int k) ∨
      (∃ x, Quantity.toFloat? (.whole ttl) = .ok x) ∧
        ∀ d, .change (.advance (.decimal d)) ∉ acts) :
    ∃ c, Cache.make (.int ttl) capacity = .ok c ∧
      (decisions { source := .static answers true, cache := some c, now := .whole n } acts).1 =
        (decisions { source := .static answers true, cache := none, now := .whole n } acts).1 := by
  have hmake := Cache.make_whole (α := Option Record) httl hcapacity
  refine ⟨_, hmake, ?_⟩
  have hreckon : Reckonable (.whole ttl) (timesOf (.whole n) acts) := by
    rcases hclock with hwhole | ⟨⟨x, hx⟩, hdecimal⟩
    · exact reckonable_of_whole (whole_of_mem_timesOf hwhole)
    · exact reckonable_of_not_decimal hx (not_decimal_of_mem_timesOf rfl hdecimal)
  exact ((Shadows.of_make hmake _ _).decisions hreckon acts fun _ ht => ht).1

/-! ### Samples -/

/-- A tenant that shares its notes. -/
def sampleAnswers : List (String × Answer) :=
  [("acme", .record ⟨true, .moderate, "2.1", ["Note"], none⟩)]

/-- The tenant is found, found again, pushed out of the cache by another, looked up once more and gone
in the end. -/
def sampleActs : List Act :=
  [.decide (.str "acme") (.str "Note"), .change (.advance (.int 100)),
    .decide (.str "acme") (.str "Note"), .decide (.str "other") (.str "Note"),
    .decide (.str "acme") (.str "Note"), .change (.remove "acme"),
    .decide (.str "acme") (.str "Note")]

theorem decisions_eq_uncached_sample :
    ∃ c, Cache.make (.int 300) 1 = .ok c ∧
      Reckonable c.ttl (timesOf (.whole 1000) sampleActs) ∧
      (decisions { source := .static sampleAnswers true, cache := some c, now := .whole 1000 }
          sampleActs).1 =
        (decisions { source := .static sampleAnswers true, cache := none, now := .whole 1000 }
          sampleActs).1 ∧
      (decisions { source := .static sampleAnswers true, cache := some c, now := .whole 1000 }
          sampleActs).2.lookups ≤
        (decisions { source := .static sampleAnswers true, cache := none, now := .whole 1000 }
          sampleActs).2.lookups := by
  have hmake := Cache.make_whole (α := Option Record) (show (0 : Int) < 300 by decide)
    (show (0 : Int) < 1 by decide)
  have hreckon : Reckonable (.whole 300) (timesOf (.whole 1000) sampleActs) := by
    refine reckonable_of_whole (whole_of_mem_timesOf ?_)
    intro elapsed hmem
    refine ⟨100, ?_⟩
    simpa [sampleActs] using hmem
  exact ⟨_, hmake, hreckon, decisions_eq_uncached hmake hreckon⟩

/-- A lifetime beyond all floating-point numbers. -/
def farLifetime : Int := Int.ofNat (Nat.pow 2 1024)

/-- Half a second passes before the tenant is looked up. -/
def halfActs : List Act :=
  [.change (.advance (.float (.round false 1 2))), .decide (.str "acme") (.str "Note")]

/-- Once the clock shows a floating-point number, nothing can be kept for that long: the validator with
the cache denies what the other permits. -/
theorem decisions_ne_of_farLifetime :
    ∃ c, Cache.make (.int farLifetime) 10 = .ok c ∧
      (decisions { source := .static sampleAnswers true, cache := some c } halfActs).1 ≠
        (decisions { source := .static sampleAnswers true, cache := none } halfActs).1 := by
  refine ⟨_, Cache.make_whole (by decide +kernel) (by decide), ?_⟩
  intro hsame
  have hpermits := congrArg (List.map fun r => r.toOption.any Decision.permits) hsame
  exact absurd hpermits (by decide +kernel)

end Validator

end ConsentGate.Consent
