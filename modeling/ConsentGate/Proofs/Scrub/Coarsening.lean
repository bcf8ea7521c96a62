import ConsentGate.Proofs.Calendar.MonthText
import ConsentGate.Proofs.Calendar.Ordinals
import ConsentGate.Proofs.Scrub.Origins

/-! What the strict level leaves of dates.

No value under a date-like key tells a day: timestamps and dates are at the start of a month, numbers of
seconds too, and what is left of a text is no date any more. The month itself is kept, in each of the
representations (`showsMonth_of_generalizeDate`). -/
namespace ConsentGate
open Calendar Number Text
set_option autoImplicit false

/-! ## Months -/

namespace Value

variable {v w : Value} {path : String} {epoch : Bool}

theorem elim_eq_ok {α ε : Type} {o : Option α} {f : ε} {a : α}
    (h : o.elim (.error f) (.ok : α → Except ε α) = .ok a) : o = some a := by
  cases o with
  | none => cases h
  | some b =>
    cases h
    rfl

/-- The path is for messages only. -/
theorem toTimestamp_path {t : Timestamp} (h : v.toTimestamp path = .ok t) (path' : String) :
    v.toTimestamp path' = .ok t := by
  cases v with
  | datetime u => exact h
  | date d => exact h
  | str s =>
    rw [toTimestamp, mapError_eq_ok.mp h]
    rfl
  | int n =>
    rw [toTimestamp, elim_eq_ok h]
    rfl
  | float x =>
    rw [toTimestamp, elim_eq_ok h]
    rfl
  | _ => cases h

/-- `w` tells the month of a timestamp and no more: it stands for the first instant of the month, or is
the text of year and month. -/
def ShowsMonth (t : Timestamp) (w : Value) : Prop :=
  (∀ path, w.toTimestamp path = .ok t.monthStart) ∨ w = .str (String.ofList t.date.monthText)

/-- What may stand under a date-like key: the start of a month, or what is no date. Numbers are dates
where they count seconds. -/
def Coarse (epoch : Bool) : Value → Prop
  | .datetime t => t.date.day = 1 ∧ t.time = midnight
  | .date d => d.day = 1
  | .str s => (Value.str s).isDate epoch = false
  | .int n => epoch = true → ∃ t : Timestamp, t.date.day = 1 ∧ t.time = midnight ∧
      t.offset = some utc ∧ t.instant = Timestamp.epochMicros + n * 1000000
  | .float _ => epoch = false
  | _ => True

theorem coarse_of_not_isDate (h : v.isDate epoch = false) : v.Coarse epoch := by
  cases v with
  | datetime t => cases h
  | date d => cases h
  | str s => exact h
  | int n =>
    intro hepoch
    rw [hepoch] at h
    cases h
  | float x => exact h
  | _ => trivial

theorem offset_of_ofEpochMicros? {n : Int} {t : Timestamp} (h : Timestamp.ofEpochMicros? n = some t) :
    t.offset = some utc := by
  obtain ⟨d, _, rfl⟩ := Option.map_eq_some_iff.mp h
  rfl

/-- A number counts seconds in UTC. -/
theorem offset_of_number {t : Timestamp} (hnumber : (∃ n, v = .int n) ∨ ∃ x, v = .float x)
    (h : v.toTimestamp path = .ok t) : t.offset = some utc := by
  rcases hnumber with ⟨n, rfl⟩ | ⟨x, rfl⟩
  · have hread : Timestamp.ofEpochSeconds? n = some t := elim_eq_ok h
    exact offset_of_ofEpochMicros? hread
  · have hread : ofFloatSeconds? x = some t := elim_eq_ok h
    obtain ⟨whole, _, hread⟩ := Option.bind_eq_some_iff.mp hread
    obtain ⟨fraction, _, hread⟩ := Option.bind_eq_some_iff.mp hread
    obtain ⟨micros, _, hread⟩ := Option.bind_eq_some_iff.mp hread
    exact offset_of_ofEpochMicros? hread

/-- The seconds of a month's start are whole. -/
theorem instant_monthStart {t : Timestamp} (h : t.offset = some utc) :
    t.monthStart.instant = t.monthStart.wallMicros ∧
      t.monthStart.instant = Timestamp.epochMicros + t.monthStart.epochSeconds * 1000000 := by
  have hwall : t.monthStart.wallMicros = ((t.date.monthStart.ordinal : Int) - 1) * 86400000000 := by
    have hmidnight : midnight.micros = 0 := rfl
    show ((t.date.monthStart.ordinal : Int) - 1) * (dayMicros : Int) + (midnight.micros : Int) = _
    rw [hmidnight, dayMicros]
    omega
  have hinstant : t.monthStart.instant = t.monthStart.wallMicros := by
    rw [Timestamp.instant, Timestamp.monthStart, h]
    show _ - (0 : Int) = _
    omega
  refine ⟨hinstant, ?_⟩
  rw [Timestamp.epochSeconds, hinstant, hwall, Timestamp.epochMicros]
  omega

/-- The seconds of a month's start are read as that month's start. -/
theorem toTimestamp_epochSeconds {t : Timestamp} (h : t.offset = some utc) (path : String) :
    (Value.int t.monthStart.epochSeconds).toTimestamp path = .ok t.monthStart := by
  obtain ⟨hwall, hinstant⟩ := instant_monthStart h
  have hoffset : t.monthStart.offset = some utc := h
  have hmicros : t.monthStart.epochSeconds * 1000000 + Timestamp.epochMicros =
      t.monthStart.wallMicros := by omega
  have hread : Timestamp.ofEpochSeconds? t.monthStart.epochSeconds = some t.monthStart := by
    rw [Timestamp.ofEpochSeconds?, Timestamp.ofEpochMicros?, hmicros, ← hoffset]
    exact Timestamp.ofWallMicros?_wallMicros _
  rw [toTimestamp, hread]
  rfl

/-- What becomes of a value in each form that a date may have. -/
theorem generalizeDate_eq_ok (h : v.generalizeDate path = .ok w) :
    (v = .null ∧ w = .null) ∨ ∃ t, v.toTimestamp path = .ok t ∧
      (w = .datetime t.monthStart ∨ (t.time = midnight ∧ t.offset = none ∧ w = .date t.date.monthStart) ∨
        w = .str (String.ofList t.date.monthText) ∨
        (t.offset = some utc ∧ w = .int t.monthStart.epochSeconds)) := by
  cases v with
  | null =>
    cases h
    exact Or.inl ⟨rfl, rfl⟩
  | datetime t =>
    cases h
    exact Or.inr ⟨t, rfl, Or.inl rfl⟩
  | date d =>
    cases h
    exact Or.inr ⟨Timestamp.ofDate d, rfl, Or.inr (Or.inl ⟨rfl, rfl, rfl⟩)⟩
  | str s =>
    obtain ⟨t, ht, h⟩ := bind_eq_ok.mp h
    cases h
    exact Or.inr ⟨t, ht, Or.inr (Or.inr (Or.inl rfl))⟩
  | int n =>
    obtain ⟨t, ht, h⟩ := bind_eq_ok.mp h
    cases h
    have hoffset := offset_of_number (Or.inl ⟨n, rfl⟩) ht
    exact Or.inr ⟨t, ht, Or.inr (Or.inr (Or.inr ⟨hoffset, rfl⟩))⟩
  | float x =>
    obtain ⟨t, ht, h⟩ := bind_eq_ok.mp h
    cases h
    have hoffset := offset_of_number (Or.inr ⟨x, rfl⟩) ht
    exact Or.inr ⟨t, ht, Or.inr (Or.inr (Or.inr ⟨hoffset, rfl⟩))⟩
  | _ => cases h

theorem coarse_of_generalizeDate (h : v.generalizeDate path = .ok w) : w.Coarse epoch := by
  obtain ⟨_, rfl⟩ | ⟨t, _, rfl | ⟨_, _, rfl⟩ | rfl | ⟨hoffset, rfl⟩⟩ := generalizeDate_eq_ok h
  · trivial
  · exact ⟨rfl, rfl⟩
  · exact rfl
  · have hunread := readTimestamp_monthText t.date
    simp only [Coarse, isDate, toTimestamp, String.toList_ofList, hunread]
    rfl
  · intro _
    exact ⟨t.monthStart, rfl, rfl, hoffset, (instant_monthStart hoffset).2⟩

theorem showsMonth_of_generalizeDate (h : v.generalizeDate path = .ok w) :
    (v = .null ∧ w = .null) ∨ ∃ t, (∀ path, v.toTimestamp path = .ok t) ∧ w.ShowsMonth t := by
  rcases generalizeDate_eq_ok h with hnull | ⟨t, ht, hw⟩
  · exact Or.inl hnull
  refine Or.inr ⟨t, toTimestamp_path ht, ?_⟩
  rcases hw with rfl | ⟨htime, hoffset, rfl⟩ | rfl | ⟨hoffset, rfl⟩
  · exact Or.inl fun _ => rfl
  · refine Or.inl fun path => ?_
    rw [toTimestamp, Timestamp.ofDate, Timestamp.monthStart, hoffset]
  · exact Or.inr rfl
  · exact Or.inl (toTimestamp_epochSeconds hoffset)

/-- `w` is the month's start of a timestamp, or nothing where there is none. -/
def MonthOf (v w : Value) : Prop :=
  (v = .null ∧ w = .null) ∨ ∃ t, v = .datetime t ∧ w = .datetime t.monthStart

end Value

/-! ## The scrubbed entity -/

namespace Scrub

variable {s : Scrubber} {e : Entity} {entityType v w : Value} {out : Scrubbed}

theorem monthOf_of_baseTime (h : baseTime .strict v = .ok w) : v.MonthOf w := by
  cases v with
  | datetime t =>
    cases h
    exact Or.inr ⟨t, rfl, rfl⟩
  | null =>
    cases h
    exact Or.inl ⟨rfl, rfl⟩
  | _ => cases h

theorem Fate.coarse {c : Context} {name : List Char} (h : Fate c name v w) (hstrict : c.level = .strict)
    (hdateKey : c.rules.isDateKey name = true) : w.Coarse (c.rules.isEpochKey name) := by
  cases h with
  | kept _ notDate =>
    refine Value.coarse_of_not_isDate (Bool.eq_false_iff.mpr fun hdate => ?_)
    exact notDate ⟨hstrict, hdateKey, hdate⟩
  | generalized _ _ coarser => exact Value.coarse_of_generalizeDate coarser
  | token moderate _ =>
    rw [hstrict] at moderate
    cases moderate

theorem coarse_of_not_isLeaf {epoch : Bool} (h : ¬IsLeaf w) : w.Coarse epoch := by
  rcases map_or_list_or_isLeaf w with ⟨fields, rfl⟩ | ⟨items, rfl⟩ | hleaf
  · trivial
  · trivial
  · exact absurd hleaf h

/-- At the strict level every value under a date-like key is coarse, at every depth. What is left is a
pruning of the entity's own, and whatever generalisation makes of a value in it shows the month of that
value and no more. The times of the entity are the starts of their months. -/
theorem coarse_of_scrub (h : (s.scrub (some e) entityType (.level .strict)).1 = .ok out) :
    (∀ part own, PartOf out e part own →
      (∀ keys key w name, part.At keys key w → key.plain = .ok name →
        s.rules.isDateKey name = true → w.Coarse (s.rules.isEpochKey name)) ∧
      ∃ fields kept, own = .map fields ∧ part = .map kept ∧
        PrunedFields (s.policy e .strict) fields kept) ∧
      (∀ (v w : Value) (path : String), v.generalizeDate path = .ok w →
        (v = .null ∧ w = .null) ∨ ∃ t, (∀ path, v.toTimestamp path = .ok t) ∧ w.ShowsMonth t) ∧
      e.createdAt.MonthOf out.createdAt ∧ e.updatedAt.MonthOf out.updatedAt ∧
      e.deletedAt.MonthOf out.deletedAt := by
  obtain ⟨whole⟩ := exists_whole h
  refine ⟨?_, fun v w path => Value.showsMonth_of_generalizeDate,
    monthOf_of_baseTime whole.outCreatedAt, monthOf_of_baseTime whole.outUpdatedAt,
    monthOf_of_baseTime whole.outDeletedAt⟩
  intro part own hpart
  constructor
  · intro keys key w name hw hname hdateKey
    obtain ⟨v, hv, hmade⟩ := origin_of_scrub h hpart hw
    by_cases hleaf : IsLeaf w
    · obtain ⟨name', hname', hfate⟩ := hmade.fate hleaf
      rw [hname] at hname'
      cases hname'
      exact hfate.coarse rfl hdateKey
    · exact coarse_of_not_isLeaf hleaf
  · rcases hpart with ⟨rfl, rfl⟩ | ⟨rfl, rfl⟩
    · exact ⟨_, _, whole.propertiesAre, whole.outProperties, whole.properties_pruned⟩
    · refine ⟨_, _, rfl, rfl, ?_⟩
      rw [whole.ownFields_metadata]
      exact whole.metadata_pruned

/-! ### A sample -/

/-- An entity that has dates as texts, as numbers and in a list. -/
def datedEntity : Entity :=
  { sampleEntity with
    properties := .map [(.str "openDate", .str "2024-W11-4"),
      (.str "closeTimestamp", .list [.int 1710676800, .str "20240317", .bool true]),
      (.str "due", .map [(.str "dueDate", .date ⟨2024, 3, 17, by decide⟩)])] }

def datedResult : Except Fault Scrubbed :=
  (sampleScrubber.scrub (some datedEntity) (.str "Note") (.level .strict)).1

theorem coarse_of_scrub_sample :
    ∃ out, datedResult = .ok out ∧ (∃ w, out.properties.At [] (.str "openDate") w ∧ w.isStr = true) ∧
      (∀ part own, PartOf out datedEntity part own →
        (∀ keys key w name, part.At keys key w → key.plain = .ok name →
          sampleScrubber.rules.isDateKey name = true →
          w.Coarse (sampleScrubber.rules.isEpochKey name)) ∧
        ∃ fields kept, own = .map fields ∧ part = .map kept ∧
          PrunedFields (sampleScrubber.policy datedEntity .strict) fields kept) ∧
      (∀ (v w : Value) (path : String), v.generalizeDate path = .ok w →
        (v = .null ∧ w = .null) ∨ ∃ t, (∀ path, v.toTimestamp path = .ok t) ∧ w.ShowsMonth t) ∧
      datedEntity.createdAt.MonthOf out.createdAt ∧ datedEntity.updatedAt.MonthOf out.updatedAt ∧
      datedEntity.deletedAt.MonthOf out.deletedAt := by
  have hkept : (datedResult.toOption.any fun out =>
      (out.properties.field? "openDate").any Value.isStr) = true := by decide +kernel
  obtain ⟨out, hout, hfield⟩ := exists_ok_of_any hkept
  exact ⟨out, hout, Value.exists_at_of_field? hfield, coarse_of_scrub hout⟩

end Scrub

end ConsentGate
