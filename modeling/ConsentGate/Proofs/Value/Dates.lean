import ConsentGate.Calendar.Zone
import ConsentGate.Proofs.Calendar.IsoRoundTrip
import ConsentGate.Proofs.Entity.Access
import ConsentGate.Proofs.Scrub.Coarsening
import ConsentGate.Proofs.Text.Letters
import ConsentGate.Proofs.Value.RoundTrip

/-! Values read as dates.

Dates and timestamps are stored as texts, and these are read as the dates and timestamps that they were
made of (`toTimestamp_stored`). A text is a date exactly if it can be made coarser; what comes out is the
text of year and month, which is no date any more. Dates and timestamps keep their kind and lose all but
year, month and offset (`isDate_iff_generalizes`). -/
namespace ConsentGate.Value
open Calendar Number Text
set_option autoImplicit false

variable {v w : Value} {key : String} {f : Failure} {t : Timestamp} {s : String}

/-! ## Stored dates -/

/-- In stored JSON the value is a text, and reading the JSON gives this text. -/
def StoredAs (v : Value) (s : List Char) : Prop :=
  ∃ text, v.json = .ok text ∧ ofJson? text = some (.str (String.ofList s))

theorem storedAs_of_json {s : List Char} (h : v.json = .ok (jsonText s)) : v.StoredAs s :=
  ⟨jsonText s, h, (readsAs_text s).ofJson?⟩

/-- Blanks around a text that has none are of no account when it is read. -/
theorem toTimestamp_of_readTimestamp {front back s : List Char} (hfront : ∀ c ∈ front, isBlank c = true)
    (hback : ∀ c ∈ back, isBlank c = true) (hplain : ∀ c ∈ s, isBlank c = false ∧ c ≠ 'Z')
    (h : readTimestamp s = .ok t) (key : String) :
    (Value.str (String.ofList (front ++ s ++ back))).toTimestamp key = .ok t := by
  have hZ : 'Z' ∉ s := fun hmem => (hplain 'Z' hmem).2 rfl
  rw [toTimestamp, String.toList_ofList, trim_blanks_append hfront hback,
    trim_of_not_blank fun c hc => (hplain c hc).1, spellOutZ_of_not_mem hZ, h]
  rfl

/-- A timestamp whose offset has no fraction of a second, or that has none, is stored as a text that is
read as the same timestamp, blanks around it or not; a date is stored as one that is read as its
midnight, without offset. -/
theorem toTimestamp_stored (key : String) {front back : List Char}
    (hfront : ∀ c ∈ front, isBlank c = true) (hback : ∀ c ∈ back, isBlank c = true) :
    (∀ t : Timestamp, (∀ o, t.offset = some o → o.micros % 1000000 = 0) →
        (Value.datetime t).StoredAs t.isoText ∧
          (Value.str (String.ofList (front ++ t.isoText ++ back))).toTimestamp key = .ok t) ∧
      ∀ d : Date, (Value.date d).StoredAs d.isoText ∧
        (Value.str (String.ofList (front ++ d.isoText ++ back))).toTimestamp key =
          .ok ⟨d, midnight, none⟩ := by
  constructor
  · intro t hwhole
    have hread : ∀ o, t.offset = some o → o.IsRead := by
      intro o ho
      have hseconds := hwhole o ho
      unfold Offset.IsRead
      omega
    exact ⟨storedAs_of_json rfl,
      toTimestamp_of_readTimestamp hfront hback t.plain_isoText (readTimestamp_isoText hread) key⟩
  · intro d
    exact ⟨storedAs_of_json rfl,
      toTimestamp_of_readTimestamp hfront hback d.plain_isoText (readTimestamp_isoText_date d) key⟩

/-- Half a second before midnight, far in the west, between blanks. -/
def westernTimestamp : Timestamp :=
  ⟨⟨2024, 2, 29, by decide⟩, ⟨23, 59, 59, 500000, by decide⟩, some ⟨-86399000000, by decide⟩⟩

theorem toTimestamp_stored_sample :
    (Value.str " 2024-02-29T23:59:59.500000-23:59:59\n").toTimestamp "at" = .ok westernTimestamp ∧
      (Value.str " 2024-02-29\n").toTimestamp "at" =
        .ok ⟨westernTimestamp.date, midnight, none⟩ := by
  have htime : String.ofList ([' '] ++ westernTimestamp.isoText ++ ['\n']) =
      " 2024-02-29T23:59:59.500000-23:59:59\n" := by decide +kernel
  have hdate : String.ofList ([' '] ++ westernTimestamp.date.isoText ++ ['\n']) =
      " 2024-02-29\n" := by decide +kernel
  have hfront : ∀ c ∈ [' '], isBlank c = true := List.all_eq_true.mp (by decide)
  have hback : ∀ c ∈ ['\n'], isBlank c = true := List.all_eq_true.mp (by decide)
  have hwhole : ∀ o, westernTimestamp.offset = some o → o.micros % 1000000 = 0 := by
    rintro o ⟨⟩
    decide
  obtain ⟨htimes, hdates⟩ := toTimestamp_stored "at" hfront hback
  rw [← htime, ← hdate]
  exact ⟨(htimes westernTimestamp hwhole).2, (hdates westernTimestamp.date).2⟩

/-! ## Failures -/

/-- Whatever cannot be made coarser is refused in one way. -/
theorem generalizeDate_error (h : v.generalizeDate key = .error f) :
    ∃ expected, f = .propertyDecode key expected v.typeName := by
  have hread : ∀ g : Timestamp → Value, (do let t ← v.toTimestamp key; return g t) = .error f →
      ∃ expected, f = .propertyDecode key expected v.typeName := by
    intro g hg
    obtain hg | ⟨_, _, hg⟩ := bind_eq_error.mp hg
    · exact ⟨_, toTimestamp_error hg⟩
    · cases hg
  cases v with
  | null => cases h
  | datetime t => cases h
  | date d => cases h
  | str s => exact hread _ h
  | int n => exact hread _ h
  | float x => exact hread _ h
  | _ => exact ⟨_, (Except.error.inj h).symm⟩

/-! ## Texts -/

/-- Four digits, a dash and two digits, which write a year and a month. -/
def IsMonthText (year month : Nat) (s : List Char) : Prop :=
  ∃ y m, s = y ++ '-' :: m ∧ y.length = 4 ∧ m.length = 2 ∧ (∀ c ∈ y ++ m, c.isDigit = true) ∧
    digitsNumber y = year ∧ digitsNumber m = month

theorem isMonthText_monthText (d : Date) : IsMonthText d.year d.month d.monthText := by
  obtain ⟨hyear, hmonth, -⟩ := d.parts_lt
  refine ⟨padDigits 4 d.year, padDigits 2 d.month, rfl, length_padDigits (by omega) hyear,
    length_padDigits (by omega) hmonth, ?_, digitsNumber_padDigits _ _, digitsNumber_padDigits _ _⟩
  rw [List.forall_mem_append]
  exact ⟨fun c => isDigit_padDigits, fun c => isDigit_padDigits⟩

theorem generalizeDate_str (h : (Value.str s).toTimestamp key = .ok t) :
    (Value.str s).generalizeDate key = .ok (.str (String.ofList t.date.monthText)) := by
  rw [generalizeDate, h]
  rfl

/-- A text is a date exactly if it can be read, under whatever key. -/
theorem isDate_str_iff {epoch : Bool} :
    (Value.str s).isDate epoch = true ↔ ∃ t, (Value.str s).toTimestamp key = .ok t := by
  have hpath : ∀ t key key', (Value.str s).toTimestamp key = .ok t →
      (Value.str s).toTimestamp key' = .ok t := fun t key key' h => toTimestamp_path h key'
  show ((Value.str s).toTimestamp "").toBool = true ↔ _
  cases h : (Value.str s).toTimestamp "" with
  | error f =>
    refine iff_of_false nofun ?_
    rintro ⟨t, ht⟩
    rw [hpath t key "" ht] at h
    cases h
  | ok t => exact iff_of_true rfl ⟨t, hpath t "" key h⟩

theorem isDate_str_eq_false_iff {epoch : Bool} : (Value.str s).isDate epoch = false ↔
    (Value.str s).generalizeDate key = .error (.propertyDecode key "datetime" "str") := by
  have hdate : (Value.str s).isDate epoch = true ↔ ∃ t, (Value.str s).toTimestamp key = .ok t :=
    isDate_str_iff
  rw [← Bool.not_eq_true, hdate]
  cases h : (Value.str s).toTimestamp key with
  | ok t =>
    rw [generalizeDate_str h]
    exact iff_of_false (fun hnone => hnone ⟨t, rfl⟩) nofun
  | error f =>
    obtain rfl := toTimestamp_error h
    refine iff_of_true (by rintro ⟨t, ⟨⟩⟩) ?_
    rw [generalizeDate, h]
    rfl

/-! ## Months -/

theorem monthStart_date_eq_iff {d d' : Date} :
    d.monthStart = d'.monthStart ↔ d.year = d'.year ∧ d.month = d'.month := by
  simp [Date.monthStart]

theorem monthStart_eq_iff {t t' : Timestamp} : t.monthStart = t'.monthStart ↔
    (t.date.year = t'.date.year ∧ t.date.month = t'.date.month) ∧ t.offset = t'.offset := by
  simp [Timestamp.monthStart, monthStart_date_eq_iff]

/-- The test for dates and the loss of the day agree. A text, date or timestamp that is a date becomes
coarser, and a text that is none is refused. A text that comes out writes year and month of what was read,
and is no date. Timestamps and dates keep kind and offset, do not change a second time, and become the
same exactly if year, month and offset are the same. Nothing but the failure of a value of the wrong type
comes from either.

A timestamp in a time zone keeps the zone, and with it the offset if the zone does not change in that
month. It does not change a second time, and becomes the same as another exactly if year, month and zone
are the same, and both come for the same time where the clock is set back. A timestamp that knows its
offset only is one in a zone that never changes. -/
theorem isDate_iff_generalizes (key : String) :
    (∀ (v : Value) (epoch : Bool), (v.isStr = true ∨ (∃ d, v = .date d) ∨ ∃ t, v = .datetime t) →
        v.isDate epoch = true → ∃ w, v.generalizeDate key = .ok w) ∧
      (∀ (s : String) (epoch : Bool), (Value.str s).isDate epoch = false ↔
        (Value.str s).generalizeDate key = .error (.propertyDecode key "datetime" "str")) ∧
      (∀ (v : Value) (s : String), v.generalizeDate key = .ok (.str s) → ∃ t, v.toTimestamp key = .ok t ∧
        IsMonthText t.date.year t.date.month s.toList ∧ ∀ epoch, (Value.str s).isDate epoch = false) ∧
      (∀ t : Timestamp, ∃ u, (Value.datetime t).generalizeDate key = .ok (.datetime u) ∧
        u.offset = t.offset ∧ (Value.datetime u).generalizeDate key = .ok (.datetime u) ∧
        t.inZone.monthStart = u.inZone) ∧
      (∀ t t' : Timestamp,
        (Value.datetime t).generalizeDate key = (Value.datetime t').generalizeDate key ↔
          (t.date.year = t'.date.year ∧ t.date.month = t'.date.month) ∧ t.offset = t'.offset) ∧
      (∀ d : Date, ∃ e, (Value.date d).generalizeDate key = .ok (.date e) ∧
        (Value.date e).generalizeDate key = .ok (.date e)) ∧
      (∀ d d' : Date, (Value.date d).generalizeDate key = (Value.date d').generalizeDate key ↔
        d.year = d'.year ∧ d.month = d'.month) ∧
      (∀ (v : Value) (f : Failure), v.generalizeDate key = .error f ∨ v.toTimestamp key = .error f →
        ∃ expected, f = .propertyDecode key expected v.typeName) ∧
      (∀ t : Zoned, t.monthStart.zone = t.zone ∧ t.monthStart.monthStart = t.monthStart ∧
        (t.zone.SteadyIn t.date.year t.date.month → t.monthStart.offset = t.offset)) ∧
      ∀ t t' : Zoned, t.monthStart = t'.monthStart ↔
        (t.date.year = t'.date.year ∧ t.date.month = t'.date.month) ∧ t.zone = t'.zone ∧
          t.again = t'.again := by
  refine ⟨?_, fun s epoch => isDate_str_eq_false_iff, ?_,
    fun t => ⟨t.monthStart, rfl, rfl, rfl, t.monthStart_inZone⟩, ?_,
    fun d => ⟨d.monthStart, rfl, rfl⟩, ?_, ?_, fun t => ⟨rfl, rfl, Zoned.offset_monthStart_of⟩,
    fun _ _ => Zoned.monthStart_eq_iff⟩
  · rintro v epoch (hstr | ⟨d, rfl⟩ | ⟨t, rfl⟩) hdate
    · obtain ⟨s, rfl⟩ := isStr_iff.mp hstr
      obtain ⟨t, ht⟩ := isDate_str_iff.mp hdate
      exact ⟨_, generalizeDate_str ht⟩
    · exact ⟨_, rfl⟩
    · exact ⟨_, rfl⟩
  · intro v s h
    obtain ⟨_, hnull⟩ | ⟨t, ht, hw⟩ := generalizeDate_eq_ok h
    · cases hnull
    refine ⟨t, ht, ?_, fun epoch => coarse_of_generalizeDate h⟩
    rcases hw with hw | ⟨_, _, hw⟩ | hw | ⟨_, hw⟩
    · cases hw
    · cases hw
    · cases hw
      rw [String.toList_ofList]
      exact isMonthText_monthText t.date
    · cases hw
  · intro t t'
    rw [← monthStart_eq_iff]
    simp [generalizeDate]
  · intro d d'
    rw [← monthStart_date_eq_iff]
    simp [generalizeDate]
  · rintro v f (h | h)
    · exact generalizeDate_error h
    · exact ⟨_, toTimestamp_error h⟩

theorem isDate_iff_generalizes_sample :
    (Value.str "2024-W11-4").isDate false = true ∧
      (∃ w, (Value.str "2024-W11-4").generalizeDate "at" = .ok w) ∧
      (Value.str "2024-W11-4").generalizeDate "at" = .ok (.str "2024-03") ∧
      (Value.str "2024-03").isDate true = false ∧
      (Value.str "2024-03").generalizeDate "at" = .error (.propertyDecode "at" "datetime" "str") := by
  obtain ⟨hdates, htexts, hmonths, -⟩ := isDate_iff_generalizes "at"
  have hdate : (Value.str "2024-W11-4").isDate false = true := by decide +kernel
  have hmonth : (Value.str "2024-W11-4").generalizeDate "at" = .ok (.str "2024-03") := by rfl
  obtain ⟨_, -, -, hnone⟩ := hmonths _ _ hmonth
  exact ⟨hdate, hdates _ false (Or.inl rfl) hdate, hmonth, hnone true, (htexts _ true).mp (hnone true)⟩

/-- The day that clocks are put forward in spring. -/
def changeDay : Date := ⟨2024, 3, 31, by decide⟩

def winterOffset : Offset := ⟨3600000000, by decide⟩

def summerOffset : Offset := ⟨7200000000, by decide⟩

/-- A zone whose clock is put forward an hour at two in the morning of that day. -/
def springZone : Zone :=
  ⟨fun d time _ =>
    some (if d.ordinal < changeDay.ordinal ∨ (d = changeDay ∧ time.hour < 2) then winterOffset
      else summerOffset)⟩

/-- The afternoon of that day. -/
def springAfternoon : Zoned := ⟨changeDay, ⟨15, 30, 0, 0, by decide⟩, springZone, false⟩

/-- Year, month and offset are not all that counts: a timestamp in a zone that changes has another offset
at the start of the month, other than the timestamp with its year, month and offset; and a date does not
become what a timestamp without offset becomes. -/
theorem generalizes_with_zone :
    springAfternoon.offset = some summerOffset ∧ springAfternoon.monthStart.offset = some winterOffset ∧
      springAfternoon.monthStart.toTimestamp ≠ springAfternoon.toTimestamp.monthStart ∧
      (Value.date changeDay).generalizeDate "at" ≠
        (Value.datetime (.ofDate changeDay)).generalizeDate "at" := by
  have hthen : springAfternoon.offset = some summerOffset := by decide
  have hstart : springAfternoon.monthStart.offset = some winterOffset := by decide
  refine ⟨hthen, hstart, fun hsame => ?_, nofun⟩
  have hoffset : springAfternoon.monthStart.offset = springAfternoon.offset :=
    congrArg Timestamp.offset hsame
  rw [hthen, hstart] at hoffset
  exact absurd hoffset (by decide)

end ConsentGate.Value
