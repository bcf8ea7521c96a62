import ConsentGate.Proofs.Consent.LevelNames

/-! Which payloads describe a consent record, and which record that is.

What may stand in a field, and what it then tells, is said field by field, with nothing at all as one of
the cases. `Describes` puts the fields together, and a record is read exactly if the payload describes it.
Any other value is refused as invalid (`ofPayload_eq_ok_iff`), but for one kind: the message about a level
that is none shows what was found in its place, and an integer of too many digits cannot be shown
(`ofPayload_of_hasLongLevel`). The dates that are read are not quite those of ISO 8601
(`ordinal_date_refused`). -/
namespace ConsentGate.Consent.Record
open Calendar Text
set_option autoImplicit false

/-! ## What a field tells -/

/-- The flag is false unless it says otherwise. -/
inductive TellsFlag : Option Value → Bool → Prop
  | absent : TellsFlag none false
  | flag (b : Bool) : TellsFlag (some (.bool b)) b

/-- The level is the strict one unless one is named. -/
inductive TellsLevel : Option Value → Level → Prop
  | absent : TellsLevel none .strict
  | level (l : Level) : TellsLevel (some (.level l)) l
  | text {s : String} {l : Level} (named : parseLevel (.str s) = .ok l) :
      TellsLevel (some (.str s)) l

inductive TellsVersion : Option Value → String → Prop
  | absent : TellsVersion none standardVersion
  | text {s : String} (notBlank : allBlank s.toList = false) : TellsVersion (some (.str s)) s

/-- The categories are texts; there are none if nothing is given. -/
inductive TellsCategories : Option Value → List String → Prop
  | absent : TellsCategories none []
  | null : TellsCategories (some .null) []
  | list (names : List String) : TellsCategories (some (.list (names.map .str))) names
  | tuple (names : List String) : TellsCategories (some (.tuple (names.map .str))) names
  | set (names : List String) : TellsCategories (some (.set (names.map .str))) names

inductive TellsDate : Option Value → Option Timestamp → Prop
  | absent : TellsDate none none
  | null : TellsDate (some .null) none
  | time (t : Timestamp) : TellsDate (some (.datetime t)) (some t)
  | text {s : String} {t : Timestamp} (iso : readTimestamp (spellOutZ s.toList) = .ok t) :
      TellsDate (some (.str s)) (some t)

/-- The fields of a payload tell what the record has. -/
structure Describes (fields : Fields) (r : Record) : Prop where
  hasConsent : TellsFlag (Value.get? fields "dataNetworkConsent") r.hasConsent
  level : TellsLevel (Value.get? fields "piiScrubbingLevel") r.level
  version : TellsVersion (Value.get? fields "consentVersion") r.version
  categories : TellsCategories (Value.get? fields "dataNetworkCategories") r.categories
  date : TellsDate (Value.get? fields "consentDate") r.date

/-- The flag is well-formed, and in the place of the level stands something with an integer that has too
many digits. -/
def HasLongLevel (fields : Fields) : Prop :=
  (∃ b, TellsFlag (Value.get? fields "dataNetworkConsent") b) ∧
    ∃ v, Value.get? fields "piiScrubbingLevel" = some v ∧ v.isShort = false

/-! ## Reading a field -/

theorem readFlag_eq_ok_iff {v : Option Value} {b : Bool} : readFlag v = .ok b ↔ TellsFlag v b := by
  constructor
  · intro h
    unfold readFlag at h
    split at h
    · cases h
      exact .absent
    · cases h
      exact .flag b
    · cases h
  · intro h
    cases h with
    | absent => rfl
    | flag => rfl

theorem readLevel_eq_ok_iff {v : Option Value} {l : Level} : readLevel v = .ok l ↔ TellsLevel v l := by
  constructor
  · intro h
    unfold readLevel at h
    split at h
    · cases h
      exact .absent
    · cases h
      exact .level l
    · obtain ⟨s, rfl, -⟩ := parseLevel_eq_ok_iff.mp h
      exact .text h
  · intro h
    cases h with
    | absent => rfl
    | level => rfl
    | text named => exact named

theorem readVersion_eq_ok_iff {v : Option Value} {version : String} :
    readVersion v = .ok version ↔ TellsVersion v version := by
  constructor
  · intro h
    unfold readVersion at h
    split at h
    · cases h
      exact .absent
    · split at h
      · cases h
      · rename_i hblank
        cases h
        exact .text (Bool.eq_false_iff.mpr hblank)
    · cases h
  · intro h
    cases h with
    | absent => rfl
    | text notBlank =>
      rw [readVersion, notBlank]
      rfl

theorem texts?_eq_some_iff {items : List Value} {names : List String} :
    texts? items = some names ↔ items = names.map .str := by
  unfold texts?
  induction items generalizing names with
  | nil => cases names <;> simp
  | cons v rest ih =>
    simp only [List.mapM_cons, Option.bind_eq_bind, Option.bind_eq_some_iff, Option.pure_def,
      Option.some.injEq, ih, Value.str?_eq_some]
    constructor
    · rintro ⟨name, rfl, names, rfl, rfl⟩
      rfl
    · intro h
      cases names with
      | nil => cases h
      | cons name names =>
        obtain ⟨rfl, rfl⟩ := List.cons.inj h
        exact ⟨name, rfl, names, rfl, rfl⟩

theorem elim_texts?_eq_ok_iff {items : List Value} {f : Fault} {names : List String} :
    (texts? items).elim (.error f) .ok = Except.ok names ↔ items = names.map .str := by
  rw [← texts?_eq_some_iff]
  cases texts? items <;> simp

theorem readCategories_eq_ok_iff {v : Option Value} {names : List String} :
    readCategories (v.getD .null) = .ok names ↔ TellsCategories v names := by
  constructor
  · intro h
    cases v with
    | none =>
      cases h
      exact .absent
    | some v =>
      rw [Option.getD_some] at h
      unfold readCategories at h
      split at h
      · cases h
        exact .null
      · rw [elim_texts?_eq_ok_iff.mp h]
        exact .list names
      · rw [elim_texts?_eq_ok_iff.mp h]
        exact .tuple names
      · rw [elim_texts?_eq_ok_iff.mp h]
        exact .set names
      · cases h
  · intro h
    cases h with
    | absent => rfl
    | null => rfl
    | list => exact elim_texts?_eq_ok_iff.mpr rfl
    | tuple => exact elim_texts?_eq_ok_iff.mpr rfl
    | set => exact elim_texts?_eq_ok_iff.mpr rfl

theorem readDate_eq_ok_iff {v : Option Value} {date : Option Timestamp} :
    readDate (v.getD .null) = .ok date ↔ TellsDate v date := by
  constructor
  · intro h
    cases v with
    | none =>
      cases h
      exact .absent
    | some v =>
      rw [Option.getD_some] at h
      unfold readDate at h
      split at h
      · cases h
        exact .null
      · cases h
        exact .time _
      · dsimp only at h
        split at h
        · rename_i hiso
          cases h
          exact .text hiso
        · cases h
      · cases h
  · intro h
    cases h with
    | absent => rfl
    | null => rfl
    | time => rfl
    | text iso =>
      rw [Option.getD_some, readDate, iso]

/-! ## Reading a payload -/

variable {fields : Fields}

theorem ofPayload_map_eq_ok_iff {r : Record} :
    ofPayload (.map fields) = .ok r ↔ Describes fields r := by
  unfold ofPayload
  simp only [bind_eq_ok]
  constructor
  · rintro ⟨hasConsent, hflag, level, hlevel, version, hversion, categories, hcategories, date, hdate, h⟩
    cases h
    exact ⟨readFlag_eq_ok_iff.mp hflag, readLevel_eq_ok_iff.mp hlevel, readVersion_eq_ok_iff.mp hversion,
      readCategories_eq_ok_iff.mp hcategories, readDate_eq_ok_iff.mp hdate⟩
  · intro h
    exact ⟨_, readFlag_eq_ok_iff.mpr h.hasConsent, _, readLevel_eq_ok_iff.mpr h.level,
      _, readVersion_eq_ok_iff.mpr h.version, _, readCategories_eq_ok_iff.mpr h.categories,
      _, readDate_eq_ok_iff.mpr h.date, rfl⟩

/-! ## Refusals -/

/-- The failure says that the record is invalid. -/
def IsInvalid (f : Fault) : Prop := ∃ reason, f = .named (.invalidConsent reason)

variable {v : Option Value} {f : Fault}

theorem isInvalid_of_readFlag (h : readFlag v = .error f) : IsInvalid f := by
  unfold readFlag at h
  split at h
  · cases h
  · cases h
  · exact ⟨_, (Except.error.inj h).symm⟩

/-- What is no level is refused as invalid, or it cannot be shown. -/
theorem readLevel_eq_error (h : readLevel v = .error f) :
    IsInvalid f ∨ ∃ w, v = some w ∧ w.isShort = false := by
  unfold readLevel at h
  split at h
  · cases h
  · cases h
  · rename_i w _
    exact (parseLevel_eq_error h).imp (fun ⟨_, hf⟩ => ⟨_, hf⟩) fun hlong => ⟨w, rfl, hlong⟩

/-- A text and a level are shown without integers. -/
theorem readLevel_of_long {w : Value} (h : w.isShort = false) :
    readLevel (some w) = .error .wrongValue := by
  unfold readLevel
  split
  · rename_i hnone
    cases hnone
  · rename_i l hlevel
    obtain rfl := Option.some.inj hlevel
    cases h
  · rename_i w' _ hw
    obtain rfl := Option.some.inj hw
    exact parseLevel_of_long h

theorem isInvalid_of_readVersion (h : readVersion v = .error f) : IsInvalid f := by
  unfold readVersion at h
  split at h
  · cases h
  · split at h
    · exact ⟨_, (Except.error.inj h).symm⟩
    · cases h
  · exact ⟨_, (Except.error.inj h).symm⟩

theorem isInvalid_of_readCategories {w : Value} (h : readCategories w = .error f) : IsInvalid f := by
  have hitems : ∀ {items : List Value} {g : Fault},
      (texts? items).elim (.error g) .ok = Except.error f → g = f := by
    intro items g h
    cases htexts : texts? items with
    | none =>
      rw [htexts] at h
      exact Except.error.inj h
    | some names =>
      rw [htexts] at h
      cases h
  unfold readCategories at h
  split at h
  · cases h
  · exact ⟨_, (hitems h).symm⟩
  · exact ⟨_, (hitems h).symm⟩
  · exact ⟨_, (hitems h).symm⟩
  · exact ⟨_, (Except.error.inj h).symm⟩

theorem isInvalid_of_readDate {w : Value} (h : readDate w = .error f) : IsInvalid f := by
  unfold readDate at h
  split at h
  · cases h
  · cases h
  · dsimp only at h
    split at h
    · cases h
    · exact ⟨_, (Except.error.inj h).symm⟩
  · exact ⟨_, (Except.error.inj h).symm⟩

theorem ofPayload_map_eq_error (h : ofPayload (.map fields) = .error f) :
    IsInvalid f ∨ HasLongLevel fields := by
  rcases bind_eq_error.mp h with hflag | ⟨b, hflag, h⟩
  · exact Or.inl (isInvalid_of_readFlag hflag)
  rcases bind_eq_error.mp h with hlevel | ⟨_, _, h⟩
  · refine (readLevel_eq_error hlevel).imp id fun hlong => ?_
    exact ⟨⟨b, readFlag_eq_ok_iff.mp hflag⟩, hlong⟩
  rcases bind_eq_error.mp h with hversion | ⟨_, _, h⟩
  · exact Or.inl (isInvalid_of_readVersion hversion)
  rcases bind_eq_error.mp h with hcategories | ⟨_, _, h⟩
  · exact Or.inl (isInvalid_of_readCategories hcategories)
  rcases bind_eq_error.mp h with hdate | ⟨_, _, h⟩
  · exact Or.inl (isInvalid_of_readDate hdate)
  · cases h

/-- The message about the level cannot be written. -/
theorem ofPayload_of_hasLongLevel (h : HasLongLevel fields) :
    ofPayload (.map fields) = .error .wrongValue := by
  obtain ⟨⟨b, hflag⟩, w, hw, hlong⟩ := h
  refine bind_eq_error.mpr (Or.inr ⟨b, readFlag_eq_ok_iff.mpr hflag, bind_eq_error.mpr (Or.inl ?_)⟩)
  rw [hw]
  exact readLevel_of_long hlong

/-! ## Records -/

/-- A text is given as a category. -/
def Lists (fields : Fields) (name : String) : Prop :=
  ∃ items, (Value.get? fields "dataNetworkCategories" = some (.list items) ∨
    Value.get? fields "dataNetworkCategories" = some (.tuple items) ∨
    Value.get? fields "dataNetworkCategories" = some (.set items)) ∧ .str name ∈ items

theorem Describes.mem_categories_iff {r : Record} (h : Describes fields r) {name : String} :
    name ∈ r.categories ↔ Lists fields name := by
  unfold Lists
  obtain ⟨_, _, _, hcategories, _⟩ := h
  generalize Value.get? fields "dataNetworkCategories" = v at hcategories
  generalize r.categories = names at hcategories
  cases hcategories with
  | absent => simp
  | null => simp
  | list => simp
  | tuple => simp
  | set => simp

theorem Describes.hasConsent_iff {r : Record} (h : Describes fields r) :
    r.hasConsent = true ↔ Value.get? fields "dataNetworkConsent" = some (.bool true) := by
  obtain ⟨hflag, _, _, _, _⟩ := h
  generalize Value.get? fields "dataNetworkConsent" = v at hflag
  generalize r.hasConsent = b at hflag
  cases hflag with
  | absent => simp
  | flag => simp

theorem Describes.level_of_absent {r : Record} (h : Describes fields r)
    (habsent : Value.get? fields "piiScrubbingLevel" = none) : r.level = .strict := by
  have hlevel := h.level
  rw [habsent] at hlevel
  generalize r.level = l at hlevel
  cases hlevel
  rfl

/-- A record is unrestricted only where no category is given. -/
theorem Describes.allows_iff {r : Record} (h : Describes fields r) {entityType : String} :
    r.allows entityType = true ↔ (∀ name, ¬Lists fields name) ∨ Lists fields entityType := by
  have hempty : r.categories.isEmpty = true ↔ ∀ name, ¬Lists fields name := by
    rw [List.isEmpty_iff, List.eq_nil_iff_forall_not_mem]
    exact forall_congr' fun name => not_congr h.mem_categories_iff
  rw [allows, Bool.or_eq_true, hempty, List.contains_iff_mem, h.mem_categories_iff]

/-! ## All values -/

/-- A value is read as a record exactly if it is a map whose fields tell what the record has. Such a record
has consent only if the flag is true itself, has the strict level if none is given, lists the given texts as
its categories, and allows every entity type only where none is given. Every other value is refused as
invalid, unless what stands in the place of its level cannot be shown. -/
theorem ofPayload_eq_ok_iff (v : Value) :
    (∀ r, ofPayload v = .ok r ↔ ∃ fields, v = .map fields ∧ Describes fields r) ∧
    (∀ fields r, Describes fields r →
      (r.hasConsent = true ↔ Value.get? fields "dataNetworkConsent" = some (.bool true)) ∧
      (Value.get? fields "piiScrubbingLevel" = none → r.level = .strict) ∧
      (∀ name, name ∈ r.categories ↔ Lists fields name) ∧
      ∀ entityType, r.allows entityType = true ↔
        (∀ name, ¬Lists fields name) ∨ Lists fields entityType) ∧
    ∀ f, ofPayload v = .error f →
      IsInvalid f ∨ ∃ fields, v = .map fields ∧ HasLongLevel fields := by
  have htells : ∀ fields r, Describes fields r →
      (r.hasConsent = true ↔ Value.get? fields "dataNetworkConsent" = some (.bool true)) ∧
      (Value.get? fields "piiScrubbingLevel" = none → r.level = .strict) ∧
      (∀ name, name ∈ r.categories ↔ Lists fields name) ∧
      ∀ entityType, r.allows entityType = true ↔
        (∀ name, ¬Lists fields name) ∨ Lists fields entityType :=
    fun fields r h => ⟨h.hasConsent_iff, h.level_of_absent, fun _ => h.mem_categories_iff,
      fun _ => h.allows_iff⟩
  by_cases hmap : ∃ fields, v = .map fields
  · obtain ⟨fields, rfl⟩ := hmap
    refine ⟨fun r => ?_, htells, fun f h => ?_⟩
    · rw [ofPayload_map_eq_ok_iff]
      exact ⟨fun h => ⟨fields, rfl, h⟩, fun ⟨_, hfields, h⟩ => Value.map.inj hfields ▸ h⟩
    · exact (ofPayload_map_eq_error h).imp id fun hlong => ⟨fields, rfl, hlong⟩
  · have hrefused : ofPayload v = .error (invalid "payload must be a mapping") := by
      unfold ofPayload
      split
      · exact absurd ⟨_, rfl⟩ hmap
      · rfl
    rw [hrefused]
    exact ⟨fun r => ⟨nofun, fun ⟨fields, hfields, _⟩ => absurd ⟨fields, hfields⟩ hmap⟩, htells,
      fun f h => Or.inl ⟨_, (Except.error.inj h).symm⟩⟩

/-- A date as ISO 8601 writes it too: the year, and the day of the year. -/
def ordinalText (year day : Nat) : List Char := padDigits 4 year ++ '-' :: padDigits 3 day

/-- The characters with which ISO 8601 writes dates, times of day and offsets. -/
def isoCharacters : List Char := "0123456789-:.,+TWZ".toList

/-- A date of ISO 8601 is refused, and a text that is none, by a character in it, is taken. -/
theorem ordinal_date_refused :
    "2024-075".toList = ordinalText 2024 75 ∧
      (ofPayload (.map [(.str "consentDate", .str "2024-075")])).isOk = false ∧
      (∃ c ∈ "2024-03-15x09:26".toList, c ∉ isoCharacters) ∧
      (ofPayload (.map [(.str "consentDate", .str "2024-03-15x09:26")])).isOk = true :=
  ⟨by decide +kernel, by decide +kernel, ⟨'x', by decide +kernel, by decide +kernel⟩,
    by decide +kernel⟩

end ConsentGate.Consent.Record
