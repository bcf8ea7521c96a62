import ConsentGate.Proofs.Scrub.Places

/-! A weaker level leaves more.

Away from the strict level nothing that is supported can fail (`passable_of_supported`), and only an
unsafe text is dropped for what it is (`exists_scrubValue`); so wherever something is left at a level,
something is left at a weaker one (`Stays.weaker`), and a field that is neither personal nor date-like has
the same value there. -/
namespace ConsentGate
open Text
set_option autoImplicit false

/-- The stricter a level, the greater. -/
def Level.strictness : Level → Nat
  | .minimal => 0
  | .moderate => 1
  | .strict => 2

theorem Level.eq_of_strictness_le {l l' : Level} (h : l'.strictness ≤ l.strictness)
    (hstrict : l' = .strict) : l = l' := by
  subst hstrict
  cases l with
  | strict => rfl
  | moderate => exact absurd h (by decide)
  | minimal => exact absurd h (by decide)

/-! ## Supported values -/

namespace Value

variable {v : Value}

def Supported (v : Value) : Prop := ∃ path, v.check path = .ok ()

theorem supported_of_mem_checkItems {path : String} {i : Nat} {items : List Value}
    (h : checkItems path i items = .ok ()) : ∀ v ∈ items, v.Supported := by
  induction items generalizing i with
  | nil => simp
  | cons u rest ih =>
    obtain ⟨⟨⟩, hu, hrest⟩ := bind_eq_ok.mp h
    intro v hv
    rcases List.mem_cons.mp hv with rfl | hv
    · exact ⟨_, hu⟩
    · exact ih hrest v hv

theorem Supported.item {items : List Value} (h : (list items).Supported) : ∀ v ∈ items, v.Supported := by
  obtain ⟨path, h⟩ := h
  exact supported_of_mem_checkItems h

theorem supported_of_mem_checkFields {path : String} {fields : Fields}
    (h : checkFields path fields = .ok ()) :
    ∀ field ∈ fields, (∃ name, field.1 = .str name) ∧ field.2.Supported := by
  induction fields with
  | nil => simp
  | cons field rest ih =>
    obtain ⟨key, u⟩ := field
    cases key with
    | str name =>
      obtain ⟨⟨⟩, hu, hrest⟩ := bind_eq_ok.mp h
      intro field hfield
      rcases List.mem_cons.mp hfield with rfl | hfield
      · exact ⟨⟨name, rfl⟩, _, hu⟩
      · exact ih hrest field hfield
    | _ => cases h

theorem Supported.field {fields : Fields} (h : (map fields).Supported) :
    ∀ field ∈ fields, (∃ name, field.1 = .str name) ∧ field.2.Supported := by
  obtain ⟨path, h⟩ := h
  exact supported_of_mem_checkFields h

theorem checkFields_filter {path : String} {fields : Fields} (h : checkFields path fields = .ok ())
    (p : Value × Value → Bool) : checkFields path (fields.filter p) = .ok () := by
  induction fields with
  | nil => rfl
  | cons field rest ih =>
    obtain ⟨key, u⟩ := field
    cases key with
    | str name =>
      obtain ⟨⟨⟩, hu, hrest⟩ := bind_eq_ok.mp h
      rw [List.filter_cons]
      split
      · exact bind_eq_ok.mpr ⟨(), hu, ih hrest⟩
      · exact ih hrest
    | _ => cases h

theorem Supported.filter {fields : Fields} (h : (map fields).Supported) (p : Value × Value → Bool) :
    (map (fields.filter p)).Supported := by
  obtain ⟨path, h⟩ := h
  exact ⟨path, checkFields_filter h p⟩

end Value

namespace Scrub
open ConsentGate.Field

variable {c : Context} {name under : List Char} {path : String} {v w : Value}

/-! ## What cannot fail -/

/-- Under a key, a value with nothing to fail on: through lists there are only mappings whose keys have
texts and supported scalars, these where no date has to lose its day. -/
def Passable (c : Context) (name : List Char) (v : Value) : Prop :=
  ∀ u, v.Within u → (∃ items, u = .list items) ∨
    (∃ fields, u = .map fields ∧ ∀ field ∈ fields, ∃ text, field.1.plain = .ok text) ∨
    (c.rules.isDateKey name = false ∨ c.level ≠ .strict) ∧ u.isScalar = true

theorem exists_scrubFields (c : Context) (path : String) {fields : Fields}
    (h : ∀ field ∈ fields, (∃ name, field.1 = .str name) ∧ field.2.Supported) :
    ∃ kept, (scrubFields c path fields).result = .ok kept := by
  refine exists_scrubFields_iff.mpr fun field hfield => ?_
  obtain ⟨name, hname⟩ := (h field hfield).1
  exact ⟨name.toList, by rw [hname]; rfl⟩

theorem exists_scrubLeaf (hdate : c.rules.isDateKey name = false ∨ c.level ≠ .strict)
    (hv : v.isScalar = true) :
    ∃ x, (scrubLeaf c name path v).result = .ok x ∧ (c.isUnsafe v = false → x.isSome = true) := by
  have hkept : keepOrGeneralize c name path v = .ok (some v) := by
    rcases hdate with hdate | hlevel
    · simp [keepOrGeneralize, hdate]
    · simp [keepOrGeneralize, hlevel]
  simp only [scrubLeaf, check_of_isScalar hv, hkept]
  split
  · rename_i hunsafe
    exact ⟨none, rfl, fun hsafe => absurd hunsafe (by simp [hsafe])⟩
  · exact ⟨some v, rfl, fun _ => rfl⟩

-- Only lists hand over to their parts: a fault inside a map stays with the field it is met in.
mutual
theorem exists_scrubValue (c : Context) (name : List Char) (path : String) (v : Value)
    (h : Passable c name v) :
    ∃ x, (scrubValue c name path v).result = .ok x ∧ (c.isUnsafe v = false → x.isSome = true) := by
  match v with
  | .list items =>
    obtain ⟨kept, hkept⟩ :=
      exists_scrubItems c name path 0 items fun v hmem u hu => h u (.item hmem hu)
    exact ⟨_, scrubValue_list_of_ok hkept, fun _ => rfl⟩
  | .map fields =>
    obtain ⟨items, hlist⟩ | ⟨fields', hmap, hkeys⟩ | ⟨_, hscalar⟩ := h _ .here
    · cases hlist
    · cases hmap
      obtain ⟨kept, hkept⟩ := exists_scrubFields_iff.mpr hkeys
      exact ⟨_, scrubValue_map_of_ok hkept, fun _ => rfl⟩
    · cases hscalar
  | .null | .bool _ | .int _ | .float _ | .decimal _ | .str _ | .date _ | .datetime _ | .bytes _
  | .tuple _ | .set _ | .level _ | .foreign | .uncopyable =>
    obtain ⟨items, hlist⟩ | ⟨fields, hmap, _⟩ | ⟨hdate, hscalar⟩ := h _ .here
    · cases hlist
    · cases hmap
    · exact exists_scrubLeaf hdate hscalar

theorem exists_scrubItems (c : Context) (name : List Char) (path : String) (i : Nat)
    (items : List Value) (h : ∀ v ∈ items, Passable c name v) :
    ∃ kept, (scrubItems c name path i items).result = .ok kept := by
  match items with
  | [] => exact ⟨[], rfl⟩
  | v :: rest =>
    obtain ⟨hv, hrest⟩ := List.forall_mem_cons.mp h
    obtain ⟨first, hfirst, _⟩ := exists_scrubValue c name (Value.itemPath path i) v hv
    obtain ⟨others, hothers⟩ := exists_scrubItems c name path (i + 1) rest hrest
    refine ⟨first.toList ++ others, ?_⟩
    rw [scrubItems, Attempt.andThen_of_ok hfirst, Attempt.map_result, hothers]
    rfl
end

theorem supported_of_within (hv : v.Supported) (h : v.Within w) : w.Supported := by
  induction h with
  | here => exact hv
  | item mem _ ih => exact ih (hv.item _ mem)

/-- Away from the strict level nothing that is supported can fail. -/
theorem passable_of_supported (hlevel : c.level ≠ .strict) (hv : v.Supported) :
    Passable c name v := by
  intro u hwithin
  have hu := supported_of_within hv hwithin
  rcases map_or_list_or_isLeaf u with ⟨fields, rfl⟩ | ⟨items, rfl⟩ | hleaf
  · refine Or.inr (Or.inl ⟨fields, rfl, fun field hfield => ?_⟩)
    obtain ⟨text, htext⟩ := (hu.field field hfield).1
    exact ⟨text.toList, by rw [htext]; rfl⟩
  · exact Or.inl ⟨items, rfl⟩
  · obtain ⟨_, hcheck⟩ := hu
    exact Or.inr (Or.inr ⟨Or.inr hlevel, isScalar_of_check hleaf hcheck⟩)

theorem isUnsafe_of_left (h : (scrubValue c name path v).result = .ok (some w)) :
    c.isUnsafe v = false := by
  rcases scrubValue_eq_some h with ⟨_, _, rfl, _⟩ | ⟨_, _, rfl, _⟩ | ⟨hleaf, _, hkept⟩
  · rfl
  · rfl
  · exact (scrubLeaf_eq_some hleaf hkept).1

/-- Away from date-like keys a value without parts is left as it is. -/
theorem eq_of_left (h : (scrubValue c name path v).result = .ok (some w)) (hw : w.isScalar = true)
    (hdate : c.rules.isDateKey name = false ∨ c.level ≠ .strict) : w = v := by
  rcases scrubValue_eq_some h with ⟨_, _, _, rfl, _⟩ | ⟨_, _, _, rfl, _⟩ | ⟨hleaf, _, hkept⟩
  · cases hw
  · cases hw
  · obtain ⟨_, _, ⟨hsame, _⟩ | ⟨hstrict, hkey, _⟩⟩ := scrubLeaf_eq_some hleaf hkept
    · exact hsame
    · rcases hdate with hdate | hlevel
      · rw [hdate] at hkey
        cases hkey
      · exact absurd hstrict hlevel

/-! ## Weaker levels -/

/-- The same context at another level. -/
def Context.atLevel (c : Context) (l : Level) : Context := { c with level := l }

/-- Two values of a field agree, unless the field is personal or date-like or the value has parts. -/
def Context.Agree (c : Context) (under : List Char) (w w' : Value) : Prop :=
  w.isScalar = true → (c.rules.classify under).isPersonal = false →
    c.rules.isDateKey under = false → w' = w

variable {l : Level}

theorem exists_left_weaker (hlevel : l ≠ .strict) (hv : v.Supported)
    (hsafe : c.isUnsafe v = false) (name : List Char) (path : String) :
    ∃ w, (scrubValue (c.atLevel l) name path v).result = .ok (some w) := by
  obtain ⟨x, hx, hsome⟩ := exists_scrubValue (c.atLevel l) name path v (passable_of_supported hlevel hv)
  obtain ⟨w, rfl⟩ := Option.isSome_iff_exists.mp (hsome hsafe)
  exact ⟨w, hx⟩

theorem Context.Opens.weaker (h : c.Opens name) (hl : l.strictness ≤ c.level.strictness) :
    (c.atLevel l).Opens name := by
  refine ⟨h.1, fun hpersonal => ?_⟩
  rw [h.2 hpersonal] at hl
  cases l with
  | minimal => rfl
  | moderate => exact absurd hl (by decide)
  | strict => exact absurd hl (by decide)

/-- What becomes a token still does so or is opened. -/
theorem Context.Tokenizes.weaker (h : c.Tokenizes name) (hl : l.strictness ≤ c.level.strictness) :
    l = .moderate ∨ (c.atLevel l).Opens name := by
  rw [h.2] at hl
  cases l with
  | moderate => exact Or.inl rfl
  | strict => exact absurd hl (by decide)
  | minimal =>
    refine Or.inr ⟨?_, fun _ => rfl⟩
    have hpersonal := h.1
    simp only [Category.isPersonal, Bool.and_eq_true, Bool.not_eq_true'] at hpersonal
    exact hpersonal.1

/-- A place that stays at a level stays at a weaker one, away from the strict level. The induction is on
the place: at each step down the whole around it is left at the weaker level too. -/
theorem Stays.weaker_of_ne {place : List Step} (h : Stays c name path v place under w)
    (hlevel : l ≠ .strict) (hl : l.strictness ≤ c.level.strictness) (hv : v.Supported) :
    ∃ w', Stays (c.atLevel l) name path v place under w' ∧ c.Agree under w w' := by
  induction h with
  | here left =>
    obtain ⟨w', hw'⟩ := exists_left_weaker (l := l) hlevel hv (isUnsafe_of_left left) _ _
    refine ⟨w', .here hw', fun hscalar _ hdate => ?_⟩
    -- The value has no parts then, so it is a leaf at the weaker level too.
    have hsame := eq_of_left left hscalar (Or.inl hdate)
    subst hsame
    rcases scrubValue_eq_some hw' with ⟨_, _, rfl, _⟩ | ⟨_, _, rfl, _⟩ | ⟨_, hscalar', _⟩
    · cases hscalar
    · cases hscalar
    · exact eq_of_left hw' hscalar' (Or.inl hdate)
  | @item name under path items _ _ _ _ _ whole position inside ih =>
    obtain ⟨w', hstays, hagree⟩ := ih (hv.item _ (List.mem_of_getElem? position))
    obtain ⟨kept, hkept⟩ := exists_scrubItems (c.atLevel l) name path 0 items
      fun v hmem => passable_of_supported hlevel (hv.item v hmem)
    exact ⟨w', .item hkept position hstays, hagree⟩
  | @token name own path fields _ key v w whole mem plain tokenizes safe token =>
    obtain ⟨kept, hkept⟩ := exists_scrubFields (c.atLevel l) path hv.field
    -- At the minimal level the field is opened, and the place is that of its value.
    rcases tokenizes.weaker hl with rfl | hopens
    · exact ⟨_, .token hkept mem plain ⟨tokenizes.1, rfl⟩ safe token, fun _ _ _ => rfl⟩
    · obtain ⟨w', hw'⟩ := exists_left_weaker (l := l) hlevel (hv.field _ mem).2 safe _ _
      refine ⟨w', .field hkept mem plain hopens (.here hw'), fun _ hpersonal => ?_⟩
      rw [tokenizes.1] at hpersonal
      cases hpersonal
  | @field name own under path fields _ key v w place whole mem plain opens inside ih =>
    obtain ⟨w', hstays, hagree⟩ := ih (hv.field _ mem).2
    obtain ⟨kept, hkept⟩ := exists_scrubFields (c.atLevel l) path hv.field
    exact ⟨w', .field hkept mem plain (opens.weaker hl) hstays, hagree⟩

theorem Stays.weaker {place : List Step} (h : Stays c name path v place under w)
    (hl : l.strictness ≤ c.level.strictness) (hv : v.Supported) :
    ∃ w', Stays (c.atLevel l) name path v place under w' ∧ c.Agree under w w' := by
  by_cases hlevel : l = .strict
  · rw [← Level.eq_of_strictness_le hl hlevel]
    exact ⟨w, h, fun _ _ _ => rfl⟩
  · exact h.weaker_of_ne hlevel hl hv

/-! ## Entities -/

variable {s : Scrubber} {e : Entity} {entityType : Value} {l' : Level} {out : Scrubbed}

/-- A part of a result has under each sequence of keys what stays at the places with those keys. -/
def ShowsPlaces (c : Context) (root : String) (own part : Value) : Prop :=
  ∀ keys w, Lies part keys w ↔
    ∃ place under, place.filterMap Step.key? = keys ∧ Stays c [] root own place under w

theorem PartAt.showsPlaces {root : String} {own part : Value}
    (h : (s.scrub (some e) entityType (.level l)).1 = .ok out) (hpart : PartAt root e out own part) :
    ShowsPlaces (s.context e entityType.messageText l) root own part := by
  obtain ⟨fields, kept, rfl, rfl, hscrub⟩ := hpart.scrubbed h
  exact lies_iff_stays (scrubValue_map_of_ok hscrub)

theorem supported_ownFields (h : v.Supported) : (Value.map (ownFields v)).Supported := by
  unfold ownFields
  split
  · exact h.filter _
  · exact ⟨"", rfl⟩

theorem PartAt.supported {root : String} {own part : Value} (hproperties : e.properties.Supported)
    (hmetadata : e.metadata.Supported) (hpart : PartAt root e out own part) : own.Supported := by
  rcases hpart with ⟨_, rfl, _⟩ | ⟨_, rfl, _⟩
  · exact hproperties
  · exact supported_ownFields hmetadata

theorem exists_baseTime_weaker (hl : l'.strictness ≤ l.strictness) (h : baseTime l v = .ok w) :
    ∃ w', baseTime l' v = .ok w' := by
  cases l' with
  | strict =>
    rw [Level.eq_of_strictness_le hl rfl] at h
    exact ⟨w, h⟩
  | moderate => exact ⟨v, rfl⟩
  | minimal => exact ⟨v, rfl⟩

/-- An entity of supported values that can be scrubbed at a level can be at a weaker one. -/
theorem exists_scrub_weaker (hproperties : e.properties.Supported) (hmetadata : e.metadata.Supported)
    (hl : l'.strictness ≤ l.strictness)
    (h : (s.scrub (some e) entityType (.level l)).1 = .ok out) :
    ∃ out', (s.scrub (some e) entityType (.level l')).1 = .ok out' := by
  obtain ⟨w⟩ := exists_whole h
  obtain ⟨htype, hcopy⟩ := truthy_of_scrub h
  obtain ⟨fields, hfields⟩ : ∃ fields, e.properties = .map fields := ⟨_, w.propertiesAre⟩
  rw [hfields] at hproperties
  obtain ⟨keptProperties, hp⟩ := exists_scrubFields (s.context e entityType.messageText l')
    "properties" hproperties.field
  obtain ⟨keptMetadata, hm⟩ := exists_scrubFields (s.context e entityType.messageText l')
    "metadata" (supported_ownFields hmetadata).field
  -- The hashes of the identifiers do not depend on the level.
  obtain ⟨id, hid, _⟩ := w.outId
  have htenantHash : (s.identity e).tenantHash = .ok w.tenantHash := w.hashTenant
  obtain ⟨createdAt, hcreated⟩ := exists_baseTime_weaker hl w.outCreatedAt
  obtain ⟨updatedAt, hupdated⟩ := exists_baseTime_weaker hl w.outUpdatedAt
  obtain ⟨deletedAt, hdeleted⟩ := exists_baseTime_weaker hl w.outDeletedAt
  obtain ⟨out', hout', _⟩ := exists_assemble (c := s.context e entityType.messageText l')
    htenantHash hid hcreated hupdated hdeleted entityType
    (partsTrail (s.context e entityType.messageText l') fields (ownFields e.metadata))
    keptProperties keptMetadata
  exact ⟨out', scrub_eq_ok_iff.mpr ⟨htype, hcopy, fields, keptProperties, keptMetadata, hfields,
    w.metadataIs, hp, hm, hout'⟩⟩

/-- A weaker level leaves more. Of an entity of supported values that is scrubbed at a level, every place
of the properties or of its own metadata that stays there stays at each weaker level; and it has the same
value there, if that is without parts and under a key that is neither personal nor date-like. -/
theorem weaker_level_leaves_more (hproperties : e.properties.Supported)
    (hmetadata : e.metadata.Supported) (hl : l'.strictness ≤ l.strictness)
    (h : (s.scrub (some e) entityType (.level l)).1 = .ok out) :
    ∃ out', (s.scrub (some e) entityType (.level l')).1 = .ok out' ∧
      ∀ root own part part', PartAt root e out own part → PartAt root e out' own part' →
        ShowsPlaces (s.context e entityType.messageText l) root own part ∧
        ShowsPlaces (s.context e entityType.messageText l') root own part' ∧
        ∀ place under w,
          Stays (s.context e entityType.messageText l) [] root own place under w →
          ∃ w', Stays (s.context e entityType.messageText l') [] root own place under w' ∧
            (w.isScalar = true → (s.rules.classify under).isPersonal = false →
              s.rules.isDateKey under = false → w' = w) := by
  obtain ⟨out', hout'⟩ := exists_scrub_weaker hproperties hmetadata hl h
  refine ⟨out', hout', fun root own part part' hpart hpart' => ?_⟩
  refine ⟨hpart.showsPlaces h, hpart'.showsPlaces hout', fun place under w hstays => ?_⟩
  exact hstays.weaker hl (hpart.supported hproperties hmetadata)

/-! ### A sample -/

/-- What the scrubber makes of the sample at the strict level. -/
def strictSample : Except Fault Scrubbed :=
  (sampleScrubber.scrub (some sampleEntity) (.str "Note") (.level .strict)).1

theorem weaker_level_leaves_more_sample :
    sampleEntity.properties.Supported ∧ sampleEntity.metadata.Supported ∧
      Level.minimal.strictness ≤ Level.strict.strictness ∧ ∃ out, strictSample = .ok out ∧
      ∃ out', (sampleScrubber.scrub (some sampleEntity) (.str "Note") (.level .minimal)).1 = .ok out' ∧
        ∀ root own part part', PartAt root sampleEntity out own part →
          PartAt root sampleEntity out' own part' →
          ShowsPlaces (sampleScrubber.context sampleEntity "Note" .strict) root own part ∧
          ShowsPlaces (sampleScrubber.context sampleEntity "Note" .minimal) root own part' ∧
          ∀ place under w,
            Stays (sampleScrubber.context sampleEntity "Note" .strict) [] root own place under w →
            ∃ w', Stays (sampleScrubber.context sampleEntity "Note" .minimal) [] root own place under w' ∧
              (w.isScalar = true → (sampleScrubber.rules.classify under).isPersonal = false →
                sampleScrubber.rules.isDateKey under = false → w' = w) := by
  have hok : strictSample.isOk = true := by decide +kernel
  have hproperties : sampleEntity.properties.Supported := ⟨"properties", rfl⟩
  have hmetadata : sampleEntity.metadata.Supported := ⟨"metadata", rfl⟩
  have hl : Level.minimal.strictness ≤ Level.strict.strictness := by decide
  obtain ⟨out, hout⟩ := exists_eq_ok hok
  exact ⟨hproperties, hmetadata, hl, out, hout,
    weaker_level_leaves_more hproperties hmetadata hl hout⟩

end Scrub

end ConsentGate
