import ConsentGate.Entity.Payload
import ConsentGate.Proofs.Value.Texts

/-! Which payloads describe an entity, and which entity that is.

A payload is taken if it is `Wellformed`: its type is a text that is not blank, its properties and its
metadata are maps within the value model where there are any, and its times can be read where there are
any. The entity has what the payload conveys (`Conveys`), and whatever is not taken is refused as invalid
(`ofPayload_taken_iff`). What counts as no properties is a parameter, since more does than should: any
value that counts as nothing, such as an empty list, stands for no properties (`takes_empty_list`), while
metadata are none only if they are null. -/
namespace ConsentGate
open Calendar
set_option autoImplicit false

namespace Value

/-- What is found under a key is one of the fields, or nothing. -/
theorem getD_cases (fields : Fields) (name : String) :
    getD fields name = .null ∨ ∃ field ∈ fields, getD fields name = field.2 := by
  unfold getD get?
  cases hfind : fields.find? fun field => field.1.isText name with
  | none => exact Or.inl rfl
  | some field => exact Or.inr ⟨field, List.mem_of_find?_eq_some hfind, rfl⟩

theorem eq_nil_of_falsy {fields : Fields} (h : (map fields).truthy = false) : fields = [] := by
  rw [truthy, Bool.not_eq_false'] at h
  exact List.isEmpty_iff.mp h

theorem isShort_getD {fields : Fields} (h : (map fields).isShort = true) (name : String) :
    (getD fields name).isShort = true := by
  rcases getD_cases fields name with hnull | ⟨field, hmem, hfield⟩
  · rw [hnull]
    rfl
  · rw [hfield]
    exact (fieldsShort_iff.mp h field hmem).2

end Value

namespace Entity

variable {fields : Fields} {now : Timestamp}

/-! ## What a payload conveys -/

/-- The value is a map within the value model. -/
def IsObject (name : String) (v : Value) : Prop := ∃ own, v = .map own ∧ v.check name = .ok ()

/-- Nothing, or a time that can be read. -/
def IsTime (name : String) (v : Value) : Prop := v = .null ∨ ∃ t, v.toTimestamp name = .ok t

/-- A payload as it should be, if `isNone` tells what counts as no properties. -/
structure Wellformed (isNone : Value → Prop) (fields : Fields) : Prop where
  type : ∃ s, Value.getD fields "type" = .str s ∧ Text.allBlank s.toList = false
  properties : isNone (Value.getD fields "properties") ∨
    IsObject "properties" (Value.getD fields "properties")
  metadata : Value.getD fields "metadata" = .null ∨ IsObject "metadata" (Value.getD fields "metadata")
  createdAt : IsTime "createdAt" (Value.getD fields "createdAt")
  updatedAt : IsTime "updatedAt" (Value.getD fields "updatedAt")
  deletedAt : IsTime "deletedAt" (Value.getD fields "deletedAt")

/-- The time that a payload tells under a key. -/
def timeOf? (fields : Fields) (name : String) : Option Timestamp :=
  ((Value.getD fields name).toTimestamp name).toOption

/-- The text of what stands under a key, or else the default. -/
def textOf (fields : Fields) (name default : String) : String :=
  if (Value.getD fields name).truthy then (Value.getD fields name).messageText else default

/-- The entity has what the payload tells; a time of the last change that is not told is that of the
creation, and that one is `now` if it is not told either. -/
structure Conveys (now : Timestamp) (fields : Fields) (e : Entity) : Prop where
  id : e.id = .str (textOf fields "id" "")
  type : e.type = Value.getD fields "type"
  properties : e.properties = if (Value.getD fields "properties").truthy then
    Value.getD fields "properties" else .map []
  metadata : e.metadata = Value.getD fields "metadata"
  tenantId : e.tenantId = Value.getD fields "tenantId"
  version : e.version = .str (textOf fields "version" "1.0")
  source : e.source = Value.getD fields "source"
  createdAt : e.createdAt = .datetime ((timeOf? fields "createdAt").getD now)
  updatedAt : e.updatedAt = .datetime ((timeOf? fields "updatedAt").getD
    ((timeOf? fields "createdAt").getD now))
  createdBy : e.createdBy = Value.getD fields "createdBy"
  updatedBy : e.updatedBy = Value.getD fields "updatedBy"
  isDeleted : e.isDeleted = .bool (Value.getD fields "isDeleted").truthy
  deletedAt : e.deletedAt = .ofTime (timeOf? fields "deletedAt")
  deletedBy : e.deletedBy = Value.getD fields "deletedBy"

/-! ## Types, texts and times -/

theorem payloadType_eq_ok_iff {type : String} : payloadType fields = .ok type ↔
    Value.getD fields "type" = .str type ∧ Text.allBlank type.toList = false := by
  unfold payloadType
  split
  · rename_i s hs
    rw [hs, Value.str.injEq]
    split
    · rename_i hblank
      constructor
      · intro h
        cases h
      · rintro ⟨rfl, hnot⟩
        exact absurd hblank (Bool.eq_false_iff.mp hnot)
    · rename_i hnot
      refine ⟨fun h => ?_, fun h => congrArg Except.ok h.1⟩
      cases h
      exact ⟨rfl, Bool.eq_false_iff.mpr hnot⟩
  · rename_i hother
    constructor
    · intro h
      cases h
    · exact fun h => absurd h.1 (hother type)

theorem payloadText_eq_ok {name default text : String} (h : payloadText fields name default = .ok text) :
    text = textOf fields name default := by
  unfold payloadText at h
  unfold textOf
  dsimp only at h
  split at h
  · rename_i htruthy
    obtain ⟨chars, hplain, rfl⟩ := map_eq_ok.mp h
    rw [if_pos htruthy, Value.messageText, hplain]
    rfl
  · rename_i hfalsy
    rw [if_neg hfalsy]
    exact (Except.ok.inj h).symm

theorem exists_payloadText (h : (Value.map fields).isShort = true) (name default : String) :
    ∃ text, payloadText fields name default = .ok text := by
  unfold payloadText
  dsimp only
  split
  · obtain ⟨text, htext⟩ := Value.exists_plain (Value.isShort_getD h name)
    exact ⟨_, map_eq_ok.mpr ⟨text, htext, rfl⟩⟩
  · exact ⟨_, rfl⟩

theorem payloadTime?_eq_ok_iff {name : String} {time : Option Timestamp} :
    payloadTime? fields name = .ok time ↔
      IsTime name (Value.getD fields name) ∧ time = timeOf? fields name := by
  unfold payloadTime? IsTime timeOf?
  split
  · rename_i hnull
    rw [hnull, Except.ok.injEq]
    exact ⟨fun h => ⟨Or.inl rfl, h.symm⟩, fun h => h.2.symm⟩
  · rename_i hother
    rw [or_iff_right hother, map_eq_ok]
    constructor
    · rintro ⟨t, ht, rfl⟩
      exact ⟨⟨t, ht⟩, by rw [ht]; rfl⟩
    · rintro ⟨⟨t, ht⟩, rfl⟩
      exact ⟨t, ht, by rw [ht]; rfl⟩

/-! ## Properties and metadata -/

theorem payloadProperties_eq_ok_iff {own : Fields} : payloadProperties fields = .ok own ↔
    Value.getD fields "properties" = .map own ∨
      (Value.getD fields "properties").truthy = false ∧ own = [] := by
  unfold payloadProperties
  dsimp only
  split
  · rename_i properties hmap
    rw [hmap, Value.map.injEq, Except.ok.injEq]
    -- An empty map counts as nothing, too; it is then read as what it is either way.
    refine ⟨Or.inl, ?_⟩
    rintro (h | ⟨hfalsy, rfl⟩)
    · exact h
    · exact Value.eq_nil_of_falsy hfalsy
  · rename_i hother
    rw [or_iff_right (hother own)]
    split
    · rename_i htruthy
      exact ⟨nofun, fun h => absurd htruthy (by rw [h.1]; decide)⟩
    · rename_i hfalsy
      rw [Except.ok.injEq, eq_comm]
      exact (and_iff_right (Bool.eq_false_iff.mpr hfalsy)).symm

theorem payloadMetadata_eq_ok_iff {own : Option Fields} : payloadMetadata fields = .ok own ↔
    Value.getD fields "metadata" = (own.map Value.map).getD .null := by
  unfold payloadMetadata
  split
  · rename_i hnull
    rw [hnull]
    cases own <;> simp
  · rename_i metadata hmap
    rw [hmap]
    cases own <;> simp
  · rename_i hnull hmap
    cases own with
    | none => simpa using hnull
    | some metadata => simpa using hmap metadata

/-- What stands for the properties is a map within the value model exactly if the check says so. -/
theorem isObject_properties_iff {own : Fields} (h : payloadProperties fields = .ok own) :
    ((Value.getD fields "properties").truthy = false ∨
      IsObject "properties" (Value.getD fields "properties")) ↔
        (Value.map own).check "properties" = .ok () := by
  rcases payloadProperties_eq_ok_iff.mp h with hmap | ⟨hfalsy, rfl⟩
  · rw [hmap]
    constructor
    · rintro (hfalsy | ⟨_, _, hcheck⟩)
      · rw [Value.eq_nil_of_falsy hfalsy]
        rfl
      · exact hcheck
    · exact fun hcheck => Or.inr ⟨own, rfl, hcheck⟩
  · exact ⟨fun _ => rfl, fun _ => Or.inl hfalsy⟩

theorem isObject_metadata_iff {own : Option Fields} (h : payloadMetadata fields = .ok own) :
    (Value.getD fields "metadata" = .null ∨
      IsObject "metadata" (Value.getD fields "metadata")) ↔ checkMetadata own = .ok () := by
  rw [payloadMetadata_eq_ok_iff.mp h]
  cases own with
  | none => exact ⟨fun _ => rfl, fun _ => Or.inl rfl⟩
  | some metadata =>
    refine ⟨?_, fun hcheck => Or.inr ⟨metadata, rfl, hcheck⟩⟩
    rintro (hnull | ⟨_, _, hcheck⟩)
    · cases hnull
    · exact hcheck

/-! ## All parts -/

theorem payloadParts_eq_ok_iff {parts : PayloadParts} : payloadParts fields = .ok parts ↔
    payloadProperties fields = .ok parts.properties ∧ payloadMetadata fields = .ok parts.metadata ∧
      (Value.map parts.properties).check "properties" = .ok () ∧
      checkMetadata parts.metadata = .ok () ∧
      payloadTime? fields "createdAt" = .ok parts.createdAt ∧
      payloadTime? fields "updatedAt" = .ok parts.updatedAt ∧
      payloadTime? fields "deletedAt" = .ok parts.deletedAt := by
  unfold payloadParts asInvalid
  simp only [bind_eq_ok, mapError_eq_ok]
  constructor
  · rintro ⟨properties, hp, metadata, hm, ⟨⟩, hcheckp, ⟨⟩, hcheckm, c, hc, u, hu, d, hd, h⟩
    cases h
    exact ⟨hp, hm, hcheckp, hcheckm, hc, hu, hd⟩
  · rintro ⟨hp, hm, hcheckp, hcheckm, hc, hu, hd⟩
    exact ⟨_, hp, _, hm, (), hcheckp, (), hcheckm, _, hc, _, hu, _, hd, rfl⟩

/-! ## Refusals -/

/-- Whatever is refused is refused as invalid. -/
def RefusesInvalid {α : Type} (x : Except Failure α) : Prop :=
  ∀ f, x = .error f → ∃ reason, f = .invalidEntity reason

theorem refusesInvalid_payloadType : RefusesInvalid (payloadType fields) := by
  intro f h
  unfold payloadType at h
  split at h
  · split at h
    · exact ⟨_, (Except.error.inj h).symm⟩
    · cases h
  · exact ⟨_, (Except.error.inj h).symm⟩

theorem refusesInvalid_payloadParts : RefusesInvalid (payloadParts fields) := by
  intro f h
  rcases bind_eq_error.mp h with hproperties | ⟨own, _, h⟩
  · unfold payloadProperties at hproperties
    dsimp only at hproperties
    split at hproperties
    · cases hproperties
    · split at hproperties
      · exact ⟨_, (Except.error.inj hproperties).symm⟩
      · cases hproperties
  rcases bind_eq_error.mp h with hmetadata | ⟨metadata, _, h⟩
  · unfold payloadMetadata at hmetadata
    split at hmetadata
    · cases hmetadata
    · cases hmetadata
    · exact ⟨_, (Except.error.inj hmetadata).symm⟩
  · obtain ⟨g, _, hinvalid⟩ := mapError_eq_error.mp h
    exact ⟨_, hinvalid.symm⟩

/-! ## Entities -/

theorem wellformed_and_conveys {e : Entity} (h : ofFields now fields = .ok e) :
    Wellformed (fun v => v.truthy = false) fields ∧ Conveys now fields e := by
  obtain ⟨type, htype, h⟩ := bind_eq_ok.mp h
  obtain ⟨parts, hparts, h⟩ := bind_eq_ok.mp h
  obtain ⟨id, hid, h⟩ := bind_eq_ok.mp h
  obtain ⟨version, hversion, h⟩ := bind_eq_ok.mp h
  obtain ⟨htype, hnonblank⟩ := payloadType_eq_ok_iff.mp (mapError_eq_ok.mp htype)
  obtain ⟨hp, hm, hcheckp, hcheckm, hc, hu, hd⟩ :=
    payloadParts_eq_ok_iff.mp (mapError_eq_ok.mp hparts)
  obtain ⟨hcreated, hc⟩ := payloadTime?_eq_ok_iff.mp hc
  obtain ⟨hupdated, hu⟩ := payloadTime?_eq_ok_iff.mp hu
  obtain ⟨hdeleted, hd⟩ := payloadTime?_eq_ok_iff.mp hd
  have hproperties : .map parts.properties = if (Value.getD fields "properties").truthy then
      Value.getD fields "properties" else .map [] := by
    split
    · rename_i htruthy
      rcases payloadProperties_eq_ok_iff.mp hp with hmap | ⟨hfalsy, _⟩
      · exact hmap.symm
      · exact absurd htruthy (by rw [hfalsy]; decide)
    · rename_i hfalsy
      rcases payloadProperties_eq_ok_iff.mp hp with hmap | ⟨_, hnil⟩
      · rw [hmap, Bool.not_eq_true] at hfalsy
        rw [Value.eq_nil_of_falsy hfalsy]
      · rw [hnil]
  cases h
  refine ⟨⟨⟨type, htype, hnonblank⟩, (isObject_properties_iff hp).mpr hcheckp,
    (isObject_metadata_iff hm).mpr hcheckm, hcreated, hupdated, hdeleted⟩, ?_⟩
  refine ⟨?_, htype.symm, hproperties, (payloadMetadata_eq_ok_iff.mp hm).symm, rfl, ?_, rfl, ?_, ?_,
    rfl, rfl, rfl, ?_, rfl⟩
  · rw [payloadText_eq_ok hid]
  · rw [payloadText_eq_ok hversion]
  · rw [hc]
  · rw [hc, hu]
  · rw [hd]

theorem exists_entity (hshort : (Value.map fields).isShort = true)
    (h : Wellformed (fun v => v.truthy = false) fields) : ∃ e, ofFields now fields = .ok e := by
  obtain ⟨type, htype⟩ := h.type
  have hproperties : ∃ own, payloadProperties fields = .ok own := by
    rcases h.properties with hfalsy | ⟨own, hmap, _⟩
    · exact ⟨[], payloadProperties_eq_ok_iff.mpr (Or.inr ⟨hfalsy, rfl⟩)⟩
    · exact ⟨own, payloadProperties_eq_ok_iff.mpr (Or.inl hmap)⟩
  have hmetadata : ∃ own, payloadMetadata fields = .ok own := by
    rcases h.metadata with hnull | ⟨own, hmap, _⟩
    · exact ⟨none, payloadMetadata_eq_ok_iff.mpr hnull⟩
    · exact ⟨some own, payloadMetadata_eq_ok_iff.mpr hmap⟩
  obtain ⟨properties, hp⟩ := hproperties
  obtain ⟨metadata, hm⟩ := hmetadata
  have hparts : payloadParts fields = .ok ⟨properties, metadata, timeOf? fields "createdAt",
      timeOf? fields "updatedAt", timeOf? fields "deletedAt"⟩ :=
    payloadParts_eq_ok_iff.mpr ⟨hp, hm, (isObject_properties_iff hp).mp h.properties,
      (isObject_metadata_iff hm).mp h.metadata, payloadTime?_eq_ok_iff.mpr ⟨h.createdAt, rfl⟩,
      payloadTime?_eq_ok_iff.mpr ⟨h.updatedAt, rfl⟩, payloadTime?_eq_ok_iff.mpr ⟨h.deletedAt, rfl⟩⟩
  obtain ⟨id, hid⟩ := exists_payloadText hshort "id" ""
  obtain ⟨version, hversion⟩ := exists_payloadText hshort "version" "1.0"
  exact ⟨_, bind_eq_ok.mpr ⟨type, mapError_eq_ok.mpr (payloadType_eq_ok_iff.mpr htype),
    bind_eq_ok.mpr ⟨_, mapError_eq_ok.mpr hparts, bind_eq_ok.mpr ⟨id, hid,
      bind_eq_ok.mpr ⟨version, hversion, rfl⟩⟩⟩⟩⟩

theorem invalid_of_refused (hshort : (Value.map fields).isShort = true) {f : Fault}
    (h : ofFields now fields = .error f) : ∃ reason, f = .named (.invalidEntity reason) := by
  rcases bind_eq_error.mp h with htype | ⟨_, _, h⟩
  · obtain ⟨g, hg, rfl⟩ := mapError_eq_error.mp htype
    obtain ⟨reason, rfl⟩ := refusesInvalid_payloadType g hg
    exact ⟨reason, rfl⟩
  rcases bind_eq_error.mp h with hparts | ⟨_, _, h⟩
  · obtain ⟨g, hg, rfl⟩ := mapError_eq_error.mp hparts
    obtain ⟨reason, rfl⟩ := refusesInvalid_payloadParts g hg
    exact ⟨reason, rfl⟩
  -- What is left to do is to write identifier and version, which have texts since integers are short.
  rcases bind_eq_error.mp h with hid | ⟨_, _, h⟩
  · obtain ⟨text, htext⟩ := exists_payloadText hshort "id" ""
    cases htext.symm.trans hid
  rcases bind_eq_error.mp h with hversion | ⟨_, _, h⟩
  · obtain ⟨text, htext⟩ := exists_payloadText hshort "version" "1.0"
    cases htext.symm.trans hversion
  · cases h

/-- A value all of whose integers are short becomes an entity exactly if it is a payload as it should be,
but for properties that count as nothing; the entity has what the payload conveys, and any other value is
refused as invalid. -/
theorem ofPayload_taken_iff {v : Value} (hshort : v.isShort = true) (now : Timestamp) :
    ((∃ e, ofPayload now v = .ok e) ↔
      ∃ fields, v = .map fields ∧ Wellformed (fun w => w.truthy = false) fields) ∧
    (∀ e, ofPayload now v = .ok e → ∃ fields, v = .map fields ∧ Conveys now fields e) ∧
    ∀ f, ofPayload now v = .error f → ∃ reason, f = .named (.invalidEntity reason) := by
  by_cases hmap : ∃ fields, v = .map fields
  · obtain ⟨fields, rfl⟩ := hmap
    refine ⟨⟨?_, ?_⟩, ?_, fun f h => invalid_of_refused hshort h⟩
    · rintro ⟨e, he⟩
      exact ⟨fields, rfl, (wellformed_and_conveys he).1⟩
    · rintro ⟨_, hfields, hwell⟩
      cases hfields
      exact exists_entity hshort hwell
    · exact fun e he => ⟨fields, rfl, (wellformed_and_conveys he).2⟩
  · have hrefused : ofPayload now v =
        .error (.named (.invalidEntity "payload must be a mapping")) := by
      unfold ofPayload
      split
      · exact absurd ⟨_, rfl⟩ hmap
      · rfl
    rw [hrefused]
    refine ⟨⟨?_, ?_⟩, nofun, fun f h => ⟨_, (Except.error.inj h).symm⟩⟩
    · rintro ⟨e, he⟩
      cases he
    · rintro ⟨fields, hfields, _⟩
      exact absurd ⟨fields, hfields⟩ hmap

/-- A note with the given properties. -/
def notePayload (properties : Value) : Fields :=
  [(.str "id", .int 7), (.str "type", .str "Note"), (.str "properties", properties),
    (.str "createdAt", .str "2024-03-14")]

def noon : Timestamp := ⟨⟨2024, 5, 17, by decide⟩, ⟨12, 0, 0, 0, by decide⟩, some utc⟩

theorem ofPayload_taken_iff_sample :
    (Value.map (notePayload (.map [(.str "status", .str "open")]))).isShort = true ∧
      (∃ e, ofPayload noon (.map (notePayload (.map [(.str "status", .str "open")]))) = .ok e ∧
        Conveys noon (notePayload (.map [(.str "status", .str "open")])) e) ∧
      (Value.map (notePayload (.list [.int 7]))).isShort = true ∧
      ∃ reason, ofPayload noon (.map (notePayload (.list [.int 7]))) =
        .error (.named (.invalidEntity reason)) := by
  have hopen : (Value.map (notePayload (.map [(.str "status", .str "open")]))).isShort = true := by
    decide +kernel
  have hlist : (Value.map (notePayload (.list [.int 7]))).isShort = true := by decide +kernel
  obtain ⟨htaken, hconveys, _⟩ := ofPayload_taken_iff hopen noon
  obtain ⟨htaken', _, hinvalid⟩ := ofPayload_taken_iff hlist noon
  have hwell : Wellformed (fun w => w.truthy = false)
      (notePayload (.map [(.str "status", .str "open")])) := by
    refine ⟨⟨"Note", rfl, by decide⟩, Or.inr ⟨_, rfl, rfl⟩, Or.inl rfl, Or.inr ?_, Or.inl rfl, Or.inl rfl⟩
    exact exists_eq_ok (by decide +kernel)
  obtain ⟨e, he⟩ := htaken.mpr ⟨_, rfl, hwell⟩
  obtain ⟨_, hfields, htold⟩ := hconveys e he
  cases hfields
  refine ⟨hopen, ⟨e, he, htold⟩, hlist, ?_⟩
  cases hread : ofPayload noon (.map (notePayload (.list [.int 7]))) with
  | ok e' =>
    obtain ⟨_, hfields, hwell'⟩ := htaken'.mp ⟨e', hread⟩
    cases hfields
    rcases hwell'.properties with hfalsy | ⟨_, hmap, _⟩
    · cases hfalsy
    · cases hmap
  | error f =>
    obtain ⟨reason, rfl⟩ := hinvalid f hread
    exact ⟨reason, rfl⟩

/-- An empty list is taken for no properties, though it is neither nothing nor a map. -/
theorem takes_empty_list :
    (Value.map (notePayload (.list []))).isShort = true ∧
      (∃ e, ofPayload noon (.map (notePayload (.list []))) = .ok e ∧ e.properties = .map []) ∧
      ¬Wellformed (fun w => w = .null) (notePayload (.list [])) := by
  refine ⟨by decide +kernel, ⟨_, rfl, rfl⟩, fun hwell => ?_⟩
  rcases hwell.properties with hnull | ⟨_, hmap, _⟩
  · cases hnull
  · cases hmap

end Entity

end ConsentGate
