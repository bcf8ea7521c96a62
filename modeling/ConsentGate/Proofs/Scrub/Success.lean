import ConsentGate.Proofs.Scrub.Pruning

/-! When an entity can be scrubbed, and what its audit holds then.

An entity is scrubbed exactly if it has a type, can be copied, has maps for properties and metadata whose
keys have texts, and attributes that can be hashed or dated (`scrub_eq_ok_iff`). The trail of the audit
is that of the properties with that of the metadata behind it; `PartAt` names the two parts by the roots
of their paths. -/
namespace ConsentGate.Scrub
open Text
set_option autoImplicit false

variable {s : Scrubber} {e : Entity} {entityType : Value} {l : Level} {out : Scrubbed}

/-! ## Fields -/

/-- A field of the map at a path, scrubbed on its own. -/
def scrubAlone (c : Context) (path : String) (name : List Char) (v : Value) :
    Attempt (Option Value) :=
  scrubField c name (Value.fieldPath path (String.ofList name)) v fun _ =>
    scrubValue c name (Value.fieldPath path (String.ofList name)) v

theorem scrubFields_cons (c : Context) (path : String) {key : Value} {name : List Char}
    (hname : key.plain = .ok name) (v : Value) (rest : Fields) :
    scrubFields c path ((key, v) :: rest) =
      ⟨(scrubFields c path rest).result.map ((settle c key
          (Value.fieldPath path (String.ofList name)) (scrubAlone c path name v)).1 ++ ·),
        (settle c key (Value.fieldPath path (String.ofList name)) (scrubAlone c path name v)).2.join
          (scrubFields c path rest).trail⟩ := by
  rw [scrubFields, hname]
  rfl

theorem scrubFields_cons_of_error (c : Context) (path : String) {key : Value} {f : Fault}
    (hname : key.plain = .error f) (v : Value) (rest : Fields) :
    scrubFields c path ((key, v) :: rest) = .fail f := by
  rw [scrubFields, hname]

/-- A map comes through exactly if each of its keys has a text. -/
theorem exists_scrubFields_iff {c : Context} {path : String} {fields : Fields} :
    (∃ kept, (scrubFields c path fields).result = .ok kept) ↔
      ∀ field ∈ fields, ∃ name, field.1.plain = .ok name := by
  induction fields with
  | nil => simp [scrubFields, Attempt.ok]
  | cons field rest ih =>
    obtain ⟨key, v⟩ := field
    rw [List.forall_mem_cons, ← ih]
    cases hname : key.plain with
    | error f => simp [scrubFields_cons_of_error c path hname, Attempt.fail]
    | ok name =>
      rw [scrubFields_cons c path hname]
      cases (scrubFields c path rest).result <;> simp [Except.map]

/-! ## Entities -/

/-- The trail that properties and metadata leave, one behind the other. -/
def partsTrail (c : Context) (properties metadata : Fields) : Trail :=
  (scrubFields c "properties" properties).trail.join (scrubFields c "metadata" metadata).trail

theorem scrubParts_of_ok {c : Context} {properties metadata keptProperties keptMetadata : Fields}
    (hproperties : (scrubFields c "properties" properties).result = .ok keptProperties)
    (hmetadata : (scrubFields c "metadata"
      (metadata.filter fun field => !isProvenanceKey field.1)).result = .ok keptMetadata) :
    Scrubber.scrubParts c properties metadata = ⟨.ok (keptProperties, keptMetadata),
      partsTrail c properties (metadata.filter fun field => !isProvenanceKey field.1)⟩ := by
  unfold Scrubber.scrubParts partsTrail
  rw [Attempt.andThen_of_ok hproperties]
  simp only [Attempt.map, hmetadata]
  rfl

theorem exists_parts {properties : Fields} (typeText : String)
    (hproperties : e.properties = .map properties)
    (hmetadata : e.metadata = .null ∨ ∃ metadata, e.metadata = .map metadata) :
    ∃ metadata, Scrubber.parts? e typeText = .ok (properties, metadata) ∧
      metadata.filter (fun field => !isProvenanceKey field.1) = ownFields e.metadata := by
  rcases hmetadata with hnull | ⟨metadata, hmap⟩
  · exact ⟨[], by simp only [Scrubber.parts?, hproperties, hnull], by rw [hnull]; rfl⟩
  · exact ⟨metadata, by simp only [Scrubber.parts?, hproperties, hmap], by rw [hmap]; rfl⟩

theorem truthy_of_scrub (h : (s.scrub (some e) entityType (.level l)).1 = .ok out) :
    entityType.truthy = true ∧ e.copyable = true := by
  unfold Scrubber.scrub Scrubber.scrubAs at h
  split at h
  · cases h
  · rename_i haccept
    refine ⟨?_, (accept_eq_ok haccept).2.2.1⟩
    unfold Scrubber.accept at haccept
    dsimp only at haccept
    split at haccept
    · cases haccept
    · rename_i htruthy
      simpa using htruthy

/-- Where the parts of an entity are scrubbed, the result is what is put together from what is left of
them and their trail. -/
theorem scrubAs_eq_assemble (identity : Entity → Identity)
    {properties keptProperties keptMetadata : Fields} (htype : entityType.truthy = true)
    (hcopy : e.copyable = true) (hproperties : e.properties = .map properties)
    (hmetadata : e.metadata = .null ∨ ∃ metadata, e.metadata = .map metadata)
    (hp : (scrubFields (s.contextOf (identity e) entityType.messageText l) "properties"
      properties).result = .ok keptProperties)
    (hm : (scrubFields (s.contextOf (identity e) entityType.messageText l) "metadata"
      (ownFields e.metadata)).result = .ok keptMetadata) :
    (s.scrubAs identity (some e) entityType (.level l)).1 =
      s.assemble (identity e) (s.contextOf (identity e) entityType.messageText l) e entityType
        (partsTrail (s.contextOf (identity e) entityType.messageText l) properties
          (ownFields e.metadata)) keptProperties keptMetadata := by
  obtain ⟨metadata, hparts, hown⟩ := exists_parts entityType.messageText hproperties hmetadata
  rw [← hown] at hm ⊢
  simp only [Scrubber.scrubAs, Scrubber.accept, htype, hcopy, hparts, Bool.not_true,
    Bool.false_eq_true, if_false, if_true, bind, Except.bind, pure, Except.pure,
    Scrubber.scrubMaps, scrubParts_of_ok hp hm]
  split
  · rename_i herror
    exact herror.symm
  · rename_i hok
    exact hok.symm

theorem scrub_eq_assemble {properties keptProperties keptMetadata : Fields}
    (htype : entityType.truthy = true) (hcopy : e.copyable = true)
    (hproperties : e.properties = .map properties)
    (hmetadata : e.metadata = .null ∨ ∃ metadata, e.metadata = .map metadata)
    (hp : (scrubFields (s.context e entityType.messageText l) "properties" properties).result =
      .ok keptProperties)
    (hm : (scrubFields (s.context e entityType.messageText l) "metadata"
      (ownFields e.metadata)).result = .ok keptMetadata) :
    (s.scrub (some e) entityType (.level l)).1 =
      s.assemble (s.identity e) (s.context e entityType.messageText l) e entityType
        (partsTrail (s.context e entityType.messageText l) properties (ownFields e.metadata))
        keptProperties keptMetadata :=
  scrubAs_eq_assemble s.identity htype hcopy hproperties hmetadata hp hm

/-- An entity is scrubbed exactly if its parts are, and if the result can be put together from what is
left of them and their trail. -/
theorem scrub_eq_ok_iff :
    (s.scrub (some e) entityType (.level l)).1 = .ok out ↔
      entityType.truthy = true ∧ e.copyable = true ∧
        ∃ properties keptProperties keptMetadata, e.properties = .map properties ∧
          (e.metadata = .null ∨ ∃ metadata, e.metadata = .map metadata) ∧
          (scrubFields (s.context e entityType.messageText l) "properties" properties).result =
            .ok keptProperties ∧
          (scrubFields (s.context e entityType.messageText l) "metadata"
            (ownFields e.metadata)).result = .ok keptMetadata ∧
          s.assemble (s.identity e) (s.context e entityType.messageText l) e entityType
            (partsTrail (s.context e entityType.messageText l) properties (ownFields e.metadata))
            keptProperties keptMetadata = .ok out := by
  constructor
  · intro h
    obtain ⟨htype, hcopy⟩ := truthy_of_scrub h
    obtain ⟨w⟩ := exists_whole h
    refine ⟨htype, hcopy, w.properties, w.keptProperties, w.keptMetadata, w.propertiesAre,
      w.metadataIs, w.scrubProperties, w.scrubMetadata, ?_⟩
    rw [← scrub_eq_assemble htype hcopy w.propertiesAre w.metadataIs w.scrubProperties
      w.scrubMetadata, h]
  · rintro ⟨htype, hcopy, properties, keptProperties, keptMetadata, hproperties, hmetadata, hp, hm,
      hassemble⟩
    rw [scrub_eq_assemble htype hcopy hproperties hmetadata hp hm, hassemble]

/-- What is put together if the identifiers can be hashed and the attributes dated. -/
theorem exists_assemble {c : Context} {tenantHash id : String} {createdAt updatedAt deletedAt : Value}
    {who : Identity} (htenant : who.tenantHash = .ok tenantHash) (hid : who.idHash = .ok id)
    (hcreated : baseTime c.level e.createdAt = .ok createdAt)
    (hupdated : baseTime c.level e.updatedAt = .ok updatedAt)
    (hdeleted : baseTime c.level e.deletedAt = .ok deletedAt) (entityType : Value) (trail : Trail)
    (properties metadata : Fields) :
    ∃ out, s.assemble who c e entityType trail properties metadata = .ok out ∧
      out.properties = .map properties ∧
      out.metadata = .map (metadata ++ s.provenance entityType c.level tenantHash) ∧
      out.audit.trail = trail := by
  unfold Scrubber.assemble
  rw [htenant, hid, hcreated, hupdated, hdeleted]
  exact ⟨_, rfl, rfl, rfl, rfl⟩

/-! ## Parts -/

/-- A part of a scrubbed entity, with the root of its paths and the entity's own part that it was made
of: the properties, or the metadata except for what tells how the entity was scrubbed. -/
def PartAt (root : String) (e : Entity) (out : Scrubbed) (own part : Value) : Prop :=
  (root = "properties" ∧ own = e.properties ∧ part = out.properties) ∨
    (root = "metadata" ∧ own = .map (ownFields e.metadata) ∧
      part = .map (ownFields out.metadata))

theorem trail_of_assemble {who : Identity} {c : Context} {trail : Trail}
    {properties metadata : Fields}
    (h : s.assemble who c e entityType trail properties metadata = .ok out) :
    out.audit.trail = trail := by
  unfold Scrubber.assemble at h
  obtain ⟨_, _, h⟩ := bind_eq_ok.mp h
  obtain ⟨_, _, h⟩ := bind_eq_ok.mp h
  obtain ⟨_, _, h⟩ := bind_eq_ok.mp h
  obtain ⟨_, _, h⟩ := bind_eq_ok.mp h
  obtain ⟨_, _, h⟩ := bind_eq_ok.mp h
  cases h
  rfl

theorem Whole.trail_eq (w : Whole s e entityType l out)
    (h : (s.scrub (some e) entityType (.level l)).1 = .ok out) :
    out.audit.trail = partsTrail (s.context e entityType.messageText l) w.properties
      (ownFields e.metadata) := by
  obtain ⟨_, _, properties, _, _, hproperties, _, _, _, hassemble⟩ := scrub_eq_ok_iff.mp h
  rw [w.propertiesAre] at hproperties
  cases hproperties
  exact trail_of_assemble hassemble

/-- Each part is made of the fields of the entity's own part. -/
theorem PartAt.scrubbed {root : String} {own part : Value}
    (h : (s.scrub (some e) entityType (.level l)).1 = .ok out) (hpart : PartAt root e out own part) :
    ∃ fields kept, own = .map fields ∧ part = .map kept ∧
      (scrubFields (s.context e entityType.messageText l) root fields).result = .ok kept := by
  obtain ⟨w⟩ := exists_whole h
  rcases hpart with ⟨rfl, rfl, rfl⟩ | ⟨rfl, rfl, rfl⟩
  · exact ⟨w.properties, w.keptProperties, w.propertiesAre, w.outProperties, w.scrubProperties⟩
  · exact ⟨ownFields e.metadata, w.keptMetadata, rfl, by rw [w.ownFields_metadata],
      w.scrubMetadata⟩

end ConsentGate.Scrub
