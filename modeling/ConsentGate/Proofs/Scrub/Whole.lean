import ConsentGate.Proofs.Scrub.Fields

/-! What a scrubbed entity is made of.

`Whole` holds everything that must have gone well for an entity to be scrubbed, and where each attribute
of the result comes from. A result of `Scrubber.scrub` always comes with one (`exists_whole`). -/
namespace ConsentGate.Scrub
open Text
set_option autoImplicit false

/-- The fields of metadata that do not tell how an entity was scrubbed. -/
def ownFields : Value → Fields
  | .map fields => fields.filter fun field => !isProvenanceKey field.1
  | _ => []

/-- The source as a result shows it: a text that names the entity or its tenant is left out. -/
def sourceShown (c : Context) : Value → Value
  | .str text => if c.referencesIdentity text then .null else .str text
  | v => v

/-- The scrubbing of an entity as a whole: its parts, what is left of them, and the attributes. -/
structure Whole (s : Scrubber) (e : Entity) (entityType : Value) (l : Level) (out : Scrubbed) where
  properties : Fields
  keptProperties : Fields
  keptMetadata : Fields
  tenantHash : String
  propertiesAre : e.properties = .map properties
  metadataIs : e.metadata = .null ∨ ∃ metadata, e.metadata = .map metadata
  scrubProperties : (scrubFields (s.context e entityType.messageText l) "properties"
    properties).result = .ok keptProperties
  scrubMetadata : (scrubFields (s.context e entityType.messageText l) "metadata"
    (ownFields e.metadata)).result = .ok keptMetadata
  hashTenant : s.hasher.hashTenant e.tenantId = .ok tenantHash
  outId : ∃ id, s.hasher.hashIdentifier e.id e.tenantId = .ok id ∧ out.id = .str id
  outType : out.type = e.type
  outProperties : out.properties = .map keptProperties
  outMetadata : out.metadata = .map (keptMetadata ++ s.provenance entityType l tenantHash)
  outVersion : out.version = e.version
  outSource : out.source = sourceShown (s.context e entityType.messageText l) e.source
  outCreatedAt : baseTime l e.createdAt = .ok out.createdAt
  outUpdatedAt : baseTime l e.updatedAt = .ok out.updatedAt
  outIsDeleted : out.isDeleted = e.isDeleted
  outDeletedAt : baseTime l e.deletedAt = .ok out.deletedAt

variable {s : Scrubber} {e : Entity} {entityType : Value} {l : Level} {out : Scrubbed}

/-- An entity with parts has a map of properties, and metadata that are a map or nothing. -/
theorem parts?_eq_ok {typeText : String} {properties metadata : Fields}
    (h : Scrubber.parts? e typeText = .ok (properties, metadata)) :
    e.properties = .map properties ∧ (e.metadata = .null ∨ ∃ m, e.metadata = .map m) ∧
      metadata.filter (fun field => !isProvenanceKey field.1) = ownFields e.metadata := by
  unfold Scrubber.parts? at h
  split at h
  · rename_i fields hfields
    split at h
    · rename_i m hm
      cases h
      exact ⟨hfields, Or.inr ⟨metadata, hm⟩, by rw [hm]; rfl⟩
    · rename_i hm
      cases h
      exact ⟨hfields, Or.inl hm, by rw [hm]; rfl⟩
    · cases h
  · cases h

theorem scrubParts_eq_ok {c : Context} {properties metadata keptProperties keptMetadata : Fields}
    (h : (Scrubber.scrubParts c properties metadata).result = .ok (keptProperties, keptMetadata)) :
    (scrubFields c "properties" properties).result = .ok keptProperties ∧
      (scrubFields c "metadata"
        (metadata.filter fun field => !isProvenanceKey field.1)).result = .ok keptMetadata := by
  unfold Scrubber.scrubParts at h
  obtain ⟨kept, hkept, h⟩ := Attempt.result_andThen_eq_ok.mp h
  obtain ⟨keptMeta, hkeptMeta, h⟩ := map_eq_ok.mp h
  cases h
  exact ⟨hkept, hkeptMeta⟩

theorem accept_eq_ok {e' : Entity} {l' : Level} {properties metadata : Fields}
    (h : Scrubber.accept (some e) entityType (.level l) = .ok (e', l', properties, metadata)) :
    e' = e ∧ l' = l ∧ e.copyable = true ∧
      Scrubber.parts? e entityType.messageText = .ok (properties, metadata) := by
  unfold Scrubber.accept at h
  dsimp only at h
  split at h
  · cases h
  · obtain ⟨parts, hparts, h⟩ := bind_eq_ok.mp h
    split at h
    · rename_i hcopyable
      cases h
      exact ⟨rfl, rfl, hcopyable, hparts⟩
    · cases h

theorem scrubMaps_eq_ok {properties metadata : Fields}
    (h : (s.scrubMaps (s.identity e) e entityType l properties metadata).1 = .ok out) :
    ∃ keptProperties keptMetadata trail,
      (Scrubber.scrubParts (s.context e entityType.messageText l) properties metadata).result =
        .ok (keptProperties, keptMetadata) ∧
      s.assemble (s.identity e) (s.context e entityType.messageText l) e entityType trail keptProperties
        keptMetadata = .ok out := by
  unfold Scrubber.scrubMaps at h
  dsimp only at h
  split at h
  · cases h
  · rename_i keptProperties keptMetadata hkept
    split at h
    · cases h
    · rename_i hassemble
      cases h
      exact ⟨keptProperties, keptMetadata, _, hkept, hassemble⟩

theorem exists_whole (h : (s.scrub (some e) entityType (.level l)).1 = .ok out) :
    Nonempty (Whole s e entityType l out) := by
  unfold Scrubber.scrub Scrubber.scrubAs at h
  split at h
  · cases h
  · rename_i e' l' properties metadata haccept
    obtain ⟨rfl, rfl, _, hparts⟩ := accept_eq_ok haccept
    obtain ⟨hproperties, hmetadata, hown⟩ := parts?_eq_ok hparts
    obtain ⟨keptProperties, keptMetadata, trail, hkept, hassemble⟩ := scrubMaps_eq_ok h
    obtain ⟨hkeptProperties, hkeptMetadata⟩ := scrubParts_eq_ok hkept
    rw [hown] at hkeptMetadata
    unfold Scrubber.assemble at hassemble
    obtain ⟨tenantHash, htenant, hassemble⟩ := bind_eq_ok.mp hassemble
    obtain ⟨id, hid, hassemble⟩ := bind_eq_ok.mp hassemble
    obtain ⟨createdAt, hcreated, hassemble⟩ := bind_eq_ok.mp hassemble
    obtain ⟨updatedAt, hupdated, hassemble⟩ := bind_eq_ok.mp hassemble
    obtain ⟨deletedAt, hdeleted, hassemble⟩ := bind_eq_ok.mp hassemble
    cases hassemble
    exact ⟨{
      properties := properties
      keptProperties := keptProperties
      keptMetadata := keptMetadata
      tenantHash := tenantHash
      propertiesAre := hproperties
      metadataIs := hmetadata
      scrubProperties := hkeptProperties
      scrubMetadata := hkeptMetadata
      hashTenant := htenant
      outId := ⟨id, hid, rfl⟩
      outType := rfl
      outProperties := rfl
      outMetadata := rfl
      outVersion := rfl
      outSource := by cases e'.source <;> rfl
      outCreatedAt := hcreated
      outUpdatedAt := hupdated
      outIsDeleted := rfl
      outDeletedAt := hdeleted }⟩

end ConsentGate.Scrub
