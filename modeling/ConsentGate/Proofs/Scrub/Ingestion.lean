import ConsentGate.Proofs.Entity.Payloads
import ConsentGate.Proofs.Hasher.Identities
import ConsentGate.Proofs.Scrub.Levels
import ConsentGate.Proofs.Scrub.Settled

/-! Which of the entities that are taken in can be scrubbed.

Reading a payload sees to almost all that scrubbing asks for: an entity that was read has a type, maps
within the value model, an identifier that is a text and times that are timestamps
(`Entity.Conveys.usable`). Such an entity is scrubbed exactly if its tenant and its identifier can be
hashed (`hashed_of_usable`). The tenant it takes as it comes, but only a text can be hashed; and a text,
be it the tenant or the identifier, can be hashed only if there is no surrogate in it
(`scrubs_payload_iff`). -/
namespace ConsentGate
open Calendar Text
set_option autoImplicit false

/-! ## Hashes -/

namespace Hasher

/-- The value is a text, or counts as nothing. -/
def CanHash (v : Value) : Prop := v.truthy = true → v.isStr = true

theorem exists_hashTenant_of_canHash (h : Hasher) {tenant : Value} (ht : CanHash tenant) :
    ∃ hash, h.hashTenant tenant = .ok hash := by
  unfold hashTenant hashIdentifier
  split
  · rename_i htruthy
    obtain ⟨s, rfl⟩ := Value.isStr_iff.mp (ht htruthy)
    exact ⟨_, rfl⟩
  · exact ⟨_, rfl⟩

theorem hashTenant_of_not_canHash (h : Hasher) {tenant : Value} (ht : ¬CanHash tenant) :
    h.hashTenant tenant = .error .noSuchMember := by
  obtain ⟨htruthy, hother⟩ := Classical.not_imp.mp ht
  unfold hashTenant hashIdentifier identifierText
  rw [if_pos htruthy, if_neg (by decide)]
  cases tenant with
  | str s => exact absurd rfl hother
  | _ => rfl

/-- An identifier that is a text can be hashed for each tenant that can be hashed itself. -/
theorem exists_hashIdentifier (h : Hasher) (id : String) {tenant : Value} (ht : CanHash tenant) :
    ∃ hash, h.hashIdentifier (.str id) tenant = .ok hash := by
  unfold hashIdentifier identifierText
  split
  · split
    · rename_i htruthy
      obtain ⟨s, rfl⟩ := Value.isStr_iff.mp (ht htruthy)
      exact ⟨_, rfl⟩
    · exact ⟨_, rfl⟩
  · exact ⟨_, rfl⟩

variable {id tenant : List CodePoint}

theorem exists_hashCodes (h : Hasher) (hid : ¬HasSurrogate id) (htenant : ¬HasSurrogate tenant) :
    ∃ hash, h.hashCodes id tenant = .ok hash := by
  unfold hashCodes
  split
  · exact ⟨_, rfl⟩
  · have hwhole : ¬HasSurrogate (if tenant.isEmpty then id else id ++ .char ':' :: tenant) := by
      rintro ⟨p, hp, hnone⟩
      split at hp
      · exact hid ⟨p, hp, hnone⟩
      · rcases List.mem_append.mp hp with hp | hp
        · exact hid ⟨p, hp, hnone⟩
        · rcases List.mem_cons.mp hp with rfl | hp
          · cases hnone
          · exact htenant ⟨p, hp, hnone⟩
    obtain ⟨s, hs⟩ := Option.ne_none_iff_exists'.mp (mt characters?_eq_none.mp hwhole)
    exact ⟨_, by rw [digestCodes, hs]⟩

theorem hashCodes_of_hasSurrogate (h : Hasher) (hid : id ≠ [])
    (hsurrogate : HasSurrogate id ∨ HasSurrogate tenant) :
    h.hashCodes id tenant = .error (.external "UnicodeEncodeError") := by
  have hwhole : HasSurrogate (if tenant.isEmpty then id else id ++ .char ':' :: tenant) := by
    rcases hsurrogate with ⟨p, hp, hnone⟩ | ⟨p, hp, hnone⟩
    · refine ⟨p, ?_, hnone⟩
      split
      · exact hp
      · exact List.mem_append_left _ hp
    · refine ⟨p, ?_, hnone⟩
      rw [if_neg fun hempty => List.ne_nil_of_mem hp (List.isEmpty_iff.mp hempty)]
      exact List.mem_append_right _ (List.mem_cons_of_mem _ hp)
  rw [hashCodes, if_neg fun hempty => hid (List.isEmpty_iff.mp hempty), digestCodes,
    characters?_eq_none.mpr hwhole]

/-- Texts of characters are hashed as texts of code points like anywhere else. -/
theorem hashCodes_map_char (h : Hasher) (id : String) {tenant : Value} (htenant : IsTenant tenant) :
    h.hashCodes (id.toList.map .char) (tenant.textD.toList.map .char) =
      h.hashIdentifier (.str id) tenant := by
  by_cases hid : id = ""
  · rw [hid]
    rfl
  · have hchars : id.toList ≠ [] := by simpa using hid
    have htruthy : (Value.str id).truthy = true := by simpa [Value.truthy] using hid
    have htext : (if (tenant.textD.toList.map CodePoint.char).isEmpty then id.toList.map .char
        else id.toList.map .char ++ .char ':' :: tenant.textD.toList.map .char) =
          (id.toList ++ tenantPart tenant.textD.toList).map CodePoint.char := by
      cases htext : tenant.textD.toList <;> simp [tenantPart]
    rw [hashCodes, if_neg (by simpa using hchars), htext, digestCodes, characters?_map_char,
      hashIdentifier, if_pos htruthy, identifierText_eq htenant]
    rfl

end Hasher

/-! ## Entities from payloads -/

theorem Value.copyable_getD {fields : Fields} (h : (Value.map fields).copyable = true)
    (name : String) : (Value.getD fields name).copyable = true := by
  rcases Value.getD_cases fields name with hnull | ⟨field, hmem, hfield⟩
  · rw [hnull]
    rfl
  · rw [hfield]
    exact (Value.fieldsCopyable_iff.mp h field hmem).2

namespace Entity

/-- An entity that can be scrubbed but for its tenant. -/
structure Usable (e : Entity) : Prop where
  copyable : e.copyable = true
  type : e.type.truthy = true
  properties : ∃ own, e.properties = .map own ∧ (Value.map own).Supported
  metadata : e.metadata = .null ∨ ∃ own, e.metadata = .map own ∧ (Value.map own).Supported
  id : ∃ id, e.id = .str id
  times : ∀ v ∈ [e.createdAt, e.updatedAt, e.deletedAt], ∃ time, v = .ofTime time

variable {fields : Fields} {now : Timestamp} {e : Entity}

theorem Conveys.usable (h : Conveys now fields e)
    (hwell : Wellformed (fun v => v.truthy = false) fields)
    (hcopy : (Value.map fields).copyable = true) : e.Usable := by
  have hcopied := Value.copyable_getD hcopy
  obtain ⟨s, hs, hnonblank⟩ := hwell.type
  have hproperties : ∃ own, e.properties = .map own ∧ (Value.map own).Supported := by
    rw [h.properties]
    split
    · rename_i htruthy
      rcases hwell.properties with hfalsy | ⟨own, hmap, hcheck⟩
      · exact absurd htruthy (by rw [hfalsy]; decide)
      · exact ⟨own, hmap, _, hmap ▸ hcheck⟩
    · exact ⟨[], rfl, "", rfl⟩
  refine ⟨?_, ?_, hproperties, ?_, ⟨_, h.id⟩, ?_⟩
  · have hkept : e.properties.copyable = true := by
      rw [h.properties]
      split
      · exact hcopied _
      · rfl
    have hdeleted : (Value.ofTime (timeOf? fields "deletedAt")).copyable = true := by
      cases timeOf? fields "deletedAt" <;> rfl
    rw [copyable, attributes, h.id, h.type, h.metadata, h.tenantId, h.version, h.source, h.createdAt,
      h.updatedAt, h.createdBy, h.updatedBy, h.isDeleted, h.deletedAt, h.deletedBy]
    simp [hcopied, hkept, hdeleted, Value.copyable]
  · rw [h.type, hs]
    refine bne_iff_ne.mpr fun hempty => ?_
    rw [hempty] at hnonblank
    cases hnonblank
  · rw [h.metadata]
    rcases hwell.metadata with hnull | ⟨own, hmap, hcheck⟩
    · exact Or.inl hnull
    · exact Or.inr ⟨own, hmap, _, hmap ▸ hcheck⟩
  · simp only [List.forall_mem_cons, h.createdAt, h.updatedAt, h.deletedAt]
    exact ⟨⟨some _, rfl⟩, ⟨some _, rfl⟩, ⟨_, rfl⟩, fun _ hv => absurd hv List.not_mem_nil⟩

end Entity

namespace Scrub

variable {e : Entity}

theorem exists_baseTime (l : Level) (time : Option Timestamp) :
    ∃ v, baseTime l (.ofTime time) = .ok v := by
  cases l <;> cases time <;> exact ⟨_, rfl⟩

/-- Whether the tenant and the identifier can be hashed. -/
def Identity.hashed (who : Identity) : Except Fault Unit := do
  let _ ← who.tenantHash
  let _ ← who.idHash

/-- A usable entity is scrubbed if its tenant and its identifier can be hashed, and otherwise the attempt to
hash them is what fails. -/
theorem hashed_of_usable (h : e.Usable) (s : Scrubber) (l : Level) (identity : Entity → Identity) :
    (s.scrubAs identity (some e) e.type (.level l)).1.map (fun _ => ()) = (identity e).hashed := by
  obtain ⟨own, hproperties, hsupported⟩ := h.properties
  have hmetadata : e.metadata = .null ∨ ∃ metadata, e.metadata = .map metadata :=
    h.metadata.imp_right fun ⟨own, hmap, _⟩ => ⟨own, hmap⟩
  have hmetadataSupported : (Value.map (ownFields e.metadata)).Supported := by
    refine supported_ownFields ?_
    rcases h.metadata with hnull | ⟨_, hmap, hsupported⟩
    · rw [hnull]
      exact ⟨"", rfl⟩
    · exact hmap ▸ hsupported
  let c := s.contextOf (identity e) e.type.messageText l
  obtain ⟨keptProperties, hp⟩ := exists_scrubFields c "properties" hsupported.field
  obtain ⟨keptMetadata, hm⟩ := exists_scrubFields c "metadata" hmetadataSupported.field
  rw [scrubAs_eq_assemble identity h.type h.copyable hproperties hmetadata hp hm, Identity.hashed]
  cases htenant : (identity e).tenantHash with
  | error f =>
    unfold Scrubber.assemble
    rw [htenant]
    rfl
  | ok tenantHash =>
    cases hid : (identity e).idHash with
    | error f =>
      unfold Scrubber.assemble
      rw [htenant, hid]
      rfl
    | ok idHash =>
      have htimes := h.times
      simp only [List.forall_mem_cons] at htimes
      obtain ⟨⟨created, hcreated⟩, ⟨updated, hupdated⟩, ⟨deleted, hdeleted⟩, _⟩ := htimes
      obtain ⟨_, hc⟩ := exists_baseTime l created
      obtain ⟨_, hu⟩ := exists_baseTime l updated
      obtain ⟨_, hd⟩ := exists_baseTime l deleted
      obtain ⟨out, hout, _⟩ := exists_assemble (c := c) htenant hid (hcreated ▸ hc) (hupdated ▸ hu)
        (hdeleted ▸ hd) e.type (partsTrail c own (ownFields e.metadata)) keptProperties keptMetadata
      rw [hout]
      rfl

/-- The tenant is hashed first, so a tenant that cannot be hashed is what fails whatever the identifier is. -/
theorem scrubAs_of_not_canHash (h : e.Usable) (s : Scrubber) (l : Level) {identity : Entity → Identity}
    (hidentity : (identity e).tenantHash = s.hasher.hashTenant e.tenantId)
    (htenant : ¬Hasher.CanHash e.tenantId) :
    (s.scrubAs identity (some e) e.type (.level l)).1 = .error .noSuchMember := by
  refine eq_error_of_map ((hashed_of_usable h s l identity).trans ?_)
  rw [Identity.hashed, hidentity, s.hasher.hashTenant_of_not_canHash htenant]
  rfl

/-- A usable entity is scrubbed if its tenant is a text or counts as nothing, and otherwise the attempt to
hash it is what fails. -/
theorem scrub_usable (h : e.Usable) (s : Scrubber) (l : Level) :
    (Hasher.CanHash e.tenantId → ∃ out, (s.scrub (some e) e.type (.level l)).1 = .ok out) ∧
      (¬Hasher.CanHash e.tenantId →
        (s.scrub (some e) e.type (.level l)).1 = .error .noSuchMember) := by
  obtain ⟨id, hid⟩ := h.id
  refine ⟨fun htenant => ?_, scrubAs_of_not_canHash h s l rfl⟩
  obtain ⟨tenantHash, htenantHash⟩ := s.hasher.exists_hashTenant_of_canHash htenant
  obtain ⟨idHash, hidHash⟩ := s.hasher.exists_hashIdentifier id htenant
  refine exists_of_map_eq_ok ((hashed_of_usable h s l s.identity).trans ?_)
  rw [Identity.hashed, Scrubber.identity, htenantHash, hid, hidHash]
  rfl

/-- A usable entity whose identifier and tenant are texts of code points is scrubbed if none of these is a
surrogate, and otherwise the attempt to hash the first text that has one is what fails. -/
theorem scrubCoded_usable (h : e.Usable) (s : Scrubber) (l : Level) (id tenant : List CodePoint) :
    (¬HasSurrogate id → ¬HasSurrogate tenant →
      ∃ out, (s.scrubCoded id tenant (some e) e.type (.level l)).1 = .ok out) ∧
    (HasSurrogate id ∨ HasSurrogate tenant →
      (s.scrubCoded id tenant (some e) e.type (.level l)).1 =
        .error (.external "UnicodeEncodeError")) := by
  have hscrub := hashed_of_usable h s l fun _ => s.codedIdentity id tenant
  have hnil : ¬HasSurrogate [] := fun ⟨_, hp, _⟩ => List.not_mem_nil hp
  constructor
  · intro hid htenant
    obtain ⟨tenantHash, htenantHash⟩ := s.hasher.exists_hashCodes htenant hnil
    obtain ⟨idHash, hidHash⟩ := s.hasher.exists_hashCodes hid htenant
    refine exists_of_map_eq_ok (hscrub.trans ?_)
    rw [Identity.hashed, Scrubber.codedIdentity, htenantHash, hidHash]
    rfl
  · intro hsurrogate
    refine eq_error_of_map (hscrub.trans ?_)
    have hnonempty : ∀ {t : List CodePoint}, HasSurrogate t → t ≠ [] := by
      rintro _ ht rfl
      exact hnil ht
    by_cases htenant : HasSurrogate tenant
    · rw [Identity.hashed, Scrubber.codedIdentity,
        s.hasher.hashCodes_of_hasSurrogate (hnonempty htenant) (Or.inl htenant)]
      rfl
    · have hid : HasSurrogate id := hsurrogate.resolve_right htenant
      obtain ⟨tenantHash, htenantHash⟩ := s.hasher.exists_hashCodes htenant hnil
      rw [Identity.hashed, Scrubber.codedIdentity, htenantHash,
        s.hasher.hashCodes_of_hasSurrogate (hnonempty hid) (Or.inl hid)]
      rfl

/-- An entity with texts of characters is scrubbed the same when these are told as code points. -/
theorem scrubCoded_map_char (s : Scrubber) {id : String} (hid : e.id = .str id)
    (htenant : Hasher.IsTenant e.tenantId) (entityType : Value) (l : Level) :
    s.scrubCoded (id.toList.map .char) (e.tenantId.textD.toList.map .char) (some e) entityType
      (.level l) = s.scrub (some e) entityType (.level l) := by
  have hforbidden : [id.toList.map CodePoint.char, e.tenantId.textD.toList.map .char].filterMap
      (fun t => (characters? t).bind forbiddenText) = forbiddenTexts e := by
    unfold forbiddenTexts
    rw [hid]
    rcases htenant with hnull | ⟨tenant, hstr⟩
    · rw [hnull]
      simp only [List.filterMap_cons, characters?_map_char]
      rfl
    · rw [hstr]
      simp only [List.filterMap_cons, characters?_map_char]
      rfl
  have htenantHash : s.hasher.hashCodes (e.tenantId.textD.toList.map .char) [] =
      s.hasher.hashTenant e.tenantId := by
    have hnone := s.hasher.hashCodes_map_char e.tenantId.textD (Or.inl rfl)
    rcases htenant with hnull | ⟨tenant, hstr⟩
    · rw [hnull]
      rfl
    · rw [hstr] at hnone ⊢
      exact hnone
  have hidentity : s.codedIdentity (id.toList.map .char) (e.tenantId.textD.toList.map .char) =
      s.identity e := by
    rw [Scrubber.codedIdentity, Scrubber.identity, hforbidden, htenantHash,
      s.hasher.hashCodes_map_char id htenant, hid]
  unfold Scrubber.scrubCoded Scrubber.scrub Scrubber.scrubAs
  cases haccept : Scrubber.accept (some e) entityType (.level l) with
  | error f => rfl
  | ok accepted =>
    obtain ⟨rfl, _⟩ := accept_eq_ok haccept
    dsimp only
    rw [hidentity]

/-- An entity read from a payload that can be copied, as whatever JSON can hold, is scrubbed exactly if
the tenant told by the payload is a text or counts as nothing. Otherwise, whatever its identifier is, a
value is asked for what only texts have, and that fault is not one of those that the library names. Where
the texts that the payload tells for identifier and tenant are texts of code points, the entity is scrubbed
exactly if there is no surrogate in them, and otherwise the fault is that of the UTF-8 encoding, not one
that the library names either; texts of characters make no difference. -/
theorem scrubs_payload_iff {payload : Value} {now : Timestamp}
    (hread : Entity.ofPayload now payload = .ok e) (hcopy : payload.copyable = true) (s : Scrubber)
    (l : Level) :
    ∃ fields, payload = .map fields ∧ e.tenantId = Value.getD fields "tenantId" ∧
      ((∃ out, (s.scrub (some e) e.type (.level l)).1 = .ok out) ↔
        Hasher.CanHash (Value.getD fields "tenantId")) ∧
      (¬Hasher.CanHash (Value.getD fields "tenantId") →
        (s.scrub (some e) e.type (.level l)).1 = .error .noSuchMember ∧
        ∀ forbidden idHash,
          (s.scrubAs (fun e => ⟨forbidden, s.hasher.hashTenant e.tenantId, idHash⟩) (some e) e.type
            (.level l)).1 = .error .noSuchMember) ∧
      (∀ id tenant : List CodePoint,
        ((∃ out, (s.scrubCoded id tenant (some e) e.type (.level l)).1 = .ok out) ↔
          ¬HasSurrogate id ∧ ¬HasSurrogate tenant) ∧
        (HasSurrogate id ∨ HasSurrogate tenant →
          (s.scrubCoded id tenant (some e) e.type (.level l)).1 =
            .error (.external "UnicodeEncodeError"))) ∧
      ∀ id, e.id = .str id → Hasher.IsTenant e.tenantId →
        s.scrubCoded (id.toList.map .char) (e.tenantId.textD.toList.map .char) (some e) e.type
          (.level l) = s.scrub (some e) e.type (.level l) := by
  cases payload with
  | map fields =>
    obtain ⟨hwell, htold⟩ := Entity.wellformed_and_conveys hread
    have husable := htold.usable hwell hcopy
    obtain ⟨hsucceeds, hfails⟩ := scrub_usable husable s l
    refine ⟨fields, rfl, htold.tenantId, ?_⟩
    rw [← htold.tenantId]
    refine ⟨⟨?_, hsucceeds⟩, fun htenant => ⟨hfails htenant, ?_⟩, fun id tenant => ?_,
      fun id hid htenant => scrubCoded_map_char s hid htenant e.type l⟩
    · rintro ⟨out, hout⟩
      by_contra htenant
      cases hout.symm.trans (hfails htenant)
    · exact fun forbidden idHash => scrubAs_of_not_canHash husable s l rfl htenant
    · obtain ⟨hcoded, hsurrogate⟩ := scrubCoded_usable husable s l id tenant
      refine ⟨⟨?_, fun ⟨hid, htenant⟩ => hcoded hid htenant⟩, hsurrogate⟩
      rintro ⟨out, hout⟩
      rw [← not_or]
      intro hboth
      cases hout.symm.trans (hsurrogate hboth)
  | _ => cases hread

/-- A note of the given tenant. -/
def tenantPayload (tenant : Value) : Fields :=
  [(.str "id", .str "n-1"), (.str "type", .str "Note"), (.str "tenantId", tenant)]

theorem scrubs_payload_iff_sample :
    ∃ e, Entity.ofPayload Entity.noon (.map (tenantPayload (.str "acme"))) = .ok e ∧
      (Value.map (tenantPayload (.str "acme"))).copyable = true ∧
      ∃ out, (sampleScrubber.scrub (some e) e.type (.level .strict)).1 = .ok out := by
  have hcopy : (Value.map (tenantPayload (.str "acme"))).copyable = true := by decide
  obtain ⟨e, hread⟩ := exists_eq_ok
    (x := Entity.ofPayload Entity.noon (.map (tenantPayload (.str "acme")))) rfl
  obtain ⟨_, hfields, _, hscrubs, _⟩ := scrubs_payload_iff hread hcopy sampleScrubber .strict
  cases hfields
  exact ⟨e, hread, hcopy, hscrubs.mpr fun _ => rfl⟩

/-- A number is taken for a tenant, and then the entity cannot be scrubbed; nor can it be with a half of a
surrogate pair for an identifier. -/
theorem not_scrubbed_number_tenant :
    (Value.map (tenantPayload (.int 77))).copyable = true ∧
      ∃ e, Entity.ofPayload Entity.noon (.map (tenantPayload (.int 77))) = .ok e ∧
        (sampleScrubber.scrub (some e) e.type (.level .moderate)).1 = .error .noSuchMember ∧
        (sampleScrubber.scrubCoded [.high 0] [] (some e) e.type (.level .moderate)).1 =
          .error (.external "UnicodeEncodeError") :=
  ⟨by decide, _, rfl, rfl, rfl⟩

end Scrub

end ConsentGate
