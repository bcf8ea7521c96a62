import ConsentGate.Proofs.Consent.Transparency
import ConsentGate.Proofs.Contribution.Acceptance
import ConsentGate.Proofs.Scrub.Keys
import ConsentGate.Proofs.Value.Reading

/-! What a stored row says of where it comes from.

The level, the type and the tenant of a contribution reach its row on two ways: as columns, and inside the
metadata, from which the hash of the tenant is read once more. `Attests` holds all of them against the
decision that permitted the contribution and against the entity. Nothing in the metadata that an entity
brings along makes a difference (`Acceptance.attests`): the keys that tell how it was scrubbed are taken
away before, and no key that is kept is written like one of them. -/
namespace ConsentGate
open Consent Ledger Scrub Text
set_option autoImplicit false

/-! ## Provenance in the metadata -/

namespace Scrub

variable {s : Scrubber} {e : Entity} {entityType : Value} {l : Level} {out : Scrubbed}

theorem isProvenanceKey_of_mem {name : String} (h : name ∈ provenanceKeys) :
    isProvenanceKey (.str name) = true :=
  List.any_eq_true.mpr ⟨name, h, Value.isText_iff.mpr rfl⟩

theorem mem_provenanceKeys {name : String} {v : Value} {tenantHash : String}
    (h : (.str name, v) ∈ s.provenance entityType l tenantHash) : name ∈ provenanceKeys := by
  have hkey := List.mem_map_of_mem (f := fun field => field.1.textD) h
  exact hkey

/-- Each of these keys is there once. -/
theorem provenance_unique {tenantHash : String} {k v w : Value}
    (hv : (k, v) ∈ s.provenance entityType l tenantHash)
    (hw : (k, w) ∈ s.provenance entityType l tenantHash) : v = w := by
  have hkeys : ((s.provenance entityType l tenantHash).map (·.1)).Nodup := by
    simp [Scrubber.provenance, scrubbedKey, levelKey, typeKey, timeKey, tenantHashKey, versionKey]
  exact congrArg Prod.snd (List.inj_on_of_nodup_map hkeys hv hw rfl)

/-- Under one of these keys stands what the scrubber put there. -/
theorem Whole.provenance_of_mem (w : Whole s e entityType l out) {field : Value × Value}
    (hfield : field ∈ w.keptMetadata ++ s.provenance entityType l w.tenantHash)
    (hkey : isProvenanceKey field.1 = true) : field ∈ s.provenance entityType l w.tenantHash := by
  rcases List.mem_append.mp hfield with hkept | hprovenance
  · rw [w.isProvenanceKey_of_kept hkept] at hkey
    cases hkey
  · exact hprovenance

/-- No other key is written like one of these. -/
theorem eq_of_jsonKey {k : Value} {name : String} (hname : name ∈ provenanceKeys)
    (h : Value.jsonKey k = .ok name.toList) : k = .str name := by
  have hheads : ∀ name ∈ provenanceKeys, ∃ c rest, name.toList = c :: rest ∧ c.isDigit = false ∧
      c ∉ ['n', 't', 'f', 'N', 'I', '-'] := by
    intro name hname
    simp only [provenanceKeys, List.mem_cons, List.not_mem_nil, or_false] at hname
    rcases hname with rfl | rfl | rfl | rfl | rfl | rfl
    all_goals exact ⟨_, _, rfl, by decide, by decide⟩
  obtain ⟨c, rest, hcons, hdigit, hc⟩ := hheads name hname
  cases hstr : k.isStr with
  | true =>
    obtain ⟨text, rfl⟩ := Value.isStr_iff.mp hstr
    have htext : text.toList = name.toList := Except.ok.inj h
    rw [String.toList_inj.mp htext]
  | false =>
    rw [hcons] at h
    rcases Value.head_jsonKey h hstr with hhead | hhead
    · rw [hdigit] at hhead
      cases hhead
    · exact absurd hhead hc

/-- The metadata that are read back have, under each of these keys, what the text of the scrubber's value
is read as. -/
theorem Whole.exists_decoded (w : Whole s e entityType l out) {text : List Char}
    (h : out.metadata.json = .ok text) :
    ∃ decoded, Value.ofJson? text = some (.map decoded) ∧
      ∀ name v written read, (.str name, v) ∈ s.provenance entityType l w.tenantHash →
        v.json = .ok written → Value.ReadsAs written read →
          Value.get? decoded name = some read := by
  rw [w.outMetadata] at h
  obtain ⟨entries, hfrom, hto, rfl⟩ := Value.exists_entries_of_json h fun f hf _ htext =>
    Value.exists_readsAs_of_jsonFields _ f hf htext
  refine ⟨entries.foldl Value.Entry.put [], (Value.readsAs_map fun e he => ?_).ofJson?, ?_⟩
  · obtain ⟨f, _, hof⟩ := hfrom e he
    exact hof.value
  · intro name v written read hmem hwritten hread
    have hname := mem_provenanceKeys hmem
    refine Value.get?_foldl_put ?_ (Or.inr ?_)
    · intro e he hkey
      obtain ⟨f, hf, hof⟩ := hfrom e he
      have hjson := hof.key
      rw [hkey] at hjson
      have hf1 := eq_of_jsonKey hname hjson
      have hprovenance : f ∈ s.provenance entityType l w.tenantHash := by
        refine w.provenance_of_mem hf ?_
        rw [hf1]
        exact isProvenanceKey_of_mem hname
      have hf2 : f.2 = v := by
        refine provenance_unique (k := .str name) ?_ hmem
        rw [← hf1]
        exact hprovenance
      have htext := hof.text
      rw [hf2, hwritten] at htext
      cases htext
      exact hof.value.unique hread
    · obtain ⟨e, he, hof⟩ := hto _ (List.mem_append_right _ hmem)
      refine ⟨e, he, ?_⟩
      exact (String.toList_inj.mp (Except.ok.inj hof.key)).symm

/-- The hash of the tenant is found in the metadata as the scrubber put it there. -/
theorem Whole.tenantHash_eq (w : Whole s e entityType l out) : out.tenantHash = w.tenantHash := by
  have hnone : ∀ field ∈ w.keptMetadata, ¬field.1.isText tenantHashKey = true := by
    intro field hfield htext
    have hkey := w.isProvenanceKey_of_kept hfield
    rw [Value.isText_iff.mp htext, isProvenanceKey_of_mem (by decide)] at hkey
    cases hkey
  have hfind : (w.keptMetadata ++ s.provenance entityType l w.tenantHash).find?
      (fun field => field.1.isText tenantHashKey) =
        some (.str tenantHashKey, .str w.tenantHash) := by
    rw [List.find?_append, List.find?_eq_none.mpr hnone]
    rfl
  unfold Scrubbed.tenantHash
  rw [w.outMetadata]
  simp only [Value.getD, Value.get?, hfind, Option.map_some, Option.getD_some, Value.str?]

end Scrub

/-- A tenant that is a text has a hash, and the hash is not empty. -/
theorem Hasher.exists_hashTenant (h : Hasher) {tenant : String} (htenant : tenant ≠ "") :
    ∃ hash, h.hashTenant (.str tenant) = .ok hash ∧ hash ≠ "" := by
  have htruthy : (Value.str tenant).truthy = true := bne_iff_ne.mpr htenant
  refine ⟨h.digest tenant.toList, ?_, ?_⟩
  · rw [Hasher.hashTenant, Hasher.hashIdentifier, if_pos htruthy]
    rfl
  · intro hempty
    have hlength := h.length_digest tenant.toList
    have hbounds := h.bounds
    rw [hempty, String.length_empty] at hlength
    omega

/-! ## Accepted contributions -/

namespace Network
open Collaborators

variable {n : Network} {e : Entity}

/-- The columns of a row, and the metadata read back from it, say alike at which level, as what type and
for which tenant and identifier the entity was stored, and that it was scrubbed by which rules. -/
structure Attests (n : Network) (e : Entity) (d : Decision) (row : Row) (metadata : Fields) :
    Prop where
  metadataColumn : row.columns.lookup "metadata" = some (.map metadata)
  levelColumn : row.columns.lookup "scrubbing_level" = some (.str d.level.name)
  level : Value.get? metadata "scrubbing_level" = some (.str d.level.name)
  typeColumns : row.columns.lookup "type" = some e.type ∧
    row.columns.lookup "entity_type" = some e.type
  entityType : Value.get? metadata "entity_type" = some e.type
  tenantHash : ∃ hash, n.scrubber.hasher.hashTenant e.tenantId = .ok hash ∧ hash ≠ "" ∧
    row.columns.lookup "original_tenant_hash" = some (.str hash) ∧
    Value.get? metadata "original_tenant_id_hash" = some (.str hash)
  idColumn : ∃ id, n.scrubber.hasher.hashIdentifier e.id e.tenantId = .ok id ∧
    row.columns.lookup "id" = some (.str id)
  scrubbed : Value.get? metadata "scrubbed" = some (.bool true)
  patternVersion : Value.get? metadata "pattern_version" = some (.str n.scrubber.rules.version)

namespace Acceptance

/-- Consent is given for tenants with a name. -/
theorem exists_tenant (a : Acceptance n e) :
    ∃ tenant, e.tenantId = .str tenant ∧ allBlank tenant.toList = false := by
  rcases Validator.validate_forms e.tenantId (.str a.type) with
    ⟨_, hforms⟩ | hforms | ⟨t, _, htenant, hblank, _⟩
  · have hrefused := (hforms n.validator).1.symm.trans a.decides
    cases hrefused
  · have hdenied := Except.ok.inj ((hforms n.validator).1.symm.trans a.decides)
    have hpermits := a.permits
    rw [← hdenied] at hpermits
    cases hpermits
  · exact ⟨t, htenant, hblank⟩

theorem attests (a : Acceptance n e) : ∃ metadata, Attests n e a.decision a.row metadata := by
  obtain ⟨w⟩ := exists_whole a.scrubs
  have hencodes := Draft.encodes a.drafts
  have hshows := Row.shows a.writes
  have hjson : a.scrubbed.metadata.json = .ok a.row.metadata := by
    rw [hshows.metadata]
    exact hencodes.metadata
  obtain ⟨metadata, hdecoded, hget⟩ := w.exists_decoded hjson
  have htext : ∀ name text, (.str name, .str text) ∈
      n.scrubber.provenance (.str a.type) a.decision.level w.tenantHash →
        Value.get? metadata name = some (.str text) := by
    intro name text hmem
    have hread := hget name (.str text) _ _ hmem rfl (Value.readsAs_text _)
    rwa [String.ofList_toList] at hread
  have hprovenance := a.provenance_eq
  obtain ⟨tenant, htenant, hblank⟩ := a.exists_tenant
  have hnonempty : tenant ≠ "" := by
    rintro rfl
    cases hblank
  obtain ⟨hash, hhash, hhashed⟩ := n.scrubber.hasher.exists_hashTenant hnonempty
  rw [← htenant] at hhash
  have hhashIs : w.tenantHash = hash := Except.ok.inj (w.hashTenant.symm.trans hhash)
  obtain ⟨id, hid, hout⟩ := w.outId
  have hrowId : a.row.id = id := Row.id_of a.writes (hencodes.id.trans hout)
  have hrowType : a.row.type = some a.type := by
    have hcolumn := hshows.type
    rw [hencodes.type, w.outType, a.hasType, Cell.columnText_str] at hcolumn
    exact (Except.ok.inj hcolumn).symm
  have hmetadata : a.row.columns.lookup "metadata" = some (.map metadata) := by
    show some ((Value.ofJson? a.row.metadata).getD .null) = _
    rw [hdecoded]
    rfl
  have htype : a.row.columns.lookup "type" = some e.type := by
    show some ((a.row.type.map Value.str).getD .null) = _
    rw [hrowType, a.hasType]
    rfl
  have hentityType : a.row.columns.lookup "entity_type" = some e.type := by
    show some (Value.str a.row.provenance.entityType) = _
    rw [hprovenance, a.hasType]
    rfl
  have hlevel : a.row.columns.lookup "scrubbing_level" = some (.str a.decision.level.name) := by
    show some (Value.str a.row.provenance.level.name) = _
    rw [hprovenance]
    rfl
  have htenantHash : a.row.columns.lookup "original_tenant_hash" = some (.str hash) := by
    show some (Value.str a.row.provenance.tenantHash) = _
    rw [hprovenance, ← hhashIs, ← w.tenantHash_eq]
    rfl
  have hidColumn : a.row.columns.lookup "id" = some (.str id) := by
    show some (Value.str a.row.id) = _
    rw [hrowId]
  refine ⟨metadata, {
    metadataColumn := hmetadata
    levelColumn := hlevel
    level := htext _ _ (by simp [Scrubber.provenance, levelKey])
    typeColumns := ⟨htype, hentityType⟩
    entityType := ?_
    tenantHash := ⟨hash, hhash, hhashed, htenantHash, ?_⟩
    idColumn := ⟨id, hid, hidColumn⟩
    scrubbed := ?_
    patternVersion := htext _ _ (by simp [Scrubber.provenance, versionKey]) }⟩
  · rw [a.hasType]
    exact htext _ _ (by simp [Scrubber.provenance, typeKey])
  · rw [← hhashIs]
    exact htext _ _ (by simp [Scrubber.provenance, tenantHashKey])
  · exact hget "scrubbed" (.bool true) _ _ (by simp [Scrubber.provenance, scrubbedKey]) rfl
      (Value.readsAs_name (v := .bool true) (by simp [Value.names]))

end Acceptance

/-- An accepted contribution appends one row, and this row attests the decision that permitted it and
the entity, whatever the entity's metadata hold. -/
theorem attests_of_accepted (h : (n.contribute (some e)).1 = .ok .accepted) :
    ∃ d row metadata, (n.validator.validate e.tenantId e.type).1 = .ok d ∧ d.permits = true ∧
      (n.contribute (some e)).2.store.rows = n.store.rows ++ [row] ∧ Attests n e d row metadata := by
  obtain ⟨a⟩ := contribute_accepted_iff.mp h
  obtain ⟨metadata, hattests⟩ := a.attests
  have hdecides := a.decides
  rw [← a.hasType] at hdecides
  exact ⟨a.decision, a.row, metadata, hdecides, a.permits, congrArg Store.rows a.store_eq, hattests⟩

/-- An entity that claims another level, type and tenant for itself, under the keys of the provenance,
under keys like them, and further inside. -/
def forgingEntity : Entity :=
  { sampleEntity with
    metadata := .map [(.str "scrubbing_level", .str "Minimal"), (.str "Scrubbing_Level", .str "Strict"),
      (.str "entity_type", .str "Report"), (.str "original_tenant_id_hash", .str ""),
      (.str "scrubbed", .bool false),
      (.str "inner", .map [(.str "scrubbing_level", .str "Minimal")])] }

theorem attests_of_accepted_sample :
    (sampleNetwork.contribute (some forgingEntity)).1 = .ok .accepted ∧
      ∃ d row metadata, (sampleNetwork.validator.validate (.str "acme") (.str "Note")).1 = .ok d ∧
        d.permits = true ∧
        (sampleNetwork.contribute (some forgingEntity)).2.store.rows = [row] ∧
        Attests sampleNetwork forgingEntity d row metadata := by
  have haccepted : (sampleNetwork.contribute (some forgingEntity)).1 = .ok .accepted := by
    refine contribute_accepted_iff.mpr (exists_acceptance_of_note rfl rfl ?_)
    decide +kernel
  exact ⟨haccepted, attests_of_accepted haccepted⟩

end Network

end ConsentGate
