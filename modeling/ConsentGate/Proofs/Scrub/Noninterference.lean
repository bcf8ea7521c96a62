import ConsentGate.Proofs.Scrub.Keys

/-! What is removed leaves no trace.

`Alike` relates values that differ only where scrubbing does not look: under keys that are stripped at
the level, and under personal keys whose values come to the same token. Entities that are alike are
scrubbed to the same result, with the same audit and the same log lines (`scrub_eq_of_alike`). So
neither the result nor what is told of it depends on a value that was removed. -/
namespace ConsentGate.Scrub
open ConsentGate.Field Text
set_option autoImplicit false

/-! ## The relation -/

namespace Context

/-- The field is removed whatever its value is. -/
def Removes (c : Context) (name : List Char) : Prop :=
  (c.rules.classify name).isStripped = true ∨
    ((c.rules.classify name).isPersonal = true ∧ c.level = .strict)

/-- The value of the field is looked at as a whole and becomes a token. -/
def Tokenizes (c : Context) (name : List Char) : Prop :=
  (c.rules.classify name).isPersonal = true ∧ c.level = .moderate

end Context

mutual
/-- Values of the same shape that differ only in what scrubbing does not look at. -/
inductive Alike (c : Context) : Value → Value → Prop
  | same {v : Value} : Alike c v v
  | map {fields fields' : Fields} (fieldsAlike : AlikeFields c fields fields') :
      Alike c (.map fields) (.map fields')
  | list {items items' : List Value} (itemsAlike : AlikeItems c items items') :
      Alike c (.list items) (.list items')
  | tuple {items items' : List Value} (itemsAlike : AlikeItems c items items') :
      Alike c (.tuple items) (.tuple items')

inductive AlikeItems (c : Context) : List Value → List Value → Prop
  | nil : AlikeItems c [] []
  | cons {v v' : Value} {items items' : List Value} (item : Alike c v v')
      (rest : AlikeItems c items items') : AlikeItems c (v :: items) (v' :: items')

/-- Values under one key. A value that becomes a token counts as a whole, with all its parts. -/
inductive AlikeField (c : Context) : Value → Value → Value → Prop
  | same {key v : Value} : AlikeField c key v v
  | removed {key v v' : Value} {name : List Char} (plain : key.plain = .ok name)
      (removes : c.Removes name) : AlikeField c key v v'
  | token {key v v' : Value} {name : List Char} (plain : key.plain = .ok name)
      (tokenizes : c.Tokenizes name) (safe : c.isUnsafe v = false) (safe' : c.isUnsafe v' = false)
      (token : c.hasher.tokenize v = c.hasher.tokenize v') : AlikeField c key v v'
  | parts {key v v' : Value} (opened : ∀ name, key.plain = .ok name → ¬c.Tokenizes name)
      (alike : Alike c v v') : AlikeField c key v v'

inductive AlikeFields (c : Context) : Fields → Fields → Prop
  | nil : AlikeFields c [] []
  | cons {key v v' : Value} {fields fields' : Fields} (field : AlikeField c key v v')
      (rest : AlikeFields c fields fields') :
      AlikeFields c ((key, v) :: fields) ((key, v') :: fields')
end

variable {c : Context} {name : List Char} {path : String} {v v' key : Value}

theorem AlikeFields.refl (fields : Fields) : AlikeFields c fields fields := by
  induction fields with
  | nil => exact .nil
  | cons field fields ih => exact .cons .same ih

/-- A map is alike to maps only, and what is no map to none. -/
theorem Alike.map_iff (h : Alike c v v') :
    (∃ fields fields', v = .map fields ∧ v' = .map fields' ∧ AlikeFields c fields fields') ∨
      (∀ fields, v ≠ .map fields) ∧ (∀ fields, v' ≠ .map fields) ∧ (v = .null ↔ v' = .null) := by
  cases h with
  | same =>
    by_cases hmap : ∃ fields, v = .map fields
    · obtain ⟨fields, rfl⟩ := hmap
      exact Or.inl ⟨fields, fields, rfl, rfl, .refl fields⟩
    · have hno : ∀ fields, v ≠ .map fields := not_exists.mp hmap
      exact Or.inr ⟨hno, hno, Iff.rfl⟩
  | map fieldsAlike => exact Or.inl ⟨_, _, rfl, rfl, fieldsAlike⟩
  | list _ =>
    right
    simp
  | tuple _ =>
    right
    simp

theorem AlikeFields.filter {fields fields' : Fields} (h : AlikeFields c fields fields')
    (p : Value → Bool) :
    AlikeFields c (fields.filter fun field => p field.1) (fields'.filter fun field => p field.1) := by
  induction fields generalizing fields' with
  | nil =>
    cases h
    exact .nil
  | cons first fields ih =>
    cases h with
    | @cons key v v' _ fields' field rest =>
      cases hkey : p key with
      | true =>
        simp only [List.filter_cons, hkey, if_true]
        exact .cons field (ih rest)
      | false =>
        simp only [List.filter_cons, hkey, Bool.false_eq_true, if_false]
        exact ih rest

/-! ## One field -/

theorem scrubField_of_removes (h : c.Removes name) (v : Value)
    (byValue : Unit → Attempt (Option Value)) : scrubField c name path v byValue = remove path := by
  unfold scrubField
  dsimp only
  rcases h with hstripped | ⟨hpersonal, hlevel⟩
  · rw [if_pos hstripped]
  · rw [hlevel, if_pos hpersonal, ite_self]

/-- What becomes a token is not scrubbed inside. -/
theorem scrubField_of_tokenizes (h : c.Tokenizes name) (hsafe : c.isUnsafe v = false)
    (byValue : Unit → Attempt (Option Value)) :
    scrubField c name path v byValue =
      ⟨(c.hasher.tokenize v).map some, { tokenized := [path] }⟩ := by
  have hstripped : ¬(c.rules.classify name).isStripped = true := by
    intro hstripped
    have hpersonal := h.1
    simp [Category.isPersonal, hstripped] at hpersonal
  unfold scrubField
  dsimp only
  rw [if_neg hstripped, if_pos h.1, h.2, if_neg (by simp [hsafe])]

/-- A field that does not become a token is removed or left to its value. -/
theorem scrubField_of_opened (h : ¬c.Tokenizes name) {byValue byValue' : Unit → Attempt (Option Value)}
    (hsame : byValue () = byValue' ()) :
    scrubField c name path v byValue = scrubField c name path v' byValue' := by
  unfold scrubField
  dsimp only
  split
  · rfl
  · split
    · rename_i hpersonal
      split
      · rfl
      · rename_i hlevel
        exact absurd ⟨hpersonal, hlevel⟩ h
      · exact hsame
    · exact hsame

theorem scrubField_eq_of_alike (path : String) (hkey : key.plain = .ok name)
    (h : AlikeField c key v v')
    (hvalue : Alike c v v' → scrubValue c name path v = scrubValue c name path v') :
    scrubField c name path v (fun _ => scrubValue c name path v) =
      scrubField c name path v' (fun _ => scrubValue c name path v') := by
  cases h with
  | same => rfl
  | removed plain removes =>
    cases hkey.symm.trans plain
    rw [scrubField_of_removes removes, scrubField_of_removes removes]
  | token plain tokenizes safe safe' token =>
    cases hkey.symm.trans plain
    rw [scrubField_of_tokenizes tokenizes safe, scrubField_of_tokenizes tokenizes safe', token]
  | parts opened alike => exact scrubField_of_opened (opened name hkey) (hvalue alike)

/-! ## Values with parts -/

-- The cases follow the scrubber's own recursion; values without parts are alike only to themselves.
mutual
theorem scrubValue_eq_of_alike (name : List Char) (path : String) (v : Value) {v' : Value}
    (h : Alike c v v') : scrubValue c name path v = scrubValue c name path v' := by
  match v with
  | .map fields =>
    cases h with
    | same => rfl
    | map fieldsAlike =>
      unfold scrubValue
      rw [scrubFields_eq_of_alike path fields fieldsAlike]
  | .list items =>
    cases h with
    | same => rfl
    | list itemsAlike =>
      unfold scrubValue
      rw [scrubItems_eq_of_alike name path 0 items itemsAlike]
  | .tuple items =>
    -- No tuple is supported, whatever its items are.
    cases h with
    | same => rfl
    | tuple itemsAlike => rfl
  | .null | .bool _ | .int _ | .float _ | .decimal _ | .str _ | .date _ | .datetime _ | .bytes _
  | .set _ | .level _ | .foreign | .uncopyable =>
    cases h
    rfl

theorem scrubItems_eq_of_alike (name : List Char) (path : String) (i : Nat) (items : List Value)
    {items' : List Value} (h : AlikeItems c items items') :
    scrubItems c name path i items = scrubItems c name path i items' := by
  match items with
  | [] =>
    cases h
    rfl
  | v :: rest =>
    cases h with
    | cons item restAlike =>
      unfold scrubItems
      rw [scrubValue_eq_of_alike name (Value.itemPath path i) v item,
        scrubItems_eq_of_alike name path (i + 1) rest restAlike]

theorem scrubFields_eq_of_alike (path : String) (fields : List (Value × Value)) {fields' : Fields}
    (h : AlikeFields c fields fields') : scrubFields c path fields = scrubFields c path fields' := by
  match fields with
  | [] =>
    cases h
    rfl
  | (key, v) :: rest =>
    cases h with
    | cons field restAlike =>
      unfold scrubFields
      cases hkey : key.plain with
      | error f => rfl
      | ok name =>
        have hfield := scrubField_eq_of_alike (Value.fieldPath path (String.ofList name)) hkey field
          fun alike => scrubValue_eq_of_alike name _ v alike
        dsimp only
        rw [hfield, scrubFields_eq_of_alike path rest restAlike]
end

/-! ## Entities -/

/-- Entities of one tenant that differ only in who handled them, and in what scrubbing does not look
at. -/
structure Indistinct (c : Context) (e e' : Entity) : Prop where
  id : e'.id = e.id
  type : e'.type = e.type
  tenantId : e'.tenantId = e.tenantId
  version : e'.version = e.version
  source : e'.source = e.source
  createdAt : e'.createdAt = e.createdAt
  updatedAt : e'.updatedAt = e.updatedAt
  isDeleted : e'.isDeleted = e.isDeleted
  deletedAt : e'.deletedAt = e.deletedAt
  properties : Alike c e.properties e'.properties
  metadata : Alike c e.metadata e'.metadata

variable {s : Scrubber} {e e' : Entity} {entityType : Value} {l : Level}

theorem scrubParts_eq_of_alike {properties properties' metadata metadata' : Fields}
    (hproperties : AlikeFields c properties properties')
    (hmetadata : AlikeFields c metadata metadata') :
    Scrubber.scrubParts c properties metadata = Scrubber.scrubParts c properties' metadata' := by
  unfold Scrubber.scrubParts
  rw [scrubFields_eq_of_alike "properties" _ hproperties,
    scrubFields_eq_of_alike "metadata" _ (hmetadata.filter fun key => !isProvenanceKey key)]

theorem parts?_of_properties (h : ∀ fields, e.properties ≠ .map fields) (typeText : String) :
    Scrubber.parts? e typeText = .error (.scrub typeText "properties is not a mapping") := by
  unfold Scrubber.parts?
  split
  · rename_i hfields
    exact absurd hfields (h _)
  · rfl

theorem parts?_of_metadata {fields : Fields} (hproperties : e.properties = .map fields)
    (hmap : ∀ metadata, e.metadata ≠ .map metadata) (hnull : e.metadata ≠ .null)
    (typeText : String) :
    Scrubber.parts? e typeText = .error (.scrub typeText "metadata is not a mapping") := by
  unfold Scrubber.parts?
  rw [hproperties]
  dsimp only
  split
  · rename_i hmetadata
    exact absurd hmetadata (hmap _)
  · rename_i hmetadata
    exact absurd hmetadata hnull
  · rfl

/-- Both have parts, which are alike, or neither has, for the same reason. -/
theorem parts?_of_alike (hproperties : Alike c e.properties e'.properties)
    (hmetadata : Alike c e.metadata e'.metadata) (typeText : String) :
    (∃ f, Scrubber.parts? e typeText = .error f ∧ Scrubber.parts? e' typeText = .error f) ∨
      ∃ properties properties' metadata metadata',
        Scrubber.parts? e typeText = .ok (properties, metadata) ∧
        Scrubber.parts? e' typeText = .ok (properties', metadata') ∧
        AlikeFields c properties properties' ∧ AlikeFields c metadata metadata' := by
  rcases hproperties.map_iff with ⟨fields, fields', hp, hp', hfields⟩ | ⟨hp, hp', _⟩
  · rcases hmetadata.map_iff with ⟨m, m', hm, hm', hmeta⟩ | ⟨hm, hm', hnull⟩
    · refine Or.inr ⟨fields, fields', m, m', ?_, ?_, hfields, hmeta⟩
      · simp only [Scrubber.parts?, hp, hm]
      · simp only [Scrubber.parts?, hp', hm']
    · -- Absent metadata count as empty ones.
      by_cases habsent : e.metadata = .null
      · refine Or.inr ⟨fields, fields', [], [], ?_, ?_, hfields, .nil⟩
        · simp only [Scrubber.parts?, hp, habsent]
        · simp only [Scrubber.parts?, hp', hnull.mp habsent]
      · exact Or.inl ⟨_, parts?_of_metadata hp hm habsent typeText,
          parts?_of_metadata hp' hm' (mt hnull.mpr habsent) typeText⟩
  · exact Or.inl ⟨_, parts?_of_properties hp typeText, parts?_of_properties hp' typeText⟩

theorem identity_of_indistinct (h : Indistinct c e e') : s.identity e' = s.identity e := by
  unfold Scrubber.identity forbiddenTexts
  rw [h.id, h.tenantId]

theorem assemble_of_indistinct (h : Indistinct c e e') (who : Identity) (trail : Trail)
    (properties metadata : Fields) :
    s.assemble who c e entityType trail properties metadata =
      s.assemble who c e' entityType trail properties metadata := by
  unfold Scrubber.assemble
  rw [h.type, h.version, h.source, h.createdAt, h.updatedAt, h.isDeleted,
    h.deletedAt]

theorem scrubMaps_eq_of_alike {properties properties' metadata metadata' : Fields}
    (h : Indistinct (s.context e entityType.messageText l) e e')
    (hproperties : AlikeFields (s.context e entityType.messageText l) properties properties')
    (hmetadata : AlikeFields (s.context e entityType.messageText l) metadata metadata') :
    s.scrubMaps (s.identity e) e entityType l properties metadata =
      s.scrubMaps (s.identity e') e' entityType l properties' metadata' := by
  have hparts : Scrubber.scrubParts (s.contextOf (s.identity e) entityType.messageText l) properties
      metadata = Scrubber.scrubParts (s.contextOf (s.identity e) entityType.messageText l) properties'
      metadata' := scrubParts_eq_of_alike hproperties hmetadata
  unfold Scrubber.scrubMaps
  dsimp only
  rw [identity_of_indistinct h, hparts]
  split
  · rfl
  · rw [assemble_of_indistinct (c := s.contextOf (s.identity e) entityType.messageText l) h]

theorem scrub_of_copyable (htype : entityType.truthy = true) (hcopy : e.copyable = true) :
    s.scrub (some e) entityType (.level l) =
      match Scrubber.parts? e entityType.messageText with
      | .error f => (.error (.named f), [])
      | .ok (properties, metadata) =>
        s.scrubMaps (s.identity e) e entityType l properties metadata := by
  simp only [Scrubber.scrub, Scrubber.scrubAs, Scrubber.accept, htype, hcopy, Bool.not_true,
    Bool.false_eq_true, if_false, if_true]
  cases Scrubber.parts? e entityType.messageText <;> rfl

/-- Scrubbing does not depend on what it removes: entities that are alike come to the same result, with
the same audit, or to the same fault; and the same lines are logged. -/
theorem scrub_eq_of_alike (hcopy : e.copyable = true) (hcopy' : e'.copyable = true)
    (h : Indistinct (s.context e entityType.messageText l) e e') :
    s.scrub (some e) entityType (.level l) = s.scrub (some e') entityType (.level l) := by
  cases htype : entityType.truthy with
  | false =>
    simp only [Scrubber.scrub, Scrubber.scrubAs, Scrubber.accept, htype, Bool.not_false, if_true]
  | true =>
    rw [scrub_of_copyable htype hcopy, scrub_of_copyable htype hcopy']
    rcases parts?_of_alike h.properties h.metadata entityType.messageText with
      ⟨f, hf, hf'⟩ | ⟨properties, properties', metadata, metadata', hp, hp', hproperties, hmetadata⟩
    · rw [hf, hf']
    · rw [hp, hp']
      exact scrubMaps_eq_of_alike h hproperties hmetadata

/-! ### Sample -/

/-- Like the sample, but with another number, another spelling of the address, and a trace of who
changed it. -/
def sampleTwin : Entity :=
  { sampleEntity with
    properties := .map [(.str "ssn", .str "none"), (.str "email", .str " Ann@Example.ORG "),
      (.str "visits", .list [.int 1, .str "at ACME", .int 2])]
    updatedBy := .str "ann" }

theorem indistinct_sampleTwin :
    Indistinct (sampleScrubber.context sampleEntity "Note" .moderate) sampleEntity sampleTwin where
  id := rfl
  type := rfl
  tenantId := rfl
  version := rfl
  source := rfl
  createdAt := rfl
  updatedAt := rfl
  isDeleted := rfl
  deletedAt := rfl
  properties := by
    refine .map (.cons (.removed rfl (Or.inl ?_)) (.cons (.token rfl ?_ ?_ ?_ ?_) (.refl _)))
    · decide +kernel
    · exact ⟨by decide +kernel, rfl⟩
    · decide +kernel
    · decide +kernel
    · have hspelling : lower (trim "ann@example.org".toList) =
          lower (trim " Ann@Example.ORG ".toList) := by decide +kernel
      simp only [Hasher.tokenize, Hasher.canonicalText, hspelling]
  metadata := .same

theorem scrub_eq_of_alike_sample :
    sampleEntity.copyable = true ∧ sampleTwin.copyable = true ∧
      Indistinct (sampleScrubber.context sampleEntity "Note" .moderate) sampleEntity sampleTwin ∧
      sampleScrubber.scrub (some sampleEntity) (.str "Note") (.level .moderate) =
        sampleScrubber.scrub (some sampleTwin) (.str "Note") (.level .moderate) := by
  have hcopy : sampleEntity.copyable = true := by decide +kernel
  have hcopy' : sampleTwin.copyable = true := by decide +kernel
  exact ⟨hcopy, hcopy', indistinct_sampleTwin, scrub_eq_of_alike hcopy hcopy' indistinct_sampleTwin⟩

/-- The sample with an address that has parts, one of them under a key that is stripped at every level. -/
def partedEntity (n : Int) : Entity :=
  { sampleEntity with properties := .map [(.str "email", .map [(.str "ssn", .int n)])] }

/-- The text that is left under the address. -/
def partedToken (n : Int) : Option String :=
  (sampleScrubber.scrub (some (partedEntity n)) (.str "Note") (.level .moderate)).1.toOption.bind
    fun out => (out.properties.field? "email").map Value.textD

/-- A token is made of the whole value, also of what would be removed from it: addresses that are alike,
as they differ only under a key that is stripped, leave different tokens. -/
theorem token_of_removed_part :
    (sampleScrubber.rules.classify "ssn".toList).isStripped = true ∧
      (sampleScrubber.context (partedEntity 1) "Note" .moderate).Tokenizes "email".toList ∧
      Alike (sampleScrubber.context (partedEntity 1) "Note" .moderate)
        (.map [(.str "ssn", .int 1)]) (.map [(.str "ssn", .int 2)]) ∧
      (partedToken 1).isSome = true ∧ (partedToken 2).isSome = true ∧
      partedToken 1 ≠ partedToken 2 := by
  have hstripped : (sampleScrubber.rules.classify "ssn".toList).isStripped = true := by decide +kernel
  have htokens : (partedToken 1).isSome = true ∧ (partedToken 2).isSome = true ∧
      partedToken 1 ≠ partedToken 2 := by decide +kernel
  exact ⟨hstripped, ⟨by decide +kernel, rfl⟩,
    .map (.cons (.removed rfl (Or.inl hstripped)) .nil), htokens⟩

end ConsentGate.Scrub
