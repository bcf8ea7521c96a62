import ConsentGate.Proofs.Credential.Numeric
import ConsentGate.Proofs.Scrub.Coarsening
import ConsentGate.Proofs.Scrub.Places

/-! Scrubbing once more changes nothing.

`Settled` describes the values to which scrubbing has nothing more to do. At the strict and the minimal
level whatever scrubbing leaves is settled (`settled_of_left`), provided that the texts of months are
safe; and a settled value comes back as it is, with nothing recorded but generalisations that changed
nothing (`Settled.repeats`). The moderate level is different: it would make tokens of its tokens. -/
namespace ConsentGate
open Calendar Text
set_option autoImplicit false
-- Parts of a text are found as the core library does it, also where Mathlib knows another way.
attribute [local instance (high)] List.instDecidableIsInfixOfDecidableEq

/-! ## Copies -/

namespace Value

theorem allCopyable_iff {items : List Value} :
    allCopyable items = true ↔ ∀ v ∈ items, v.copyable = true := by
  induction items with
  | nil => simp [allCopyable]
  | cons v rest ih => simp [allCopyable, ih]

theorem fieldsCopyable_iff {fields : Fields} :
    fieldsCopyable fields = true ↔
      ∀ field ∈ fields, field.1.copyable = true ∧ field.2.copyable = true := by
  induction fields with
  | nil => simp [fieldsCopyable]
  | cons field rest ih => simp [fieldsCopyable, ih, and_assoc]

theorem copyable_of_isScalar {v : Value} (h : v.isScalar = true) : v.copyable = true := by
  cases v <;> first | rfl | cases h

/-- A date that lost its day cannot lose it again. -/
theorem generalizeDate_again {v w : Value} {path : String} {epoch : Bool}
    (h : v.generalizeDate path = .ok w) (hw : w.isDate epoch = true) (path' : String) :
    w.generalizeDate path' = .ok w := by
  obtain ⟨_, rfl⟩ | ⟨t, _, rfl | ⟨_, _, rfl⟩ | rfl | ⟨hoffset, rfl⟩⟩ := generalizeDate_eq_ok h
  · rfl
  · rfl
  · rfl
  · -- The text of a month is no date any more.
    have hunread := readTimestamp_monthText t.date
    simp only [isDate, toTimestamp, String.toList_ofList, hunread] at hw
    cases hw
  · rw [generalizeDate, toTimestamp_epochSeconds hoffset path']
    rfl

end Value

namespace Scrub
open ConsentGate.Field

/-! ## Settled values -/

/-- Nothing but generalisations is recorded. -/
structure Trail.Quiet (t : Trail) : Prop where
  removed : t.removed = []
  tokenized : t.tokenized = []
  failed : t.failed = []

theorem Trail.Quiet.join {s t : Trail} (hs : s.Quiet) (ht : t.Quiet) : (s.join t).Quiet where
  removed := by simp [Trail.join, hs.removed, ht.removed]
  tokenized := by simp [Trail.join, hs.tokenized, ht.tokenized]
  failed := by simp [Trail.join, hs.failed, ht.failed]

/-- The attempt gives the value, and nothing but generalisations is recorded. -/
structure Attempt.Repeats {α : Type} (x : Attempt α) (a : α) : Prop where
  result : x.result = .ok a
  quiet : x.trail.Quiet

/-- Values to which scrubbing has nothing more to do: texts are safe, dates that would lose their day have
lost it, and every key is opened. -/
inductive Settled (c : Context) : List Char → Value → Prop
  | leaf {name : List Char} {v : Value} (scalar : v.isScalar = true) (safe : c.isUnsafe v = false)
      (coarse : c.level = .strict → c.rules.isDateKey name = true →
        v.isDate (c.rules.isEpochKey name) = true → ∀ path, v.generalizeDate path = .ok v) :
      Settled c name v
  | list {name : List Char} {items : List Value} (each : ∀ v ∈ items, Settled c name v) :
      Settled c name (.list items)
  | map {name : List Char} {fields : Fields}
      (opened : ∀ field ∈ fields, ∃ own, field.1.plain = .ok own ∧ c.Opens own)
      (each : ∀ field ∈ fields, ∀ own, field.1.plain = .ok own → Settled c own field.2) :
      Settled c name (.map fields)

variable {c : Context} {name : List Char} {path : String} {v w : Value}

theorem scrubLeaf_repeats (hscalar : v.isScalar = true) (hsafe : c.isUnsafe v = false)
    (hcoarse : c.level = .strict → c.rules.isDateKey name = true →
      v.isDate (c.rules.isEpochKey name) = true → ∀ path, v.generalizeDate path = .ok v)
    (path : String) : (scrubLeaf c name path v).Repeats (some v) := by
  rw [scrubLeaf, hsafe, if_neg (by decide), check_of_isScalar hscalar]
  dsimp only
  unfold keepOrGeneralize
  split
  · rename_i hdate
    rw [hcoarse hdate.1 hdate.2.1 hdate.2.2 path]
    exact ⟨rfl, rfl, rfl, rfl⟩
  · exact ⟨rfl, rfl, rfl, rfl⟩

theorem scrubItems_repeats {items : List Value}
    (h : ∀ v ∈ items, ∀ path, (scrubValue c name path v).Repeats (some v)) (path : String) (i : Nat) :
    (scrubItems c name path i items).Repeats items := by
  induction items generalizing i with
  | nil => exact ⟨rfl, rfl, rfl, rfl⟩
  | cons v rest ih =>
    obtain ⟨hv, hrest⟩ := List.forall_mem_cons.mp h
    obtain ⟨hresult, hquiet⟩ := hv (Value.itemPath path i)
    obtain ⟨hothers, hquiet'⟩ := ih hrest (i + 1)
    rw [scrubItems, Attempt.andThen_of_ok hresult]
    refine ⟨?_, hquiet.join hquiet'⟩
    rw [Attempt.map_result, hothers]
    rfl

theorem scrubFields_repeats {fields : Fields}
    (hopened : ∀ field ∈ fields, ∃ own, field.1.plain = .ok own ∧ c.Opens own)
    (h : ∀ field ∈ fields, ∀ own, field.1.plain = .ok own →
      ∀ path, (scrubValue c own path field.2).Repeats (some field.2))
    (path : String) : (scrubFields c path fields).Repeats fields := by
  induction fields with
  | nil => exact ⟨rfl, rfl, rfl, rfl⟩
  | cons field rest ih =>
    obtain ⟨key, v⟩ := field
    obtain ⟨⟨own, hplain, hopens⟩, hopened⟩ := List.forall_mem_cons.mp hopened
    obtain ⟨hv, hrest⟩ := List.forall_mem_cons.mp h
    obtain ⟨hresult, hquiet⟩ := hv own hplain (Value.fieldPath path (String.ofList own))
    obtain ⟨hothers, hquiet'⟩ := ih hopened hrest
    rw [scrubFields_cons c path hplain, scrubAlone, scrubField_of_opens hopens]
    simp only [settle, hresult, hothers]
    exact ⟨rfl, hquiet.join hquiet'⟩

theorem Settled.repeats (h : Settled c name v) (path : String) :
    (scrubValue c name path v).Repeats (some v) := by
  induction h generalizing path with
  | leaf scalar safe coarse =>
    rw [scrubValue_of_isLeaf (isLeaf_of_isScalar scalar)]
    exact scrubLeaf_repeats scalar safe coarse path
  | @list name items each ih =>
    obtain ⟨hresult, hquiet⟩ := scrubItems_repeats ih path 0
    exact ⟨scrubValue_list_of_ok hresult, by rw [scrubValue]; exact hquiet⟩
  | @map name fields opened each ih =>
    obtain ⟨hresult, hquiet⟩ := scrubFields_repeats opened ih path
    exact ⟨scrubValue_map_of_ok hresult, by rw [scrubValue]; exact hquiet⟩

/-! ## What is left is settled -/

/-- The texts of months are safe, at the level at which they are made. -/
def Context.MonthsSafe (c : Context) : Prop :=
  c.level = .strict → ∀ d : Date, c.isUnsafeText (String.ofList d.monthText) = false

theorem isUnsafe_of_generalizeDate (hmonths : c.MonthsSafe) (hlevel : c.level = .strict)
    (h : v.generalizeDate path = .ok w) : c.isUnsafe w = false := by
  obtain ⟨_, rfl⟩ | ⟨t, _, rfl | ⟨_, _, rfl⟩ | rfl | ⟨_, rfl⟩⟩ := Value.generalizeDate_eq_ok h
  · rfl
  · rfl
  · rfl
  · exact hmonths hlevel t.date
  · rfl

theorem settled_of_scrubLeaf (hmonths : c.MonthsSafe) (hleaf : IsLeaf v)
    (h : (scrubLeaf c name path v).result = .ok (some w)) : Settled c name w := by
  obtain ⟨hsafe, hscalar, ⟨rfl, hdate⟩ | ⟨hlevel, _, _, hcoarser⟩⟩ := scrubLeaf_eq_some hleaf h
  · exact .leaf hscalar hsafe fun hlevel hkey hisDate => absurd ⟨hlevel, hkey, hisDate⟩ hdate
  · exact .leaf (isScalar_of_generalizeDate hcoarser)
      (isUnsafe_of_generalizeDate hmonths hlevel hcoarser)
      fun _ _ hisDate => Value.generalizeDate_again hcoarser hisDate

/-- Away from the moderate level whatever is left is settled. -/
theorem settled_of_left (hlevel : c.level ≠ .moderate) (hmonths : c.MonthsSafe)
    (h : (scrubValue c name path v).result = .ok (some w)) : Settled c name w := by
  refine scrubValue_induction (P := fun name _ w => Settled c name w) ?_ ?_ ?_ h
  · intro name path v w hleaf hkept
    exact settled_of_scrubLeaf hmonths hleaf hkept
  · intro name items kept heach
    refine .list fun w hw => ?_
    obtain ⟨_, _, hsettled⟩ := heach w hw
    exact hsettled
  · intro name fields kept heach
    have hopened : ∀ field ∈ kept, ∃ own, field.1.plain = .ok own ∧ c.Opens own ∧
        Settled c own field.2 := by
      intro field hfield
      obtain ⟨_, own, _, hplain, ⟨htokenizes, _⟩ | ⟨hopens, hsettled⟩⟩ := heach field hfield
      · -- Only the moderate level makes tokens.
        exact absurd htokenizes.2 hlevel
      · exact ⟨own, hplain, hopens, hsettled⟩
    refine .map (fun field hfield => ?_) fun field hfield own hplain => ?_
    · obtain ⟨own, hplain, hopens, _⟩ := hopened field hfield
      exact ⟨own, hplain, hopens⟩
    · obtain ⟨own', hplain', _, hsettled⟩ := hopened field hfield
      cases hplain.symm.trans hplain'
      exact hsettled

theorem scrubFields_again {fields kept : Fields} (hlevel : c.level ≠ .moderate)
    (hmonths : c.MonthsSafe) (h : (scrubFields c path fields).result = .ok kept) :
    (scrubFields c path kept).Repeats kept := by
  have hsettled : Settled c [] (.map kept) := settled_of_left hlevel hmonths (scrubValue_map_of_ok h)
  cases hsettled with
  | leaf scalar _ _ => cases scalar
  | map opened each =>
    exact scrubFields_repeats opened (fun field hfield own hplain path =>
      (each field hfield own hplain).repeats path) path

theorem copyable_of_left (name : List Char) (hv : v.copyable = true)
    (h : (scrubValue c name path v).result = .ok (some w)) : w.copyable = true := by
  refine scrubValue_induction (P := fun _ v w => v.copyable = true → w.copyable = true)
    ?_ ?_ ?_ h hv
  · intro name path v w hleaf hkept _
    exact Value.copyable_of_isScalar (isScalar_of_scrubLeaf hleaf hkept)
  · intro name items kept heach hitems
    refine Value.allCopyable_iff.mpr fun w hw => ?_
    obtain ⟨u, hu, hcopy⟩ := heach w hw
    exact hcopy (Value.allCopyable_iff.mp hitems u hu)
  · intro name fields kept heach hfields
    refine Value.fieldsCopyable_iff.mpr fun field hfield => ?_
    obtain ⟨u, own, hu, _, hmade⟩ := heach field hfield
    obtain ⟨hkey, hcopy⟩ := Value.fieldsCopyable_iff.mp hfields _ hu
    refine ⟨hkey, ?_⟩
    rcases hmade with ⟨_, htoken⟩ | ⟨_, hmade⟩
    · exact Value.copyable_of_isScalar (isScalar_of_tokenize htoken)
    · exact hmade hcopy

/-! ## Entities -/

variable {s : Scrubber} {e e' : Entity} {entityType : Value} {typeText text : String} {l : Level}
  {out : Scrubbed}

theorem exists_of_mem_forbiddenTexts {folded : List Char} (h : folded ∈ forbiddenTexts e) :
    ∃ raw : String, (e.id = .str raw ∨ e.tenantId = .str raw) ∧ allBlank raw.toList = false ∧
      folded = caseFold (trim raw.toList) := by
  unfold forbiddenTexts at h
  obtain ⟨v, hv, h⟩ := List.mem_filterMap.mp h
  obtain ⟨raw, hraw, h⟩ := Option.bind_eq_some_iff.mp h
  unfold forbiddenText at h
  split at h
  · cases h
  · rename_i hblank
    cases h
    rw [Value.str?_eq_some] at hraw
    simp only [List.mem_cons, List.not_mem_nil, or_false] at hv
    refine ⟨raw, ?_, by simpa using hblank, rfl⟩
    rcases hv with rfl | rfl
    · exact Or.inl hraw
    · exact Or.inr hraw

theorem isUnsafeText_of_safeText (h : s.SafeText e text) :
    (s.context e typeText l).isUnsafeText text = false := by
  have hidentity : (s.context e typeText l).referencesIdentity text = false := by
    refine List.any_eq_false.mpr fun folded hfolded => ?_
    obtain ⟨raw, hraw, hblank, rfl⟩ := exists_of_mem_forbiddenTexts hfolded
    intro hmentions
    have hpiece : caseFold (trim raw.toList) <:+: caseFold text.toList := of_decide_eq_true hmentions
    exact h.namesNobody raw hraw hblank hpiece
  have hcredential : ((s.context e typeText l).scanValues &&
      Credential.isPresentBy (s.context e typeText l).detect text.toList) = false := by
    show (s.scanValues && _) = false
    cases hscan : s.scanValues with
    | false => rfl
    | true => exact h.noCredential hscan
  rw [Context.isUnsafeText, hidentity, hcredential]
  rfl

theorem monthText_subset (d : Date) : d.monthText ⊆ Credential.numericChars := by
  have hdigit : ∀ c : Char, c.isDigit = true → c ∈ Credential.numericChars := by
    intro c hc
    have hall : ∀ n, n < 58 → 48 ≤ n → Char.ofNat n ∈ Credential.numericChars := by decide
    obtain ⟨hlow, hhigh⟩ := Number.isDigit_iff.mp hc
    rw [← Char.ofNat_toNat c]
    exact hall c.toNat (by omega) hlow
  intro c hc
  rcases List.mem_append.mp hc with hyear | hmonth
  · exact hdigit c (isDigit_padDigits hyear)
  · rcases List.mem_cons.mp hmonth with rfl | hmonth
    · decide
    · exact hdigit c (isDigit_padDigits hmonth)

theorem caseFold_of_numeric {s : List Char} (h : s ⊆ Credential.numericChars) : caseFold s = s := by
  have hsame : (Credential.numericChars.all fun c => foldChar c == [c]) = true := by decide
  induction s with
  | nil => rfl
  | cons c s ih =>
    obtain ⟨hc, hs⟩ := List.cons_subset.mp h
    rw [caseFold, List.flatMap_cons, eq_of_beq (List.all_eq_true.mp hsame c hc)]
    exact congrArg (c :: ·) (ih hs)

/-- Months name nobody: no identifier of the entity or its tenant, without the blanks around it and
folded, stands in the text of a month. -/
def MonthsNameNobody (e : Entity) : Prop :=
  ∀ raw, e.id = .str raw ∨ e.tenantId = .str raw → allBlank raw.toList = false →
    ∀ d : Date, ¬caseFold (trim raw.toList) <:+: d.monthText

/-- The line scanner finds nothing in the text of a month. -/
def Scrubber.PassesMonths (s : Scrubber) : Prop := ∀ d : Date, s.detect d.monthText = []

theorem monthsSafe (h : MonthsNameNobody e) (hpasses : s.PassesMonths) :
    (s.context e typeText l).MonthsSafe := by
  intro _ d
  refine isUnsafeText_of_safeText ⟨fun raw hraw hblank hmentions => ?_, fun _ => ?_⟩
  · unfold Mentions at hmentions
    rw [String.toList_ofList, caseFold_of_numeric (monthText_subset d)] at hmentions
    exact h raw hraw hblank d hmentions
  · rw [String.toList_ofList]
    exact Credential.isPresentBy_of_numeric (monthText_subset d) (hpasses d)

/-- An entity that has the properties and metadata of a result in place of its own, and the rest as the
entity that was scrubbed; what scrubbing does not look at need only be such that it can be copied. -/
structure Again (e : Entity) (out : Scrubbed) (e' : Entity) : Prop where
  id : e'.id = e.id
  tenantId : e'.tenantId = e.tenantId
  type : e'.type = e.type
  createdAt : e'.createdAt = e.createdAt
  updatedAt : e'.updatedAt = e.updatedAt
  deletedAt : e'.deletedAt = e.deletedAt
  properties : e'.properties = out.properties
  metadata : e'.metadata = out.metadata
  others : ∀ v ∈ [e'.version, e'.source, e'.createdBy, e'.updatedBy, e'.isDeleted, e'.deletedBy],
    v.copyable = true

theorem copyable_of_mem_attributes (h : e.copyable = true) {v : Value} (hv : v ∈ e.attributes) :
    v.copyable = true :=
  List.all_eq_true.mp h v hv

theorem copyable_ownFields (h : v.copyable = true) : (Value.map (ownFields v)).copyable = true := by
  unfold ownFields
  split
  · rename_i fields
    refine Value.fieldsCopyable_iff.mpr fun field hfield => ?_
    exact Value.fieldsCopyable_iff.mp h field (List.mem_of_mem_filter hfield)
  · rfl

theorem Whole.copyable (w : Whole s e entityType l out) (h : e.copyable = true)
    (htype : entityType.copyable = true) :
    out.properties.copyable = true ∧ out.metadata.copyable = true := by
  have hproperties : (Value.map w.properties).copyable = true := by
    rw [← w.propertiesAre]
    exact copyable_of_mem_attributes h (by simp [Entity.attributes])
  have hmetadata : (Value.map (ownFields e.metadata)).copyable = true :=
    copyable_ownFields (copyable_of_mem_attributes h (by simp [Entity.attributes]))
  have hkept : (Value.map w.keptMetadata).copyable = true :=
    copyable_of_left [] hmetadata (scrubValue_map_of_ok w.scrubMetadata)
  constructor
  · rw [w.outProperties]
    exact copyable_of_left [] hproperties (scrubValue_map_of_ok w.scrubProperties)
  · rw [w.outMetadata]
    refine Value.fieldsCopyable_iff.mpr fun field hfield => ?_
    rcases List.mem_append.mp hfield with hfield | hfield
    · exact Value.fieldsCopyable_iff.mp hkept field hfield
    · simp only [Scrubber.provenance, List.mem_cons, List.not_mem_nil, or_false] at hfield
      rcases hfield with rfl | rfl | rfl | rfl | rfl | rfl
      · exact ⟨rfl, rfl⟩
      · exact ⟨rfl, rfl⟩
      · exact ⟨rfl, htype⟩
      · exact ⟨rfl, rfl⟩
      · exact ⟨rfl, rfl⟩
      · exact ⟨rfl, rfl⟩

theorem Again.copyable (h : Again e out e') (hcopy : e.copyable = true)
    (hproperties : out.properties.copyable = true) (hmetadata : out.metadata.copyable = true) :
    e'.copyable = true := by
  have hsame : ∀ v ∈ [e.id, e.type, e.tenantId, e.createdAt, e.updatedAt, e.deletedAt],
      v.copyable = true := by
    intro v hv
    refine copyable_of_mem_attributes hcopy ?_
    simp only [Entity.attributes, List.mem_cons, List.not_mem_nil, or_false] at hv ⊢
    tauto
  have hothers := h.others
  simp only [List.forall_mem_cons, List.not_mem_nil, false_imp_iff, implies_true, and_true] at hsame hothers
  simp only [Entity.copyable, Entity.attributes, List.all_cons, List.all_nil, h.id, h.type,
    h.properties, h.metadata, h.tenantId, h.createdAt, h.updatedAt, h.deletedAt, hproperties,
    hmetadata, hsame, hothers, Bool.and_self]

/-- Scrubbing once more changes nothing. At the strict and the minimal level, if no month names the
entity or its tenant and the line scanner finds nothing in a month, the properties and metadata of a
result come back as they are when they are scrubbed in place of the entity's own; nothing is removed,
made a token or dropped on a fault. The type need only be such that it can be copied, as every text
can. -/
theorem scrub_again (hlevel : l ≠ .moderate) (htype : entityType.copyable = true)
    (hmonths : MonthsNameNobody e) (hpasses : s.PassesMonths)
    (h : (s.scrub (some e) entityType (.level l)).1 = .ok out)
    (hagain : Again e out e') :
    ∃ out', (s.scrub (some e') entityType (.level l)).1 = .ok out' ∧
      out'.properties = out.properties ∧ out'.metadata = out.metadata ∧
      out'.audit.trail.removed = [] ∧ out'.audit.trail.tokenized = [] ∧
      out'.audit.trail.failed = [] := by
  obtain ⟨w⟩ := exists_whole h
  obtain ⟨htruthy, hcopy⟩ := truthy_of_scrub h
  obtain ⟨hpropertiesCopy, hmetadataCopy⟩ := w.copyable hcopy htype
  -- A context knows the entity by its identifiers only, and these are the same.
  have hidentity : s.identity e' = s.identity e := by
    unfold Scrubber.identity forbiddenTexts
    rw [hagain.id, hagain.tenantId]
  have hcontext : s.context e' entityType.messageText l = s.context e entityType.messageText l := by
    unfold Scrubber.context
    rw [hidentity]
  obtain ⟨hkeptProperties, hquietProperties⟩ :=
    scrubFields_again hlevel (monthsSafe hmonths hpasses) w.scrubProperties
  obtain ⟨hkeptMetadata, hquietMetadata⟩ :=
    scrubFields_again hlevel (monthsSafe hmonths hpasses) w.scrubMetadata
  have hown : ownFields e'.metadata = w.keptMetadata := by rw [hagain.metadata, w.ownFields_metadata]
  -- The attributes are hashed and dated as they were the first time.
  obtain ⟨id, hid, _⟩ := w.outId
  have htenantHash : (s.identity e').tenantHash = .ok w.tenantHash := hidentity ▸ w.hashTenant
  have hidHash : (s.identity e').idHash = .ok id := hidentity ▸ hid
  obtain ⟨out', hout', hproperties, hmetadata, htrail⟩ :=
    exists_assemble (c := s.context e' entityType.messageText l) (e := e') htenantHash hidHash
      (by rw [hagain.createdAt]; exact w.outCreatedAt)
      (by rw [hagain.updatedAt]; exact w.outUpdatedAt)
      (by rw [hagain.deletedAt]; exact w.outDeletedAt) entityType
      (partsTrail (s.context e' entityType.messageText l) w.keptProperties w.keptMetadata)
      w.keptProperties w.keptMetadata
  have hquiet : out'.audit.trail.Quiet := by
    rw [htrail, hcontext]
    exact hquietProperties.join hquietMetadata
  have hmap : e'.metadata = .map (w.keptMetadata ++ s.provenance entityType l w.tenantHash) :=
    hagain.metadata.trans w.outMetadata
  have hscrub : (s.scrub (some e') entityType (.level l)).1 = .ok out' :=
    scrub_eq_ok_iff.mpr ⟨htruthy, hagain.copyable hcopy hpropertiesCopy hmetadataCopy,
      w.keptProperties, w.keptProperties, w.keptMetadata,
      hagain.properties.trans w.outProperties, Or.inr ⟨_, hmap⟩, by rw [hcontext, hkeptProperties],
      by rw [hcontext, hown, hkeptMetadata], by rw [hown, hout']⟩
  exact ⟨out', hscrub, hproperties.trans w.outProperties.symm, hmetadata.trans w.outMetadata.symm,
    hquiet.removed, hquiet.tokenized, hquiet.failed⟩

/-! ### A sample -/

/-- The entity that has the properties and metadata of a result in place of its own. -/
def Scrubbed.replaceIn (out : Scrubbed) (e : Entity) : Entity :=
  { e with properties := out.properties, metadata := out.metadata }

theorem again_datedEntity (out : Scrubbed) : Again datedEntity out (out.replaceIn datedEntity) where
  id := rfl
  tenantId := rfl
  type := rfl
  createdAt := rfl
  updatedAt := rfl
  deletedAt := rfl
  properties := rfl
  metadata := rfl
  others := by
    show ∀ v ∈ [datedEntity.version, datedEntity.source, datedEntity.createdBy,
      datedEntity.updatedBy, datedEntity.isDeleted, datedEntity.deletedBy], v.copyable = true
    decide

/-- No text with a letter in it stands in the text of a month. -/
theorem not_infix_monthText {s : List Char} {c : Char} (hc : c ∈ s) (hletter : c ∉ Credential.numericChars)
    (d : Date) : ¬s <:+: d.monthText :=
  fun hpiece => hletter (monthText_subset d (hpiece.subset hc))

theorem monthsNameNobody_datedEntity : MonthsNameNobody datedEntity := by
  intro raw hraw _ d
  rcases hraw with hid | htenant
  · have hraw : raw = "n-1" := (Value.str.inj hid).symm
    subst hraw
    exact not_infix_monthText (c := 'n') (by decide) (by decide) d
  · have hraw : raw = "acme" := (Value.str.inj htenant).symm
    subst hraw
    exact not_infix_monthText (c := 'a') (by decide) (by decide) d

theorem passesMonths_sampleScrubber : sampleScrubber.PassesMonths := fun d =>
  Credential.scanLine_of_numeric (monthText_subset d)

theorem scrub_again_sample :
    Level.strict ≠ .moderate ∧ (Value.str "Note").copyable = true ∧ MonthsNameNobody datedEntity ∧
      sampleScrubber.PassesMonths ∧
      ∃ out, datedResult = .ok out ∧ Again datedEntity out (out.replaceIn datedEntity) ∧
      ∃ out', (sampleScrubber.scrub (some (out.replaceIn datedEntity)) (.str "Note")
          (.level .strict)).1 = .ok out' ∧
        out'.properties = out.properties ∧ out'.metadata = out.metadata ∧
        out'.audit.trail.removed = [] ∧ out'.audit.trail.tokenized = [] ∧
        out'.audit.trail.failed = [] := by
  have hlevel : Level.strict ≠ .moderate := by decide
  have htype : (Value.str "Note").copyable = true := rfl
  have hok : datedResult.isOk = true := by decide +kernel
  obtain ⟨out, hout⟩ := exists_eq_ok hok
  exact ⟨hlevel, htype, monthsNameNobody_datedEntity, passesMonths_sampleScrubber, out, hout,
    again_datedEntity out, scrub_again hlevel htype monthsNameNobody_datedEntity
      passesMonths_sampleScrubber hout (again_datedEntity out)⟩

end Scrub

end ConsentGate
