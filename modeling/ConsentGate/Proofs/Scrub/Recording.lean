import ConsentGate.Proofs.Scrub.Places
import ConsentGate.Proofs.Value.Reading

/-! The trail tells of everything that scrubbing changes.

Every path that is recorded while a value is scrubbed leads from the path of that value. A value for
which nothing is recorded is left as it was, or met a fault, which the field around it records
(`scrubValue_accounts`). Hence a field without a record at or below its path comes through as it was,
and one that is gone was recorded as removed or failed (`no_silent_change`). -/
namespace ConsentGate
set_option autoImplicit false

/-! ## Paths -/

/-- A path is the given one, or leads further down from it. -/
def Leads (path p : String) : Prop :=
  p = path ∨ ∃ rest, p = path ++ "." ++ rest ∨ p = path ++ "[" ++ rest

theorem leads_self (path : String) : Leads path path := Or.inl rfl

/-- A path leads further down from the given one, to a field or into a list. -/
def Below (path p : String) : Prop := ∃ rest, p = path ++ "." ++ rest ∨ p = path ++ "[" ++ rest

theorem Below.ne {path p : String} (h : Below path p) : p ≠ path := by
  have hdot : ".".length = 1 := rfl
  have hbracket : "[".length = 1 := rfl
  rintro rfl
  obtain ⟨rest, hrest | hrest⟩ := h
  · have hlength := congrArg String.length hrest
    simp only [String.length_append] at hlength
    omega
  · have hlength := congrArg String.length hrest
    simp only [String.length_append] at hlength
    omega

theorem Leads.below_of_field {path key p : String} (h : Leads (Value.fieldPath path key) p) :
    Below path p := by
  unfold Value.fieldPath at h
  rcases h with rfl | ⟨rest, rfl | rfl⟩
  · exact ⟨key, Or.inl rfl⟩
  · exact ⟨key ++ "." ++ rest, Or.inl (by simp only [String.append_assoc])⟩
  · exact ⟨key ++ "[" ++ rest, Or.inl (by simp only [String.append_assoc])⟩

theorem Leads.below_of_item {path p : String} {i : Nat} (h : Leads (Value.itemPath path i) p) :
    Below path p := by
  unfold Value.itemPath at h
  rcases h with rfl | ⟨rest, rfl | rfl⟩
  · exact ⟨Text.natString i ++ "]", Or.inr (by simp only [String.append_assoc])⟩
  · exact ⟨Text.natString i ++ "]" ++ "." ++ rest, Or.inr (by simp only [String.append_assoc])⟩
  · exact ⟨Text.natString i ++ "]" ++ "[" ++ rest, Or.inr (by simp only [String.append_assoc])⟩

theorem Leads.field {path key p : String} (h : Leads (Value.fieldPath path key) p) : Leads path p :=
  Or.inr h.below_of_field

theorem Leads.item {path p : String} {i : Nat} (h : Leads (Value.itemPath path i) p) :
    Leads path p :=
  Or.inr h.below_of_item

namespace Scrub
open ConsentGate.Field Text

/-! ## Trails -/

namespace Trail

variable {s t : Trail} {p : String}

/-- All paths of a trail, whatever happened to the fields. -/
def paths (t : Trail) : List String := t.removed ++ t.tokenized ++ t.generalized ++ t.failed

theorem changed_eq (t : Trail) : t.changed = t.paths.length := by
  simp [changed, paths, List.length_append]
  omega

@[simp] theorem paths_empty : empty.paths = [] := rfl

@[simp] theorem mem_paths_join : p ∈ (s.join t).paths ↔ p ∈ s.paths ∨ p ∈ t.paths := by
  simp only [paths, join, List.mem_append]
  tauto

@[simp] theorem paths_join_eq_nil : (s.join t).paths = [] ↔ s.paths = [] ∧ t.paths = [] := by
  simp only [paths, join, List.append_eq_nil_iff]
  tauto

/-- Everything that one trail records stands in the other one too. -/
structure IsPart (s t : Trail) : Prop where
  removed : s.removed ⊆ t.removed
  tokenized : s.tokenized ⊆ t.tokenized
  generalized : s.generalized ⊆ t.generalized
  failed : s.failed ⊆ t.failed

theorem isPart_join_left (s t : Trail) : s.IsPart (s.join t) where
  removed := List.subset_append_left _ _
  tokenized := List.subset_append_left _ _
  generalized := List.subset_append_left _ _
  failed := List.subset_append_left _ _

theorem isPart_join_right (s t : Trail) : t.IsPart (s.join t) where
  removed := List.subset_append_right _ _
  tokenized := List.subset_append_right _ _
  generalized := List.subset_append_right _ _
  failed := List.subset_append_right _ _

theorem IsPart.refl (t : Trail) : t.IsPart t where
  removed := List.Subset.refl _
  tokenized := List.Subset.refl _
  generalized := List.Subset.refl _
  failed := List.Subset.refl _

theorem IsPart.trans {r : Trail} (h : s.IsPart t) (h' : t.IsPart r) : s.IsPart r where
  removed := List.Subset.trans h.removed h'.removed
  tokenized := List.Subset.trans h.tokenized h'.tokenized
  generalized := List.Subset.trans h.generalized h'.generalized
  failed := List.Subset.trans h.failed h'.failed

theorem IsPart.paths (h : s.IsPart t) : s.paths ⊆ t.paths := by
  intro p hp
  simp only [Trail.paths, List.mem_append] at hp ⊢
  rcases hp with ((hp | hp) | hp) | hp
  · exact Or.inl (Or.inl (Or.inl (h.removed hp)))
  · exact Or.inl (Or.inl (Or.inr (h.tokenized hp)))
  · exact Or.inl (Or.inr (h.generalized hp))
  · exact Or.inr (h.failed hp)

end Trail

/-! ## Attempts -/

variable {c : Context} {path : String} {v : Value}

theorem Attempt.isPart_andThen {α β : Type} (x : Attempt α) (f : α → Attempt β) :
    x.trail.IsPart (x.andThen f).trail := by
  cases hresult : x.result with
  | error e =>
    rw [andThen_of_error hresult]
    exact .refl _
  | ok a =>
    rw [andThen_of_ok hresult]
    exact Trail.isPart_join_left _ _

/-- What an attempt at a path records leads from the path; and if it records nothing, it comes to `a` or
to a fault. -/
structure Accounts {α : Type} (path : String) (a : α) (x : Attempt α) : Prop where
  leads : ∀ p ∈ x.trail.paths, Leads path p
  silent : x.trail.paths = [] → x.result = .ok a ∨ ∃ f, x.result = .error f

namespace Accounts

variable {α β : Type} {a : α} {x : Attempt α}

theorem ok (path : String) (a : α) : Accounts path a (.ok a) where
  leads := by simp [Attempt.ok]
  silent := fun _ => Or.inl rfl

theorem fail (path : String) (a : α) (f : Fault) : Accounts path a (.fail f) where
  leads := by simp [Attempt.fail]
  silent := fun _ => Or.inr ⟨f, rfl⟩

/-- An attempt that records its own path may come to anything. -/
theorem of_paths {path : String} (h : x.trail.paths = [path]) : Accounts path a x where
  leads := by
    intro p hp
    rw [h, List.mem_singleton] at hp
    exact Or.inl hp
  silent := by simp [h]

theorem map (h : Accounts path a x) (f : α → β) : Accounts path (f a) (x.map f) where
  leads := h.leads
  silent := by
    intro hnil
    rcases h.silent hnil with hok | ⟨fault, herror⟩
    · exact Or.inl (by rw [Attempt.map_result, hok]; rfl)
    · exact Or.inr ⟨fault, by rw [Attempt.map_result, herror]; rfl⟩

end Accounts

/-! ## One field -/

theorem scrubLeaf_accounts (c : Context) (name : List Char) (path : String) (v : Value) :
    Accounts path (some v) (scrubLeaf c name path v) := by
  rcases scrubLeaf_cases c name path v with heq | ⟨f, heq⟩ | heq | ⟨w, heq⟩ <;> rw [heq]
  · exact .of_paths rfl
  · exact .fail path _ f
  · exact .ok path _
  · exact .of_paths rfl

theorem accounts_of_value {name : List Char}
    (h : Accounts (Value.fieldPath path (String.ofList name)) (some v)
      (scrubValue c name (Value.fieldPath path (String.ofList name)) v)) :
    Accounts (Value.fieldPath path (String.ofList name)) (some v) (scrubAlone c path name v) := by
  rcases scrubAlone_cases c path name v with heq | ⟨_, _, heq⟩ | ⟨_, heq⟩ <;> rw [heq]
  · exact .of_paths rfl
  · exact .of_paths rfl
  · exact h

theorem settle_isPart (c : Context) (key : Value) (path : String) (x : Attempt (Option Value)) :
    x.trail.IsPart (settle c key path x).2 := by
  unfold settle
  split
  · exact .refl _
  · exact .refl _
  · exact Trail.isPart_join_left _ _

/-- A fault of the field is recorded beside what was recorded before it. -/
theorem settle_accounts (c : Context) (key : Value) {x : Attempt (Option Value)}
    (h : Accounts path (some v) x) :
    (∀ p ∈ (settle c key path x).2.paths, Leads path p) ∧
      ((settle c key path x).2.paths = [] → (settle c key path x).1 = [(key, v)]) := by
  unfold settle
  split
  · rename_i w hw
    refine ⟨h.leads, fun hnil => ?_⟩
    rcases h.silent hnil with hsame | ⟨f, hf⟩
    · cases hw.symm.trans hsame
      rfl
    · cases hw.symm.trans hf
  · rename_i hnone
    refine ⟨h.leads, fun hnil => ?_⟩
    rcases h.silent hnil with hsame | ⟨f, hf⟩
    · cases hnone.symm.trans hsame
    · cases hnone.symm.trans hf
  · rename_i f hf
    constructor
    · intro p hp
      rcases Trail.mem_paths_join.mp hp with hp | hp
      · exact h.leads p hp
      · rw [List.mem_singleton.mp hp]
        exact leads_self path
    · intro hnil
      cases (Trail.paths_join_eq_nil.mp hnil).2

/-! ## Values with parts -/

-- The cases follow the scrubber's own recursion. Items and fields record what leads from their own
-- paths, which lead from the path of the whole.
mutual
theorem scrubValue_accounts (c : Context) (name : List Char) (path : String) (v : Value) :
    Accounts path (some v) (scrubValue c name path v) := by
  match v with
  | .map fields =>
    rw [scrubValue]
    exact (scrubFields_accounts c path fields).map fun kept => some (Value.map kept)
  | .list items =>
    rw [scrubValue]
    exact (scrubItems_accounts c name path 0 items).map fun kept => some (Value.list kept)
  | .null | .bool _ | .int _ | .float _ | .decimal _ | .str _ | .date _ | .datetime _ | .bytes _
  | .tuple _ | .set _ | .level _ | .foreign | .uncopyable =>
    exact scrubLeaf_accounts c name path _

theorem scrubItems_accounts (c : Context) (name : List Char) (path : String) (i : Nat)
    (items : List Value) : Accounts path items (scrubItems c name path i items) := by
  match items with
  | [] =>
    rw [scrubItems]
    exact .ok path []
  | v :: rest =>
    have hfirst := scrubValue_accounts c name (Value.itemPath path i) v
    have hrest := scrubItems_accounts c name path (i + 1) rest
    rw [scrubItems]
    cases hresult : (scrubValue c name (Value.itemPath path i) v).result with
    | error f =>
      -- A fault ends the list; the field around it records the fault.
      rw [Attempt.andThen_of_error hresult]
      exact ⟨fun p hp => (hfirst.leads p hp).item, fun _ => Or.inr ⟨f, rfl⟩⟩
    | ok kept =>
      rw [Attempt.andThen_of_ok hresult]
      constructor
      · intro p hp
        rcases Trail.mem_paths_join.mp hp with hp | hp
        · exact (hfirst.leads p hp).item
        · exact hrest.leads p hp
      · intro hnil
        obtain ⟨hnone, hnil⟩ := Trail.paths_join_eq_nil.mp hnil
        rcases hfirst.silent hnone with hsame | ⟨f, hf⟩
        · cases hresult.symm.trans hsame
          exact (hrest.map fun others => [v] ++ others).silent hnil
        · cases hresult.symm.trans hf

theorem scrubFields_accounts (c : Context) (path : String) (fields : List (Value × Value)) :
    Accounts path fields (scrubFields c path fields) := by
  match fields with
  | [] =>
    rw [scrubFields]
    exact .ok path []
  | (key, v) :: rest =>
    have hrest := scrubFields_accounts c path rest
    cases hname : key.plain with
    | error f =>
      rw [scrubFields_cons_of_error c path hname]
      exact .fail path _ f
    | ok name =>
      have hvalue := scrubValue_accounts c name (Value.fieldPath path (String.ofList name)) v
      have hsettled := settle_accounts c key (accounts_of_value hvalue)
      rw [scrubFields_cons c path hname]
      constructor
      · intro p hp
        rcases Trail.mem_paths_join.mp hp with hp | hp
        · exact (hsettled.1 p hp).field
        · exact hrest.leads p hp
      · intro hnil
        obtain ⟨hnone, hnil⟩ := Trail.paths_join_eq_nil.mp hnil
        have hkept := (hrest.map fun others => [(key, v)] ++ others).silent hnil
        dsimp only
        rw [hsettled.2 hnone]
        exact hkept
end

theorem scrubAlone_accounts (c : Context) (path : String) (name : List Char) (v : Value) :
    Accounts (Value.fieldPath path (String.ofList name)) (some v) (scrubAlone c path name v) :=
  accounts_of_value (scrubValue_accounts c name _ v)

/-! ## What is gone -/

theorem scrubLeaf_removed (name : List Char) (h : (scrubLeaf c name path v).result = .ok none) :
    path ∈ (scrubLeaf c name path v).trail.removed := by
  rcases scrubLeaf_cases c name path v with heq | ⟨f, heq⟩ | heq | ⟨w, heq⟩ <;> rw [heq] at h ⊢
  · exact List.mem_singleton_self path
  · cases h
  · cases h
  · cases h

/-- A map or a list always leaves something, be it empty. -/
theorem scrubValue_removed (name : List Char) (h : (scrubValue c name path v).result = .ok none) :
    path ∈ (scrubValue c name path v).trail.removed := by
  cases v with
  | map fields =>
    rw [scrubValue] at h
    obtain ⟨kept, _, h⟩ := map_eq_ok.mp h
    cases h
  | list items =>
    rw [scrubValue] at h
    obtain ⟨kept, _, h⟩ := map_eq_ok.mp h
    cases h
  | _ => exact scrubLeaf_removed name h

theorem scrubAlone_removed {name : List Char} (h : (scrubAlone c path name v).result = .ok none) :
    Value.fieldPath path (String.ofList name) ∈ (scrubAlone c path name v).trail.removed := by
  rcases scrubAlone_cases c path name v with heq | ⟨_, _, heq⟩ | ⟨_, heq⟩ <;> rw [heq] at h ⊢
  · exact List.mem_singleton_self _
  · obtain ⟨token, _, h⟩ := map_eq_ok.mp h
    cases h
  · exact scrubValue_removed name h

/-- A field that does not enter the result is recorded as removed or as failed. -/
theorem settle_gone {key : Value} {x : Attempt (Option Value)}
    (hremoved : x.result = .ok none → path ∈ x.trail.removed) (h : (settle c key path x).1 = []) :
    path ∈ (settle c key path x).2.removed ∨ path ∈ (settle c key path x).2.failed := by
  unfold settle at h ⊢
  split
  · rename_i w hw
    rw [hw] at h
    cases h
  · rename_i hnone
    exact Or.inl (hremoved hnone)
  · exact Or.inr (List.mem_append_right _ (List.mem_singleton_self path))

/-! ## Fields by their keys -/

theorem get?_settle_of_other (c : Context) {key : Value} (path : String) {k : String}
    (x : Attempt (Option Value)) (others : Fields) (hkey : key.isText k = false) :
    Value.get? ((settle c key path x).1 ++ others) k = Value.get? others k := by
  rcases settle_eq c key path x with hnone | ⟨w, _, hsome⟩
  · rw [hnone, List.nil_append]
  · rw [hsome, List.singleton_append, Value.get?_cons, hkey]
    rfl

/-- The first field under a key is kept as it was if nothing is recorded, and is gone only if that is
recorded. -/
theorem get?_settle (c : Context) {k : String} {x : Attempt (Option Value)} (others : Fields)
    (haccounts : Accounts path (some v) x)
    (hremoved : x.result = .ok none → path ∈ x.trail.removed) :
    ((∀ p ∈ (settle c (.str k) path x).2.paths, ¬Leads path p) →
        Value.get? ((settle c (.str k) path x).1 ++ others) k = some v) ∧
      (Value.get? ((settle c (.str k) path x).1 ++ others) k = none →
        path ∈ (settle c (.str k) path x).2.removed ∨
          path ∈ (settle c (.str k) path x).2.failed) := by
  have hfront : ∀ w : Value, Value.get? ([(.str k, w)] ++ others) k = some w := by
    intro w
    rw [List.singleton_append, Value.get?_cons, if_pos (Value.isText_iff.mpr rfl)]
  obtain ⟨hleads, hsilent⟩ := settle_accounts c (.str k) haccounts
  constructor
  · intro huntouched
    have hnil : (settle c (.str k) path x).2.paths = [] :=
      List.eq_nil_iff_forall_not_mem.mpr fun p hp => huntouched p hp (hleads p hp)
    rw [hsilent hnil, hfront]
  · intro hgone
    refine settle_gone hremoved ?_
    rcases settle_eq c (.str k) path x with hnone | ⟨w, _, hsome⟩
    · exact hnone
    · rw [hsome, hfront] at hgone
      cases hgone

/-- A field of a map that nothing is recorded of stays as it was, and one that is gone is recorded as
removed or as failed. -/
theorem get?_scrubFields (c : Context) (path : String) {fields kept : Fields} {k : String}
    (h : (scrubFields c path fields).result = .ok kept) (hv : Value.get? fields k = some v) :
    ((∀ p ∈ (scrubFields c path fields).trail.paths, ¬Leads (Value.fieldPath path k) p) →
        Value.get? kept k = some v) ∧
      (Value.get? kept k = none →
        Value.fieldPath path k ∈ (scrubFields c path fields).trail.removed ∨
          Value.fieldPath path k ∈ (scrubFields c path fields).trail.failed) := by
  induction fields generalizing kept with
  | nil => cases hv
  | cons field rest ih =>
    obtain ⟨key, u⟩ := field
    rw [Value.get?_cons] at hv
    obtain ⟨name, _, hname, _, _⟩ := scrubFields_cons_eq_ok h
    rw [scrubFields_cons c path hname] at h ⊢
    obtain ⟨others, hothers, rfl⟩ := map_eq_ok.mp h
    cases hkey : key.isText k with
    | true =>
      rw [hkey, if_pos rfl] at hv
      cases hv
      rw [Value.isText_iff] at hkey
      subst hkey
      cases hname
      have haccounts := scrubAlone_accounts c path k.toList v
      obtain ⟨huntouched, hgone⟩ := get?_settle c (k := k) others haccounts scrubAlone_removed
      rw [String.ofList_toList] at huntouched hgone ⊢
      constructor
      · intro hpaths
        exact huntouched fun p hp => hpaths p (Trail.mem_paths_join.mpr (Or.inl hp))
      · intro hnone
        exact (hgone hnone).imp (List.mem_append_left _) (List.mem_append_left _)
    | false =>
      rw [hkey, if_neg (by decide)] at hv
      obtain ⟨huntouched, hgone⟩ := ih hothers hv
      rw [get?_settle_of_other c _ _ others hkey]
      constructor
      · intro hpaths
        exact huntouched fun p hp => hpaths p (Trail.mem_paths_join.mpr (Or.inr hp))
      · intro hnone
        exact (hgone hnone).imp (List.mem_append_right _) (List.mem_append_right _)

/-! ## Entities -/

variable {s : Scrubber} {e : Entity} {entityType own part : Value} {l : Level} {out : Scrubbed}
  {root : String}

theorem PartAt.trail_isPart {fields : Fields}
    (h : (s.scrub (some e) entityType (.level l)).1 = .ok out) (hpart : PartAt root e out own part)
    (hown : own = .map fields) :
    (scrubFields (s.context e entityType.messageText l) root fields).trail.IsPart
      out.audit.trail := by
  obtain ⟨w⟩ := exists_whole h
  rw [w.trail_eq h]
  rcases hpart with ⟨rfl, rfl, _⟩ | ⟨rfl, rfl, _⟩
  · cases w.propertiesAre.symm.trans hown
    exact Trail.isPart_join_left _ _
  · cases hown
    exact Trail.isPart_join_right _ _

/-- Nothing changes in silence. In the properties of a scrubbed entity, and in its metadata apart from
what tells how it was scrubbed, a field that no path of the audit leads to or into has the value that the
entity has there; one that is gone is recorded as removed or as failed. If the audit counts no changes,
there are none. -/
theorem no_silent_change (h : (s.scrub (some e) entityType (.level l)).1 = .ok out)
    (hpart : PartAt root e out own part) :
    ∃ fields kept, own = .map fields ∧ part = .map kept ∧
      (∀ k v, Value.get? fields k = some v →
        ((∀ p ∈ out.audit.trail.paths, ¬Leads (Value.fieldPath root k) p) →
          Value.get? kept k = some v) ∧
        (Value.get? kept k = none →
          Value.fieldPath root k ∈ out.audit.trail.removed ∨
            Value.fieldPath root k ∈ out.audit.trail.failed)) ∧
      (out.audit.trail.changed = 0 → part = own) := by
  obtain ⟨fields, kept, hown, hkept, hscrub⟩ := hpart.scrubbed h
  have haudit := hpart.trail_isPart h hown
  refine ⟨fields, kept, hown, hkept, fun k v hv => ?_, fun hchanged => ?_⟩
  · obtain ⟨huntouched, hgone⟩ := get?_scrubFields _ root hscrub hv
    constructor
    · intro hpaths
      exact huntouched fun p hp => hpaths p (haudit.paths hp)
    · intro hnone
      rcases hgone hnone with hremoved | hfailed
      · exact Or.inl (haudit.removed hremoved)
      · exact Or.inr (haudit.failed hfailed)
  · rw [Trail.changed_eq] at hchanged
    have hpaths : (scrubFields (s.context e entityType.messageText l) root fields).trail.paths = [] :=
      List.subset_nil.mp (List.length_eq_zero_iff.mp hchanged ▸ haudit.paths)
    rcases (scrubFields_accounts (s.context e entityType.messageText l) root fields).silent hpaths with
      hsame | ⟨f, hf⟩
    · cases hscrub.symm.trans hsame
      rw [hown, hkept]
    · cases hscrub.symm.trans hf

theorem no_silent_change_sample :
    ∃ out, sampleResult = .ok out ∧
      PartAt "properties" sampleEntity out sampleEntity.properties out.properties ∧
      ∃ fields kept, sampleEntity.properties = .map fields ∧ out.properties = .map kept ∧
        (∀ k v, Value.get? fields k = some v →
          ((∀ p ∈ out.audit.trail.paths, ¬Leads (Value.fieldPath "properties" k) p) →
            Value.get? kept k = some v) ∧
          (Value.get? kept k = none →
            Value.fieldPath "properties" k ∈ out.audit.trail.removed ∨
              Value.fieldPath "properties" k ∈ out.audit.trail.failed)) ∧
        (out.audit.trail.changed = 0 → out.properties = sampleEntity.properties) := by
  obtain ⟨out, hout⟩ := exists_eq_ok sampleResult_isOk
  have hpart : PartAt "properties" sampleEntity out sampleEntity.properties out.properties :=
    Or.inl ⟨rfl, rfl, rfl⟩
  exact ⟨out, hout, hpart, no_silent_change hout hpart⟩

end Scrub

end ConsentGate
