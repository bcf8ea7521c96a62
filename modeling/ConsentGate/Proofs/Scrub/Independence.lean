import ConsentGate.Proofs.Scrub.Recording

/-! Fields are scrubbed independently of each other.

Scrubbing a map is scrubbing its fields one after the other, with one trail behind the other
(`scrubFields_append`); no field is told what became of those before it. A fault stays with the field
that it is met in: what the field recorded inside is below its own path, the path itself is recorded as
failed once, and each failed field is warned of once (`Warned`). -/
namespace ConsentGate.Scrub
open ConsentGate.Field Text
set_option autoImplicit false

variable {c : Context} {name : List Char} {path p : String} {key v : Value}

/-! ## One after the other -/

namespace Attempt

variable {α β γ : Type}

@[simp] theorem map_id_fun (x : Attempt α) : (x.map fun a => a) = x := by
  cases x with
  | mk result trail => cases result <;> rfl

@[simp] theorem map_map (x : Attempt α) (f : α → β) (g : β → γ) :
    (x.map f).map g = x.map fun a => g (f a) := by
  cases x with
  | mk result trail => cases result <;> rfl

@[simp] theorem map_andThen (x : Attempt α) (f : α → β) (g : β → Attempt γ) :
    (x.map f).andThen g = x.andThen fun a => g (f a) := by
  cases x with
  | mk result trail => cases result <;> rfl

@[simp] theorem andThen_map (x : Attempt α) (f : α → Attempt β) (g : β → γ) :
    (x.andThen f).map g = x.andThen fun a => (f a).map g := by
  cases x with
  | mk result trail => cases result <;> rfl

theorem andThen_assoc (x : Attempt α) (f : α → Attempt β) (g : β → Attempt γ) :
    (x.andThen f).andThen g = x.andThen fun a => (f a).andThen g := by
  cases x with
  | mk result trail =>
    cases result with
    | error e => rfl
    | ok a =>
      cases h : (f a).result <;> simp [andThen, h, Trail.join_assoc]

end Attempt

theorem scrubFields_cons_andThen (c : Context) (path : String) (key v : Value) (rest : Fields) :
    scrubFields c path ((key, v) :: rest) =
      (scrubFields c path [(key, v)]).andThen fun kept =>
        (scrubFields c path rest).map (kept ++ ·) := by
  cases hname : key.plain with
  | error f =>
    rw [scrubFields_cons_of_error c path hname, scrubFields_cons_of_error c path hname]
    rfl
  | ok name =>
    rw [scrubFields_cons c path hname, scrubFields_cons c path hname, scrubFields]
    simp [Attempt.andThen, Attempt.map, Attempt.ok, Except.map]

theorem scrubFields_append (c : Context) (path : String) (before behind : Fields) :
    scrubFields c path (before ++ behind) =
      (scrubFields c path before).andThen fun kept =>
        (scrubFields c path behind).map (kept ++ ·) := by
  induction before with
  | nil => simp [scrubFields]
  | cons field rest ih =>
    obtain ⟨key, v⟩ := field
    rw [List.cons_append, scrubFields_cons_andThen, ih, scrubFields_cons_andThen c path key v rest]
    simp [Attempt.andThen_assoc]

theorem scrubItems_append (c : Context) (name : List Char) (path : String) (i : Nat)
    (before behind : List Value) :
    scrubItems c name path i (before ++ behind) =
      (scrubItems c name path i before).andThen fun kept =>
        (scrubItems c name path (i + before.length) behind).map (kept ++ ·) := by
  induction before generalizing i with
  | nil => simp [scrubItems]
  | cons v rest ih =>
    rw [List.cons_append, scrubItems, ih, scrubItems]
    simp [Attempt.andThen_assoc, Nat.add_assoc, Nat.add_comm 1]

/-- A field whose key has a text, on its own. -/
theorem scrubFields_single (c : Context) (path : String) (hname : key.plain = .ok name) (v : Value) :
    scrubFields c path [(key, v)] =
      ⟨.ok (settle c key (Value.fieldPath path (String.ofList name)) (scrubAlone c path name v)).1,
        (settle c key (Value.fieldPath path (String.ofList name)) (scrubAlone c path name v)).2⟩ := by
  rw [scrubFields_cons c path hname, scrubFields]
  simp [Attempt.ok, Except.map]

/-! ## Paths inside -/

/-- Whatever is recorded of the items of a list is recorded of one of them. -/
theorem exists_item_of_mem_paths {i : Nat} {items : List Value}
    (h : p ∈ (scrubItems c name path i items).trail.paths) :
    ∃ j, i ≤ j ∧ Leads (Value.itemPath path j) p := by
  induction items generalizing i with
  | nil => simp [scrubItems, Attempt.ok] at h
  | cons v rest ih =>
    have hfirst := (scrubValue_accounts c name (Value.itemPath path i) v).leads p
    rw [scrubItems] at h
    cases hresult : (scrubValue c name (Value.itemPath path i) v).result with
    | error f =>
      rw [Attempt.andThen_of_error hresult] at h
      exact ⟨i, le_refl i, hfirst h⟩
    | ok kept =>
      rw [Attempt.andThen_of_ok hresult] at h
      rcases Trail.mem_paths_join.mp h with h | h
      · exact ⟨i, le_refl i, hfirst h⟩
      · obtain ⟨j, hj, hleads⟩ := ih h
        exact ⟨j, by omega, hleads⟩

/-- Whatever is recorded of the fields of a map is recorded of one of them. -/
theorem exists_field_of_mem_paths {fields : Fields}
    (h : p ∈ (scrubFields c path fields).trail.paths) :
    ∃ field ∈ fields, ∃ name, field.1.plain = .ok name ∧
      Leads (Value.fieldPath path (String.ofList name)) p := by
  induction fields with
  | nil => simp [scrubFields, Attempt.ok] at h
  | cons field rest ih =>
    obtain ⟨key, v⟩ := field
    cases hname : key.plain with
    | error f =>
      rw [scrubFields_cons_of_error c path hname] at h
      simp [Attempt.fail] at h
    | ok name =>
      rw [scrubFields_cons c path hname] at h
      rcases Trail.mem_paths_join.mp h with h | h
      · exact ⟨(key, v), List.mem_cons_self, name, hname,
          (settle_accounts c key (scrubAlone_accounts c path name v)).1 p h⟩
      · obtain ⟨field, hmem, hfield⟩ := ih h
        exact ⟨field, List.mem_cons_of_mem _ hmem, hfield⟩

/-- A value that is kept, lost or made coarser as a whole is recorded under its own path, and so
nothing of it is recorded as failed or as a token. -/
theorem below_of_mem_paths (h : p ∈ (scrubValue c name path v).trail.paths) :
    Below path p ∨ (scrubValue c name path v).trail.tokenized = [] ∧
      (scrubValue c name path v).trail.failed = [] ∧
      ∃ x, (scrubValue c name path v).result = .ok x := by
  rcases map_or_list_or_isLeaf v with ⟨fields, rfl⟩ | ⟨items, rfl⟩ | hleaf
  · rw [scrubValue] at h
    obtain ⟨_, _, _, _, hleads⟩ := exists_field_of_mem_paths h
    exact Or.inl hleads.below_of_field
  · rw [scrubValue] at h
    obtain ⟨_, _, hleads⟩ := exists_item_of_mem_paths h
    exact Or.inl hleads.below_of_item
  · rw [scrubValue_of_isLeaf hleaf] at h ⊢
    right
    rcases scrubLeaf_cases c name path v with heq | ⟨f, heq⟩ | heq | ⟨w, heq⟩
    · rw [heq]
      exact ⟨rfl, rfl, none, rfl⟩
    · rw [heq] at h
      simp [Attempt.fail] at h
    · rw [heq]
      exact ⟨rfl, rfl, some v, rfl⟩
    · rw [heq]
      exact ⟨rfl, rfl, some w, rfl⟩

/-- A value records its own path only if it comes through, and not if it fails. -/
theorem below_of_error {f : Fault} (hfault : (scrubValue c name path v).result = .error f)
    (hp : p ∈ (scrubValue c name path v).trail.paths) : Below path p := by
  rcases below_of_mem_paths hp with hbelow | ⟨_, _, x, hok⟩
  · exact hbelow
  · cases hfault.symm.trans hok

theorem below_of_mem_failed (h : p ∈ (scrubValue c name path v).trail.failed) : Below path p := by
  have hpaths : p ∈ (scrubValue c name path v).trail.paths := List.mem_append_right _ h
  rcases below_of_mem_paths hpaths with hbelow | ⟨_, hnil, _⟩
  · exact hbelow
  · rw [hnil] at h
    cases h

theorem scrubAlone_failed_below
    (h : p ∈ (scrubAlone c path name v).trail.failed) :
    Below (Value.fieldPath path (String.ofList name)) p := by
  rcases scrubAlone_cases c path name v with heq | ⟨_, _, heq⟩ | ⟨_, heq⟩
  · rw [heq] at h
    cases h
  · rw [heq] at h
    cases h
  · rw [heq] at h
    exact below_of_mem_failed h

/-! ## Warnings -/

/-- Each failed field is warned of once, in the order of the fields. -/
def Warned (c : Context) (t : Trail) : Prop :=
  List.Forall₂ (fun p line => ∃ f, line = failureLine c p f) t.failed t.log

theorem Warned.join {s t : Trail} (hs : Warned c s) (ht : Warned c t) : Warned c (s.join t) :=
  List.rel_append hs ht

theorem scrubLeaf_warned (c : Context) (name : List Char) (path : String) (v : Value) :
    Warned c (scrubLeaf c name path v).trail := by
  rcases scrubLeaf_cases c name path v with heq | ⟨f, heq⟩ | heq | ⟨w, heq⟩ <;> rw [heq] <;>
    exact .nil

theorem settle_warned (key : Value) (path : String) {x : Attempt (Option Value)}
    (h : Warned c x.trail) : Warned c (settle c key path x).2 := by
  unfold settle
  split
  · exact h
  · exact h
  · rename_i f _
    exact h.join (.cons ⟨f, rfl⟩ .nil)

theorem scrubAlone_warned
    (h : Warned c (scrubValue c name (Value.fieldPath path (String.ofList name)) v).trail) :
    Warned c (scrubAlone c path name v).trail := by
  rcases scrubAlone_cases c path name v with heq | ⟨_, _, heq⟩ | ⟨_, heq⟩
  · rw [heq]
    exact .nil
  · rw [heq]
    exact .nil
  · rw [heq]
    exact h

-- A trail grows by joining only, and only a fault that is settled adds a failed field; so the cases
-- follow the scrubber's own recursion.
mutual
theorem scrubValue_warned (c : Context) (name : List Char) (path : String) (v : Value) :
    Warned c (scrubValue c name path v).trail := by
  match v with
  | .map fields =>
    rw [scrubValue]
    exact scrubFields_warned c path fields
  | .list items =>
    rw [scrubValue]
    exact scrubItems_warned c name path 0 items
  | .null | .bool _ | .int _ | .float _ | .decimal _ | .str _ | .date _ | .datetime _ | .bytes _
  | .tuple _ | .set _ | .level _ | .foreign | .uncopyable =>
    exact scrubLeaf_warned c name path _

theorem scrubItems_warned (c : Context) (name : List Char) (path : String) (i : Nat)
    (items : List Value) : Warned c (scrubItems c name path i items).trail := by
  match items with
  | [] => exact .nil
  | v :: rest =>
    have hfirst := scrubValue_warned c name (Value.itemPath path i) v
    rw [scrubItems]
    cases hresult : (scrubValue c name (Value.itemPath path i) v).result with
    | error f =>
      rw [Attempt.andThen_of_error hresult]
      exact hfirst
    | ok kept =>
      rw [Attempt.andThen_of_ok hresult]
      exact hfirst.join (scrubItems_warned c name path (i + 1) rest)

theorem scrubFields_warned (c : Context) (path : String) (fields : List (Value × Value)) :
    Warned c (scrubFields c path fields).trail := by
  match fields with
  | [] => exact .nil
  | (key, v) :: rest =>
    cases hname : key.plain with
    | error f =>
      rw [scrubFields_cons_of_error c path hname]
      exact .nil
    | ok name =>
      have halone := scrubAlone_warned
        (scrubValue_warned c name (Value.fieldPath path (String.ofList name)) v)
      rw [scrubFields_cons c path hname]
      exact (settle_warned key _ halone).join (scrubFields_warned c path rest)
end

/-! ## Maps -/

/-- A field that meets a fault leaves nothing. Its path is recorded as failed and it is warned of, once
and behind whatever was recorded and logged further down. -/
theorem scrubFields_single_of_error {f : Fault} (hname : key.plain = .ok name)
    (hfault : (scrubAlone c path name v).result = .error f) :
    scrubFields c path [(key, v)] = ⟨.ok [], (scrubAlone c path name v).trail.join
      { failed := [Value.fieldPath path (String.ofList name)]
        log := [failureLine c (Value.fieldPath path (String.ofList name)) f] }⟩ := by
  rw [scrubFields_single c path hname]
  simp only [settle, hfault]

theorem forall₂_below {own : String} {t : Trail} (h : Warned c t) (hbelow : ∀ p ∈ t.failed, Below own p) :
    List.Forall₂ (fun p line => Below own p ∧ ∃ f, line = failureLine c p f) t.failed t.log := by
  refine List.forall₂_iff_zip.mpr ⟨h.length_eq, fun hmem => ?_⟩
  exact ⟨hbelow _ (List.of_mem_zip hmem).1, (List.forall₂_iff_zip.mp h).2 hmem⟩

/-- The fields of a map are scrubbed independently. Where a field stands between others, what is left of
the map, each list of its trail and its log are those of the fields before it, of the field alone and of
the fields behind it, one after the other; and each of these comes through exactly if its keys have
texts, whatever faults the fields meet. A field that meets a fault adds no key: its own path is recorded
as failed and one warning is logged for it, behind the warnings for failed fields further down. -/
theorem fields_independent (c : Context) (path : String) (before behind : Fields) (key v : Value) :
    scrubFields c path (before ++ (key, v) :: behind) =
        ((scrubFields c path before).andThen fun first =>
          (scrubFields c path [(key, v)]).andThen fun own =>
            (scrubFields c path behind).map fun last => first ++ own ++ last) ∧
      (∀ first own last, (scrubFields c path before).result = .ok first →
        (scrubFields c path [(key, v)]).result = .ok own →
        (scrubFields c path behind).result = .ok last →
        scrubFields c path (before ++ (key, v) :: behind) =
          ⟨.ok (first ++ own ++ last), ((scrubFields c path before).trail.join
            (scrubFields c path [(key, v)]).trail).join (scrubFields c path behind).trail⟩) ∧
      (∀ fields, (∃ kept, (scrubFields c path fields).result = .ok kept) ↔
        ∀ field ∈ fields, ∃ name, field.1.plain = .ok name) ∧
      ∀ name f, key.plain = .ok name → (scrubAlone c path name v).result = .error f →
        scrubFields c path [(key, v)] = ⟨.ok [], (scrubAlone c path name v).trail.join
          { failed := [Value.fieldPath path (String.ofList name)]
            log := [failureLine c (Value.fieldPath path (String.ofList name)) f] }⟩ ∧
        List.Forall₂ (fun p line => Below (Value.fieldPath path (String.ofList name)) p ∧
            ∃ f', line = failureLine c p f')
          (scrubAlone c path name v).trail.failed (scrubAlone c path name v).trail.log := by
  have hrun : scrubFields c path (before ++ (key, v) :: behind) =
      (scrubFields c path before).andThen fun first =>
        (scrubFields c path [(key, v)]).andThen fun own =>
          (scrubFields c path behind).map fun last => first ++ own ++ last := by
    rw [scrubFields_append, scrubFields_cons_andThen]
    simp
  refine ⟨hrun, ?_, fun fields => exists_scrubFields_iff, ?_⟩
  · intro first own last hfirst hown hlast
    rw [hrun, Attempt.andThen_of_ok hfirst, Attempt.andThen_of_ok hown]
    simp [hlast, Except.map, Trail.join_assoc]
  · intro name f hname hfault
    refine ⟨scrubFields_single_of_error hname hfault, forall₂_below ?_ fun p => scrubAlone_failed_below⟩
    exact scrubAlone_warned (scrubValue_warned c name _ v)

/-- The context of the sample at the minimal level. -/
def sampleContext : Context := sampleScrubber.context sampleEntity "Note" .minimal

theorem fields_independent_sample :
    ∃ first last f, (scrubFields sampleContext "properties" [(.str "status", .str "open")]).result =
        .ok first ∧
      (scrubFields sampleContext "properties" [(.str "visits", .list [.int 1])]).result = .ok last ∧
      (scrubAlone sampleContext "properties" "blob".toList .foreign).result = .error f ∧
      (scrubFields sampleContext "properties" [(.str "status", .str "open"), (.str "blob", .foreign),
        (.str "visits", .list [.int 1])]).result = .ok (first ++ last) := by
  have hfirst : (scrubFields sampleContext "properties"
      [(.str "status", .str "open")]).result.isOk = true := by decide +kernel
  have hlast : (scrubFields sampleContext "properties"
      [(.str "visits", .list [.int 1])]).result.isOk = true := by decide +kernel
  have hfault : (scrubAlone sampleContext "properties" "blob".toList .foreign).result.isOk = false := by
    decide +kernel
  obtain ⟨first, hfirst⟩ := exists_eq_ok hfirst
  obtain ⟨last, hlast⟩ := exists_eq_ok hlast
  obtain ⟨f, hfault⟩ : ∃ f, (scrubAlone sampleContext "properties" "blob".toList .foreign).result =
      .error f := by
    cases hresult : (scrubAlone sampleContext "properties" "blob".toList .foreign).result with
    | error f => exact ⟨f, rfl⟩
    | ok x =>
      rw [hresult] at hfault
      cases hfault
  refine ⟨first, last, f, hfirst, hlast, hfault, ?_⟩
  obtain ⟨_, hruns, _, hfailed⟩ := fields_independent sampleContext "properties"
    [(.str "status", .str "open")] [(.str "visits", .list [.int 1])] (.str "blob") .foreign
  have hown := (hfailed "blob".toList f rfl hfault).1
  have hrun := hruns first [] last hfirst (by rw [hown]) hlast
  rw [List.append_nil] at hrun
  exact congrArg Attempt.result hrun

end ConsentGate.Scrub
