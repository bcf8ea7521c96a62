import ConsentGate.Proofs.Scrub.Independence
import ConsentGate.Proofs.Scrub.Levels

/-! What becomes of fields with values of no supported type.

A field that is left to its value fails if there is such a value in it (`not_left_of_unsupported`): leaves
are checked, and a list fails with its first item that does. A field that becomes a token is not
checked, so it fails only if its value has no text to make the token of. Either way the field is absent
or a token; and its path is recorded, unless a field further up is gone as a whole (`Stands.recorded`).

A mapping is not checked either, be it a dictionary or not: it is gone through, and a map of what is left of
its fields takes its place (`PassesOrTokenizes`). So a mapping of another type than the value model's
gets through as a map. -/
namespace ConsentGate
open Scrub
set_option autoImplicit false

namespace Value

/-- A value of no supported type, apart from lists and maps, whose parts are looked at. -/
def IsUnsupported (v : Value) : Prop := IsLeaf v ∧ v.isScalar = false

/-- A value of no supported type, or one with such an item, reached through lists. -/
def HoldsUnsupported (v : Value) : Prop := ∃ u, v.Within u ∧ u.IsUnsupported

end Value

namespace Scrub
open ConsentGate.Field Text

variable {c : Context} {name own : List Char} {path outer : String} {key k u v w : Value}
  {place : List Step}

/-! ## One field -/

theorem isUnsafe_of_holdsUnsupported (c : Context) (h : v.HoldsUnsupported) : c.isUnsafe v = false := by
  cases v with
  | str text =>
    obtain ⟨u, hwithin, _, hscalar⟩ := h
    obtain rfl := hwithin.eq_of_isScalar rfl
    cases hscalar
  | _ => rfl

theorem exists_item_result {i : Nat} {items kept : List Value}
    (h : (scrubItems c name path i items).result = .ok kept) (hmem : v ∈ items) :
    ∃ path' x, (scrubValue c name path' v).result = .ok x := by
  induction items generalizing i kept with
  | nil => cases hmem
  | cons first rest ih =>
    obtain ⟨x, others, hfirst, hothers, _⟩ := scrubItems_cons_eq_ok h
    rcases List.mem_cons.mp hmem with rfl | hmem
    · exact ⟨_, x, hfirst⟩
    · exact ih hothers hmem

theorem not_left_of_unsupported (h : v.HoldsUnsupported) (x : Option Value) :
    (scrubValue c name path v).result ≠ .ok x := by
  obtain ⟨u, hwithin, hunsupported⟩ := h
  induction hwithin generalizing path x with
  | @here u =>
    obtain ⟨hleaf, hscalar⟩ := hunsupported
    have hsafe := isUnsafe_of_holdsUnsupported c ⟨u, .here, hleaf, hscalar⟩
    rw [scrubValue_of_isLeaf hleaf, scrubLeaf, hsafe, if_neg (by decide)]
    split
    · intro hresult
      cases hresult
    · rename_i hcheck
      rw [isScalar_of_check hleaf hcheck] at hscalar
      cases hscalar
  | item mem _ ih =>
    intro hresult
    rw [scrubValue] at hresult
    obtain ⟨kept, hkept, _⟩ := map_eq_ok.mp hresult
    obtain ⟨path', y, hitem⟩ := exists_item_result hkept mem
    exact ih y hunsupported hitem

theorem not_removes_of_ne (hlevel : c.level ≠ .strict)
    (hstripped : (c.rules.classify name).isStripped = false) : ¬c.Removes name := by
  rintro (hstrip | ⟨_, hstrict⟩)
  · cases hstripped.symm.trans hstrip
  · exact hlevel hstrict

theorem opens_of_not (hremoves : ¬c.Removes name) (htokenizes : ¬c.Tokenizes name) : c.Opens name := by
  rcases removes_or_tokenizes_or_opens c name with h | h | h
  · exact absurd h hremoves
  · exact absurd h htokenizes
  · exact h

/-- What a field comes to whose value must not get through: it fails with no token made of it, or becomes
a token without its value being checked. -/
structure FailsOrTokenizes (c : Context) (path : String) (name : List Char) (v : Value) : Prop where
  fails : ¬c.Tokenizes name → ∃ f, (scrubAlone c path name v).result = .error f ∧
    Value.fieldPath path (String.ofList name) ∉ (scrubAlone c path name v).trail.tokenized
  unchecked : c.Tokenizes name → scrubAlone c path name v =
    ⟨(c.hasher.tokenize v).map some, { tokenized := [Value.fieldPath path (String.ofList name)] }⟩

namespace FailsOrTokenizes

theorem of_unsupported (hremoves : ¬c.Removes name) (h : v.HoldsUnsupported) (path : String) :
    FailsOrTokenizes c path name v where
  fails := by
    intro htokenizes
    rw [scrubAlone, scrubField_of_opens (opens_of_not hremoves htokenizes)]
    cases hresult : (scrubValue c name (Value.fieldPath path (String.ofList name)) v).result with
    | ok x => exact absurd hresult (not_left_of_unsupported h x)
    | error f =>
      refine ⟨f, rfl, fun hmem => ?_⟩
      have hpaths : Value.fieldPath path (String.ofList name) ∈
          (scrubValue c name (Value.fieldPath path (String.ofList name)) v).trail.paths := by
        simp [Trail.paths, hmem]
      exact (below_of_error hresult hpaths).ne rfl
  unchecked := fun htokenizes =>
    scrubField_of_tokenizes htokenizes (isUnsafe_of_holdsUnsupported c h) _

variable (h : FailsOrTokenizes c path name v)
include h

theorem token_of_left (hleft : (scrubAlone c path name v).result = .ok (some w)) :
    c.Tokenizes name ∧ c.hasher.tokenize v = .ok w := by
  by_cases htokenizes : c.Tokenizes name
  · rw [h.unchecked htokenizes] at hleft
    obtain ⟨token, htoken, hw⟩ := map_eq_ok.mp hleft
    cases hw
    exact ⟨htokenizes, htoken⟩
  · obtain ⟨f, hf, _⟩ := h.fails htokenizes
    cases hf.symm.trans hleft

theorem failed_or_token (hname : key.plain = .ok name) :
    Value.fieldPath path (String.ofList name) ∈ (scrubFields c path [(key, v)]).trail.failed ∨
      c.Tokenizes name ∧ ∃ token, c.hasher.tokenize v = .ok token := by
  cases hresult : (scrubAlone c path name v).result with
  | error f =>
    rw [scrubFields_single_of_error hname hresult]
    exact Or.inl (List.mem_append_right _ (List.mem_singleton_self _))
  | ok x =>
    right
    by_cases htokenizes : c.Tokenizes name
    · rw [h.unchecked htokenizes] at hresult
      obtain ⟨token, htoken, _⟩ := map_eq_ok.mp hresult
      exact ⟨htokenizes, token, htoken⟩
    · obtain ⟨f, hf, _⟩ := h.fails htokenizes
      cases hf.symm.trans hresult

theorem tokenized (hname : key.plain = .ok name) (htokenizes : c.Tokenizes name) :
    Value.fieldPath path (String.ofList name) ∈ (scrubFields c path [(key, v)]).trail.tokenized := by
  rw [scrubFields_single c path hname]
  refine (settle_isPart c key _ _).tokenized ?_
  simp [h.unchecked htokenizes]

end FailsOrTokenizes

/-! ## Mappings -/

/-- What a field comes to whose value passes, whatever the types of the mappings in it: it is not recorded
as failed, it is left unless it is an unsafe text, and what is left of a mapping is a map; or it becomes a
token without its value being checked. -/
structure PassesOrTokenizes (c : Context) (path : String) (key : Value) (name : List Char) (v : Value) :
    Prop where
  passes : ¬c.Tokenizes name →
    Value.fieldPath path (String.ofList name) ∉ (scrubFields c path [(key, v)]).trail.failed ∧
      ∃ x, (scrubAlone c path name v).result = .ok x ∧ (c.isUnsafe v = false → x.isSome = true) ∧
        ∀ fields, v = .map fields → ∃ kept, x = some (.map kept) ∧
          (scrubFields c (Value.fieldPath path (String.ofList name)) fields).result = .ok kept
  unchecked : c.Tokenizes name → c.isUnsafe v = false → scrubAlone c path name v =
    ⟨(c.hasher.tokenize v).map some, { tokenized := [Value.fieldPath path (String.ofList name)] }⟩

theorem PassesOrTokenizes.of_passable (hname : key.plain = .ok name) (hremoves : ¬c.Removes name)
    (h : Passable c name v) (path : String) : PassesOrTokenizes c path key name v where
  passes := by
    intro htokenizes
    obtain ⟨x, hx, hsome⟩ :=
      exists_scrubValue c name (Value.fieldPath path (String.ofList name)) v h
    have halone : (scrubAlone c path name v).result = .ok x := by
      rw [scrubAlone, scrubField_of_opens (opens_of_not hremoves htokenizes)]
      exact hx
    refine ⟨fun hmem => ?_, x, halone, hsome, fun fields hv => ?_⟩
    · rw [scrubFields_single c path hname] at hmem
      cases x <;> simp only [settle, halone] at hmem <;> exact (scrubAlone_failed_below hmem).ne rfl
    · subst hv
      rw [scrubValue] at hx
      obtain ⟨kept, hkept, hmap⟩ := map_eq_ok.mp hx
      exact ⟨kept, hmap.symm, hkept⟩
  unchecked := fun htokenizes hsafe => scrubField_of_tokenizes htokenizes hsafe _

/-! ## Fields at their places -/

/-- `Stands path v place outer key u`: at the place of the value `v` at a path there is a map, whose own
path is `outer`, and `u` is what stands under the key in it. -/
inductive Stands : String → Value → List Step → String → Value → Value → Prop
  | here {path : String} {before behind : Fields} {key u : Value}
      (only : ∀ field ∈ before ++ behind, field.1 ≠ key) :
      Stands path (.map (before ++ (key, u) :: behind)) [] path key u
  | field {path outer : String} {own : List Char} {before behind : Fields} {k v key u : Value}
      {place : List Step} (only : ∀ field ∈ before ++ behind, field.1 ≠ k)
      (plain : k.plain = .ok own)
      (inside : Stands (Value.fieldPath path (String.ofList own)) v place outer key u) :
      Stands path (.map (before ++ (k, v) :: behind)) (.field k :: place) outer key u
  | item {path outer : String} {before behind : List Value} {v key u : Value} {place : List Step}
      (inside : Stands (Value.itemPath path before.length) v place outer key u) :
      Stands path (.list (before ++ v :: behind)) (.item before.length :: place) outer key u

theorem eq_of_only {before behind : Fields} (only : ∀ field ∈ before ++ behind, field.1 ≠ key)
    (h : (key, w) ∈ before ++ (key, v) :: behind) : w = v := by
  rw [List.mem_append, List.mem_cons] at h
  rcases h with h | h | h
  · exact absurd rfl (only _ (List.mem_append_left _ h))
  · cases h
    rfl
  · exact absurd rfl (only _ (List.mem_append_right _ h))

/-- What is left where a field stands is left of that field. -/
theorem Stands.alone_of_stays {under : List Char} (h : Stands path v place outer key u)
    (hstays : Stays c name path v (place ++ [.field key]) under w) :
    ∃ own, key.plain = .ok own ∧ (scrubAlone c outer own u).result = .ok (some w) := by
  induction h generalizing name with
  | here only =>
    cases hstays with
    | token _ mem plain tokenizes safe token =>
      obtain rfl := eq_of_only only mem
      exact ⟨_, plain, scrubAlone_eq_some_iff.mpr (Or.inl ⟨tokenizes, safe, token⟩)⟩
    | field _ mem plain opens inside =>
      obtain rfl := eq_of_only only mem
      cases inside with
      | here left => exact ⟨_, plain, scrubAlone_eq_some_iff.mpr (Or.inr ⟨opens, left⟩)⟩
  | @field _ _ _ _ _ _ _ _ _ place only plain _ ih =>
    rw [List.cons_append] at hstays
    generalize hrest : place ++ [Step.field _] = rest at hstays ih
    cases hstays with
    | token _ _ _ _ _ _ => simp at hrest
    | field _ mem plain' _ inside =>
      obtain rfl := eq_of_only only mem
      cases plain.symm.trans plain'
      exact ih inside
  | item _ ih =>
    cases hstays with
    | item _ position inside =>
      rw [List.getElem?_append_right (le_refl _), Nat.sub_self, List.getElem?_cons_zero] at position
      cases position
      exact ih inside

/-! ## What is recorded -/

/-- A field is recorded as gone, or the scrubber goes through its value. -/
theorem scrubFields_single_cases (c : Context) (path : String) (hname : key.plain = .ok name) (v : Value) :
    Value.fieldPath path (String.ofList name) ∈ (scrubFields c path [(key, v)]).trail.removed ++
        (scrubFields c path [(key, v)]).trail.tokenized ++ (scrubFields c path [(key, v)]).trail.failed ∨
      (∃ x, (scrubValue c name (Value.fieldPath path (String.ofList name)) v).result = .ok x) ∧
        (scrubValue c name (Value.fieldPath path (String.ofList name)) v).trail.IsPart
          (scrubFields c path [(key, v)]).trail := by
  have hsettled := settle_isPart c key (Value.fieldPath path (String.ofList name))
    (scrubAlone c path name v)
  rw [scrubFields_single c path hname]
  rcases scrubAlone_cases c path name v with heq | ⟨_, _, heq⟩ | ⟨_, heq⟩
  · left
    have hmem : Value.fieldPath path (String.ofList name) ∈ (scrubAlone c path name v).trail.removed := by
      simp [heq, remove]
    simp [hsettled.removed hmem]
  · left
    have hmem : Value.fieldPath path (String.ofList name) ∈
        (scrubAlone c path name v).trail.tokenized := by simp [heq]
    simp [hsettled.tokenized hmem]
  · rw [heq] at hsettled ⊢
    cases hresult : (scrubValue c name (Value.fieldPath path (String.ofList name)) v).result with
    | ok x => exact Or.inr ⟨⟨x, rfl⟩, hsettled⟩
    | error f =>
      left
      simp [settle, hresult, Trail.join]

/-- The scrubber comes to each field of a map, unless a key before it has no text. -/
theorem scrubFields_error_or_isPart (c : Context) (path : String) (before behind : Fields)
    (key v : Value) :
    (∃ f, (scrubFields c path (before ++ (key, v) :: behind)).result = .error f) ∨
      (scrubFields c path [(key, v)]).trail.IsPart
        (scrubFields c path (before ++ (key, v) :: behind)).trail := by
  rw [scrubFields_append, scrubFields_cons_andThen]
  cases hbefore : (scrubFields c path before).result with
  | error f =>
    rw [Attempt.andThen_of_error hbefore]
    exact Or.inl ⟨f, rfl⟩
  | ok kept =>
    rw [Attempt.andThen_of_ok hbefore]
    exact Or.inr ((Attempt.isPart_andThen _ _).trans (Trail.isPart_join_right _ _))

/-- The scrubber comes to each item of a list, unless the list fails. -/
theorem scrubItems_error_or_isPart (c : Context) (name : List Char) (path : String)
    (before behind : List Value) (v : Value) :
    (∃ f, (scrubItems c name path 0 (before ++ v :: behind)).result = .error f) ∨
      (∃ x, (scrubValue c name (Value.itemPath path before.length) v).result = .ok x) ∧
        (scrubValue c name (Value.itemPath path before.length) v).trail.IsPart
          (scrubItems c name path 0 (before ++ v :: behind)).trail := by
  rw [scrubItems_append, Nat.zero_add, scrubItems]
  cases hbefore : (scrubItems c name path 0 before).result with
  | error f =>
    rw [Attempt.andThen_of_error hbefore]
    exact Or.inl ⟨f, rfl⟩
  | ok kept =>
    rw [Attempt.andThen_of_ok hbefore]
    cases hown : (scrubValue c name (Value.itemPath path before.length) v).result with
    | error f =>
      rw [Attempt.andThen_of_error hown]
      exact Or.inl ⟨f, rfl⟩
    | ok x =>
      exact Or.inr ⟨⟨x, rfl⟩, (Attempt.isPart_andThen _ _).trans (Trail.isPart_join_right _ _)⟩

/-- On the way to a place there is a field that is recorded as removed, as a token or as failed, and so
is gone with all that is in it. -/
def GoneAbove (t : Trail) (path : String) (v : Value) (place : List Step) : Prop :=
  ∃ way rest outer k u own, place = way ++ .field k :: rest ∧ Stands path v way outer k u ∧
    k.plain = .ok own ∧
    Value.fieldPath outer (String.ofList own) ∈ t.removed ++ t.tokenized ++ t.failed

theorem not_goneAbove_nil (t : Trail) (path : String) (v : Value) : ¬GoneAbove t path v [] := by
  rintro ⟨way, rest, _, _, _, _, hplace, _⟩
  simp at hplace

namespace GoneAbove

variable {s t : Trail}

theorem mono (h : GoneAbove s path v place) (hpart : s.IsPart t) : GoneAbove t path v place := by
  obtain ⟨way, rest, outer, k, u, own, hplace, hstands, hplain, hmem⟩ := h
  refine ⟨way, rest, outer, k, u, own, hplace, hstands, hplain, ?_⟩
  simp only [List.mem_append] at hmem ⊢
  exact hmem.imp (Or.imp (@hpart.removed _) (@hpart.tokenized _)) (@hpart.failed _)

theorem item {before behind : List Value}
    (h : GoneAbove t (Value.itemPath path before.length) v place) :
    GoneAbove t path (.list (before ++ v :: behind)) (.item before.length :: place) := by
  obtain ⟨way, rest, outer, k, u, own, hplace, hstands, hplain, hmem⟩ := h
  exact ⟨.item before.length :: way, rest, outer, k, u, own, congrArg (_ :: ·) hplace, .item hstands,
    hplain, hmem⟩

variable {before behind : Fields}

theorem field (only : ∀ field ∈ before ++ behind, field.1 ≠ k) (hplain : k.plain = .ok own)
    (h : GoneAbove t (Value.fieldPath path (String.ofList own)) v place) :
    GoneAbove t path (.map (before ++ (k, v) :: behind)) (.field k :: place) := by
  obtain ⟨way, rest, outer, k', u, own', hplace, hstands, hplain', hmem⟩ := h
  exact ⟨.field k :: way, rest, outer, k', u, own', congrArg (_ :: ·) hplace,
    .field only hplain hstands, hplain', hmem⟩

theorem of_field (only : ∀ field ∈ before ++ behind, field.1 ≠ k) (hplain : k.plain = .ok own)
    (hmem : Value.fieldPath path (String.ofList own) ∈ t.removed ++ t.tokenized ++ t.failed)
    (place : List Step) :
    GoneAbove t path (.map (before ++ (k, v) :: behind)) (.field k :: place) :=
  ⟨[], place, path, k, v, own, rfl, .here only, hplain, hmem⟩

end GoneAbove

/-- What the scrubber records of a field is recorded of the whole, unless a field further up is gone as
a whole or the whole fails. The induction is on the place: at each step down the scrubber comes to the
next part, or records why it does not. -/
theorem Stands.recorded (h : Stands path v place outer key u) (c : Context) (name : List Char) :
    (scrubFields c outer [(key, u)]).trail.IsPart (scrubValue c name path v).trail ∨
      GoneAbove (scrubValue c name path v).trail path v place ∨
      ∃ f, (scrubValue c name path v).result = .error f := by
  induction h generalizing name with
  | @here path before behind key u only =>
    rw [scrubValue]
    rcases scrubFields_error_or_isPart c path before behind key u with ⟨f, hf⟩ | hpart
    · exact Or.inr (Or.inr ⟨f, by rw [Attempt.map_result, hf]; rfl⟩)
    · exact Or.inl hpart
  | @field path outer own before behind k v key u place only plain inside ih =>
    rw [scrubValue]
    rcases scrubFields_error_or_isPart c path before behind k v with ⟨f, hf⟩ | hpart
    · exact Or.inr (Or.inr ⟨f, by rw [Attempt.map_result, hf]; rfl⟩)
    · rcases scrubFields_single_cases c path plain v with hgone | ⟨⟨x, hx⟩, hvalue⟩
      · exact Or.inr (Or.inl ((GoneAbove.of_field only plain hgone place).mono hpart))
      · rcases ih own with hinside | hinside | ⟨f, hf⟩
        · exact Or.inl ((hinside.trans hvalue).trans hpart)
        · exact Or.inr (Or.inl ((hinside.field only plain).mono (hvalue.trans hpart)))
        · cases hx.symm.trans hf
  | @item path outer before behind v key u place inside ih =>
    rw [scrubValue]
    rcases scrubItems_error_or_isPart c name path before behind v with ⟨f, hf⟩ | ⟨⟨x, hx⟩, hpart⟩
    · exact Or.inr (Or.inr ⟨f, by rw [Attempt.map_result, hf]; rfl⟩)
    · rcases ih name with hinside | hinside | ⟨f, hf⟩
      · exact Or.inl (hinside.trans hpart)
      · exact Or.inr (Or.inl (hinside.mono hpart).item)
      · cases hx.symm.trans hf

/-! ## Entities -/

variable {s : Scrubber} {e : Entity} {entityType part whole : Value} {l : Level} {out : Scrubbed}
  {root : String}

theorem PartAt.recorded (h : (s.scrub (some e) entityType (.level l)).1 = .ok out)
    (hpart : PartAt root e out whole part) (hstands : Stands root whole place outer key v) :
    (scrubFields (s.context e entityType.messageText l) outer [(key, v)]).trail.IsPart
        out.audit.trail ∨ GoneAbove out.audit.trail root whole place := by
  obtain ⟨fields, kept, hwhole, _, hscrub⟩ := hpart.scrubbed h
  have haudit := hpart.trail_isPart h hwhole
  subst hwhole
  have hrecorded := hstands.recorded (s.context e entityType.messageText l) []
  rw [scrubValue] at hrecorded
  rcases hrecorded with hown | habove | ⟨f, hf⟩
  · exact Or.inl (hown.trans haudit)
  · exact Or.inr (habove.mono haudit)
  · rw [Attempt.map_result, hscrub] at hf
    cases hf

/-- What becomes of a field with a value, or an item of it reached through lists, of no supported type,
if the level does not strip its key. It fails with no token made of it, or becomes a token without being
checked; and so nothing is left at its place, unless it becomes a token and there is one of its value.
If no field further up is gone as a whole, its path is recorded: as failed, unless there is a token of
it, and as tokenised if it is to become one.

A field whose value has nothing else to fail on does not fail for the mappings in it, whatever their types
are, also where the value model knows no such mapping: what is left of them is left as maps, unless the
field becomes a token without being checked. -/
theorem unsupported_of_scrub (h : (s.scrub (some e) entityType (.level l)).1 = .ok out)
    (hpart : PartAt root e out whole part) (hstands : Stands root whole place outer key v)
    (hname : key.plain = .ok name)
    (hremoves : ¬(s.context e entityType.messageText l).Removes name) :
    (v.HoldsUnsupported →
      FailsOrTokenizes (s.context e entityType.messageText l) outer name v ∧
      ShowsPlaces (s.context e entityType.messageText l) root whole part ∧
      (∀ under w,
        Stays (s.context e entityType.messageText l) [] root whole (place ++ [.field key]) under w →
          (s.context e entityType.messageText l).Tokenizes name ∧ s.hasher.tokenize v = .ok w) ∧
      (¬GoneAbove out.audit.trail root whole place →
        (Value.fieldPath outer (String.ofList name) ∈ out.audit.trail.failed ∨
          (s.context e entityType.messageText l).Tokenizes name ∧
            ∃ token, s.hasher.tokenize v = .ok token) ∧
        ((s.context e entityType.messageText l).Tokenizes name →
          Value.fieldPath outer (String.ofList name) ∈ out.audit.trail.tokenized))) ∧
    (Passable (s.context e entityType.messageText l) name v →
      PassesOrTokenizes (s.context e entityType.messageText l) outer key name v) := by
  refine ⟨fun hv => ?_, fun hv => .of_passable hname hremoves hv outer⟩
  have hfield := FailsOrTokenizes.of_unsupported hremoves hv outer
  refine ⟨hfield, hpart.showsPlaces h, fun under w hstays => ?_, fun habove => ?_⟩
  · obtain ⟨own, hown, halone⟩ := hstands.alone_of_stays hstays
    cases hname.symm.trans hown
    exact hfield.token_of_left halone
  · have hrecorded := (hpart.recorded h hstands).resolve_right habove
    exact ⟨(hfield.failed_or_token hname).imp_left (@hrecorded.failed _),
      fun htokenizes => hrecorded.tokenized (hfield.tokenized hname htokenizes)⟩

/-- Like the sample, but with an address of no known type and a list with a pair in it. -/
def strangeEntity : Entity :=
  { sampleEntity with
    properties := .map [(.str "email", .foreign), (.str "visits", .list [.int 1, .tuple [.int 2]]),
      (.str "status", .str "open")] }

theorem unsupported_of_scrub_sample :
    ∃ out, (sampleScrubber.scrub (some strangeEntity) (.str "Note") (.level .moderate)).1 = .ok out ∧
      Stands "properties" strangeEntity.properties [] "properties" (.str "visits")
        (.list [.int 1, .tuple [.int 2]]) ∧
      ¬(sampleScrubber.context strangeEntity "Note" .moderate).Removes "visits".toList ∧
      (Value.list [.int 1, .tuple [.int 2]]).HoldsUnsupported ∧
      ¬GoneAbove out.audit.trail "properties" strangeEntity.properties [] ∧
      FailsOrTokenizes (sampleScrubber.context strangeEntity "Note" .moderate) "properties"
        "visits".toList (.list [.int 1, .tuple [.int 2]]) ∧
      "properties.visits" ∈ out.audit.trail.failed := by
  have hok : (sampleScrubber.scrub (some strangeEntity) (.str "Note")
      (.level .moderate)).1.isOk = true := by decide +kernel
  have hpersonal : (sampleScrubber.rules.classify "visits".toList).isPersonal = false := by
    decide +kernel
  have hremoves : ¬(sampleScrubber.context strangeEntity "Note" .moderate).Removes "visits".toList :=
    not_removes_of_ne (by rintro ⟨⟩) (by decide +kernel)
  have hstands : Stands "properties" strangeEntity.properties [] "properties" (.str "visits")
      (.list [.int 1, .tuple [.int 2]]) := by
    change Stands "properties" (.map ([(.str "email", .foreign)] ++ (.str "visits", _) ::
      [(.str "status", .str "open")])) [] "properties" (.str "visits") _
    exact .here (by simp)
  have hleaf : IsLeaf (.tuple [.int 2]) := by constructor <;> rintro _ ⟨⟩
  have hunsupported : (Value.list [.int 1, .tuple [.int 2]]).HoldsUnsupported :=
    ⟨.tuple [.int 2], .item (by simp) .here, hleaf, rfl⟩
  obtain ⟨out, hout⟩ := exists_eq_ok hok
  have hpart : PartAt "properties" strangeEntity out strangeEntity.properties out.properties :=
    Or.inl ⟨rfl, rfl, rfl⟩
  have habove := not_goneAbove_nil out.audit.trail "properties" strangeEntity.properties
  obtain ⟨hfield, _, _, hrecorded⟩ :=
    (unsupported_of_scrub hout hpart hstands rfl hremoves).1 hunsupported
  refine ⟨out, hout, hstands, hremoves, hunsupported, habove, hfield, ?_⟩
  rcases (hrecorded habove).1 with hfailed | ⟨htokenizes, _⟩
  · exact hfailed
  · cases hpersonal.symm.trans htokenizes.1

/-- Like the sample, but with a mapping only. -/
def mappingEntity : Entity :=
  { sampleEntity with properties := .map [(.str "status", .map [(.str "a", .int 1)])] }

/-- A thing of no known type becomes a token and is not recorded as failed; and a mapping is left as a map
at every level, whatever its type is. -/
theorem not_absent_strangeEntity :
    (Value.foreign.IsUnsupported ∧
      ¬(sampleScrubber.context strangeEntity "Note" .moderate).Removes "email".toList ∧
      ∃ out, (sampleScrubber.scrub (some strangeEntity) (.str "Note") (.level .moderate)).1 = .ok out ∧
        (out.properties.field? "email").isSome = true ∧
        "properties.email" ∈ out.audit.trail.tokenized ∧
        "properties.email" ∉ out.audit.trail.failed) ∧
    ∀ l, ∃ out, (sampleScrubber.scrub (some mappingEntity) (.str "Note") (.level l)).1 = .ok out ∧
      ((out.properties.field? "status").bind (·.field? "a")).bind Value.quantity? = some (.whole 1) ∧
      out.audit.trail.failed = [] := by
  constructor
  · have hshown : (sampleScrubber.scrub (some strangeEntity) (.str "Note")
        (.level .moderate)).1.toOption.any (fun out =>
          decide ((out.properties.field? "email").isSome = true ∧
            "properties.email" ∈ out.audit.trail.tokenized ∧
            "properties.email" ∉ out.audit.trail.failed)) = true := by decide +kernel
    obtain ⟨out, hout, hshown⟩ := exists_ok_of_any hshown
    have hleaf : IsLeaf .foreign := by constructor <;> rintro _ ⟨⟩
    exact ⟨⟨hleaf, rfl⟩, not_removes_of_ne (by rintro ⟨⟩) (by decide +kernel), out, hout,
      of_decide_eq_true hshown⟩
  · intro l
    have hshown : (sampleScrubber.scrub (some mappingEntity) (.str "Note")
        (.level l)).1.toOption.any (fun out =>
          decide (((out.properties.field? "status").bind (·.field? "a")).bind Value.quantity? =
              some (.whole 1) ∧ out.audit.trail.failed = [])) = true := by
      cases l <;> decide +kernel
    obtain ⟨out, hout, hshown⟩ := exists_ok_of_any hshown
    exact ⟨out, hout, of_decide_eq_true hshown⟩

end Scrub

end ConsentGate
