import ConsentGate.Scrub.Entity

/-! What the scrubbing of a field, an item or a map comes to when it succeeds.

One statement for each function of the scrubber says everything that holds of a value it keeps. Later
proofs take a result apart with these and never open the functions again. -/
namespace ConsentGate.Scrub
open ConsentGate.Field Text
set_option autoImplicit false

variable {c : Context} {name : List Char} {path : String} {v w : Value}

/-! ## Attempts -/

namespace Attempt

variable {α β : Type}

theorem result_andThen_eq_ok {x : Attempt α} {f : α → Attempt β} {b : β} :
    (x.andThen f).result = .ok b ↔ ∃ a, x.result = .ok a ∧ (f a).result = .ok b := by
  unfold andThen
  cases x.result with
  | error e =>
    constructor
    · intro h
      cases h
    · rintro ⟨a, h, _⟩
      cases h
  | ok a =>
    constructor
    · intro h
      exact ⟨a, rfl, h⟩
    · rintro ⟨a', h, hf⟩
      cases h
      exact hf

end Attempt

/-! ## Leaves -/

/-- A date that lost its day is a value without parts. -/
theorem isScalar_of_generalizeDate (h : v.generalizeDate path = .ok w) : w.isScalar = true := by
  unfold Value.generalizeDate at h
  split at h
  · cases h; rfl
  · cases h; rfl
  · cases h; rfl
  · obtain ⟨t, _, h⟩ := bind_eq_ok.mp h
    cases h; rfl
  · obtain ⟨t, _, h⟩ := bind_eq_ok.mp h
    cases h; rfl
  · obtain ⟨t, _, h⟩ := bind_eq_ok.mp h
    cases h; rfl
  · cases h

/-- A value that is no map and no list. -/
def IsLeaf (v : Value) : Prop := (∀ fields, v ≠ .map fields) ∧ ∀ items, v ≠ .list items

theorem isLeaf_of_isScalar (h : v.isScalar = true) : IsLeaf v := by
  constructor
  · rintro fields rfl
    cases h
  · rintro items rfl
    cases h

theorem map_or_list_or_isLeaf (v : Value) :
    (∃ fields, v = .map fields) ∨ (∃ items, v = .list items) ∨ IsLeaf v := by
  cases v with
  | map fields => exact Or.inl ⟨fields, rfl⟩
  | list items => exact Or.inr (Or.inl ⟨items, rfl⟩)
  | _ => exact Or.inr (Or.inr ⟨fun _ h => (by cases h), fun _ h => (by cases h)⟩)

theorem scrubValue_of_isLeaf (h : IsLeaf v) : scrubValue c name path v = scrubLeaf c name path v := by
  cases v with
  | map fields => exact absurd rfl (h.1 fields)
  | list items => exact absurd rfl (h.2 items)
  | _ => rfl

theorem isScalar_of_check (hleaf : IsLeaf v) (h : v.check path = .ok ()) : v.isScalar = true := by
  unfold Value.check at h
  split at h
  · exact absurd rfl (hleaf.2 _)
  · exact absurd rfl (hleaf.1 _)
  · split at h
    · assumption
    · cases h

theorem check_of_isScalar (h : v.isScalar = true) (path : String) : v.check path = .ok () := by
  cases v with
  | list items => cases h
  | map fields => cases h
  | _ => simp [Value.check, h]

/-- A leaf that is kept is safe and supported, and stays as it is unless it is a date to be made
coarser. -/
theorem scrubLeaf_eq_some (hleaf : IsLeaf v)
    (h : (scrubLeaf c name path v).result = .ok (some w)) :
    c.isUnsafe v = false ∧ v.isScalar = true ∧
      ((w = v ∧ ¬(c.level = .strict ∧ c.rules.isDateKey name = true ∧
          v.isDate (c.rules.isEpochKey name) = true)) ∨
        (c.level = .strict ∧ c.rules.isDateKey name = true ∧
          v.isDate (c.rules.isEpochKey name) = true ∧ v.generalizeDate path = .ok w)) := by
  unfold scrubLeaf at h
  split at h
  · cases h
  · rename_i hsafe
    split at h
    · cases h
    · rename_i hcheck
      refine ⟨by simpa using hsafe, isScalar_of_check hleaf hcheck, ?_⟩
      unfold keepOrGeneralize at h
      split at h
      · rename_i hdate
        split at h
        · rename_i u hu
          cases h
          exact Or.inr ⟨hdate.1, hdate.2.1, hdate.2.2, hu⟩
        · cases h
      · rename_i hkept
        cases h
        exact Or.inl ⟨rfl, hkept⟩

theorem isScalar_of_scrubLeaf (hleaf : IsLeaf v)
    (h : (scrubLeaf c name path v).result = .ok (some w)) : w.isScalar = true := by
  obtain ⟨_, hscalar, ⟨rfl, _⟩ | ⟨_, _, _, hcoarser⟩⟩ := scrubLeaf_eq_some hleaf h
  · exact hscalar
  · exact isScalar_of_generalizeDate hcoarser

/-! ## One field -/

/-- A field that is kept has a key that no level strips; if it is personal, its value is a token of
the whole or the level is the minimal one. -/
theorem scrubField_eq_some {byValue : Unit → Attempt (Option Value)}
    (h : (scrubField c name path v byValue).result = .ok (some w)) :
    (c.rules.classify name).isStripped = false ∧
      (((c.rules.classify name).isPersonal = true ∧ c.level = .moderate ∧ c.isUnsafe v = false ∧
          c.hasher.tokenize v = .ok w) ∨
        (((c.rules.classify name).isPersonal = true → c.level = .minimal) ∧
          (byValue ()).result = .ok (some w))) := by
  unfold scrubField at h
  dsimp only at h
  split at h
  · cases h
  · rename_i hstripped
    refine ⟨by simpa using hstripped, ?_⟩
    split at h
    · rename_i hpersonal
      split at h
      · cases h
      · rename_i hlevel
        split at h
        · cases h
        · rename_i hsafe
          obtain ⟨token, htoken, hw⟩ := map_eq_ok.mp h
          cases hw
          exact Or.inl ⟨hpersonal, hlevel, by simpa using hsafe, htoken⟩
      · rename_i hlevel
        exact Or.inr ⟨fun _ => hlevel, h⟩
    · rename_i hpersonal
      exact Or.inr ⟨fun hp => absurd hp hpersonal, h⟩

/-- A field that enters the result does so under its own key. -/
theorem settle_eq (c : Context) (key : Value) (path : String) (x : Attempt (Option Value)) :
    (settle c key path x).1 = [] ∨
      ∃ w, x.result = .ok (some w) ∧ (settle c key path x).1 = [(key, w)] := by
  unfold settle
  split
  · rename_i w hw
    exact Or.inr ⟨w, hw, rfl⟩
  · exact Or.inl rfl
  · exact Or.inl rfl

/-! ## Items and fields -/

theorem scrubValue_map_eq_some {fields : Fields}
    (h : (scrubValue c name path (.map fields)).result = .ok (some w)) :
    ∃ kept, (scrubFields c path fields).result = .ok kept ∧ w = .map kept := by
  unfold scrubValue at h
  obtain ⟨kept, hkept, hw⟩ := map_eq_ok.mp h
  exact ⟨kept, hkept, (Option.some.inj hw).symm⟩

theorem scrubValue_list_eq_some {items : List Value}
    (h : (scrubValue c name path (.list items)).result = .ok (some w)) :
    ∃ kept, (scrubItems c name path 0 items).result = .ok kept ∧ w = .list kept := by
  unfold scrubValue at h
  obtain ⟨kept, hkept, hw⟩ := map_eq_ok.mp h
  exact ⟨kept, hkept, (Option.some.inj hw).symm⟩

theorem scrubItems_cons_eq_ok {i : Nat} {rest kept : List Value}
    (h : (scrubItems c name path i (v :: rest)).result = .ok kept) :
    ∃ first others, (scrubValue c name (Value.itemPath path i) v).result = .ok first ∧
      (scrubItems c name path (i + 1) rest).result = .ok others ∧ kept = first.toList ++ others := by
  unfold scrubItems at h
  obtain ⟨first, hfirst, h⟩ := Attempt.result_andThen_eq_ok.mp h
  obtain ⟨others, hothers, hkept⟩ := map_eq_ok.mp h
  exact ⟨first, others, hfirst, hothers, hkept.symm⟩

theorem scrubFields_cons_eq_ok {key : Value} {rest kept : Fields}
    (h : (scrubFields c path ((key, v) :: rest)).result = .ok kept) :
    ∃ name others, key.plain = .ok name ∧ (scrubFields c path rest).result = .ok others ∧
      (kept = others ∨ ∃ w,
        (scrubField c name (Value.fieldPath path (String.ofList name)) v fun _ =>
          scrubValue c name (Value.fieldPath path (String.ofList name)) v).result = .ok (some w) ∧
        kept = (key, w) :: others) := by
  unfold scrubFields at h
  split at h
  · cases h
  · rename_i name hname
    obtain ⟨others, hothers, hkept⟩ := map_eq_ok.mp h
    refine ⟨name, others, hname, hothers, ?_⟩
    rcases settle_eq c key (Value.fieldPath path (String.ofList name))
      (scrubField c name (Value.fieldPath path (String.ofList name)) v fun _ =>
        scrubValue c name (Value.fieldPath path (String.ofList name)) v) with hnone | ⟨w, hw, hsome⟩
    · rw [hnone] at hkept
      exact Or.inl hkept.symm
    · rw [hsome] at hkept
      exact Or.inr ⟨w, hw, hkept.symm⟩

end ConsentGate.Scrub
