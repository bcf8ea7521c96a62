import ConsentGate.Value.Text

/-! Which values have a text.

Only an integer of too many digits has none, nor has anything that holds one. So a value has a text, inside
the text of another value (`exists_shown`) as well as alone (`exists_plain`), if every integer in it is
short; and a value with an integer that is too long has none (`shown_of_long`). -/
namespace ConsentGate.Value
open Number
set_option autoImplicit false

mutual
/-- Every integer in the value, at any depth and in keys as well, has few enough digits to be written. -/
def isShort : Value → Bool
  | .int n => (Nat.toDigits 10 n.natAbs).length ≤ digitLimit
  | .list items => itemsShort items
  | .tuple items => itemsShort items
  | .set items => itemsShort items
  | .map fields => fieldsShort fields
  | _ => true

def itemsShort : List Value → Bool
  | [] => true
  | v :: rest => v.isShort && itemsShort rest

def fieldsShort : List (Value × Value) → Bool
  | [] => true
  | (k, v) :: rest => k.isShort && v.isShort && fieldsShort rest
end

theorem fieldsShort_iff {fields : Fields} : fieldsShort fields = true ↔
    ∀ field ∈ fields, field.1.isShort = true ∧ field.2.isShort = true := by
  induction fields with
  | nil => simp [fieldsShort]
  | cons field rest ih => simp [fieldsShort, ih, and_assoc]

theorem exists_intText {n : Int} (h : (Nat.toDigits 10 n.natAbs).length ≤ digitLimit) :
    ∃ text, intText n = .ok text := by
  unfold intText writeInt?
  dsimp only
  rw [if_neg (Nat.not_lt.mpr h)]
  exact ⟨_, rfl⟩

-- The cases follow the recursion of `shown`.
mutual
theorem exists_shown (v : Value) (h : v.isShort = true) : ∃ text, v.shown = .ok text := by
  match v with
  | .int n => exact exists_intText (of_decide_eq_true h)
  | .list items =>
    obtain ⟨texts, htexts⟩ := exists_shownItems items h
    exact ⟨_, bind_eq_ok.mpr ⟨texts, htexts, rfl⟩⟩
  | .tuple items =>
    obtain ⟨texts, htexts⟩ := exists_shownItems items h
    rw [shown, htexts]
    match texts with
    | [] | [_] | _ :: _ :: _ => exact ⟨_, rfl⟩
  | .set items =>
    obtain ⟨texts, htexts⟩ := exists_shownItems items h
    rw [shown, htexts]
    match texts with
    | [] | _ :: _ => exact ⟨_, rfl⟩
  | .map fields =>
    obtain ⟨texts, htexts⟩ := exists_shownFields fields h
    exact ⟨_, bind_eq_ok.mpr ⟨texts, htexts, rfl⟩⟩
  | .null | .bool _ | .float _ | .decimal _ | .str _ | .date _ | .datetime _ | .bytes _ | .level _
  | .foreign | .uncopyable => exact ⟨_, rfl⟩

theorem exists_shownItems (items : List Value) (h : itemsShort items = true) :
    ∃ texts, shownItems items = .ok texts := by
  match items with
  | [] => exact ⟨[], rfl⟩
  | v :: rest =>
    obtain ⟨hv, hrest⟩ := Bool.and_eq_true_iff.mp h
    obtain ⟨text, htext⟩ := exists_shown v hv
    obtain ⟨texts, htexts⟩ := exists_shownItems rest hrest
    exact ⟨_, bind_eq_ok.mpr ⟨text, htext, bind_eq_ok.mpr ⟨texts, htexts, rfl⟩⟩⟩

theorem exists_shownFields (fields : List (Value × Value)) (h : fieldsShort fields = true) :
    ∃ texts, shownFields fields = .ok texts := by
  match fields with
  | [] => exact ⟨[], rfl⟩
  | (k, v) :: rest =>
    obtain ⟨hfirst, hrest⟩ := Bool.and_eq_true_iff.mp h
    obtain ⟨hk, hv⟩ := Bool.and_eq_true_iff.mp hfirst
    obtain ⟨key, hkey⟩ := exists_shown k hk
    obtain ⟨text, htext⟩ := exists_shown v hv
    obtain ⟨texts, htexts⟩ := exists_shownFields rest hrest
    exact ⟨_, bind_eq_ok.mpr ⟨key, hkey, bind_eq_ok.mpr ⟨text, htext,
      bind_eq_ok.mpr ⟨texts, htexts, rfl⟩⟩⟩⟩
end

theorem intText_of_long {n : Int} (h : ¬(Nat.toDigits 10 n.natAbs).length ≤ digitLimit) :
    intText n = .error .wrongValue := by
  unfold intText writeInt?
  dsimp only
  rw [if_pos (Nat.lt_of_not_le h)]

mutual
theorem shown_of_long (v : Value) (h : v.isShort = false) : v.shown = .error .wrongValue := by
  match v with
  | .int n => exact intText_of_long (of_decide_eq_false h)
  | .list items => exact bind_eq_error.mpr (Or.inl (shownItems_of_long items h))
  | .tuple items => exact bind_eq_error.mpr (Or.inl (shownItems_of_long items h))
  | .set items => exact bind_eq_error.mpr (Or.inl (shownItems_of_long items h))
  | .map fields => exact bind_eq_error.mpr (Or.inl (shownFields_of_long fields h))
  | .null | .bool _ | .float _ | .decimal _ | .str _ | .date _ | .datetime _ | .bytes _ | .level _
  | .foreign | .uncopyable => cases h

theorem shownItems_of_long (items : List Value) (h : itemsShort items = false) :
    shownItems items = .error .wrongValue := by
  match items with
  | [] => cases h
  | v :: rest =>
    refine bind_eq_error.mpr ?_
    cases hv : v.isShort with
    | false => exact Or.inl (shown_of_long v hv)
    | true =>
      -- The value has a text, so it is the rest that has none.
      rw [itemsShort, hv, Bool.true_and] at h
      obtain ⟨text, htext⟩ := exists_shown v hv
      exact Or.inr ⟨text, htext, bind_eq_error.mpr (Or.inl (shownItems_of_long rest h))⟩

theorem shownFields_of_long (fields : List (Value × Value)) (h : fieldsShort fields = false) :
    shownFields fields = .error .wrongValue := by
  match fields with
  | [] => cases h
  | (k, v) :: rest =>
    refine bind_eq_error.mpr ?_
    cases hk : k.isShort with
    | false => exact Or.inl (shown_of_long k hk)
    | true =>
      obtain ⟨key, hkey⟩ := exists_shown k hk
      refine Or.inr ⟨key, hkey, bind_eq_error.mpr ?_⟩
      cases hv : v.isShort with
      | false => exact Or.inl (shown_of_long v hv)
      | true =>
        rw [fieldsShort, hk, hv, Bool.true_and, Bool.true_and] at h
        obtain ⟨text, htext⟩ := exists_shown v hv
        exact Or.inr ⟨text, htext, bind_eq_error.mpr (Or.inl (shownFields_of_long rest h))⟩
end

theorem exists_plain {v : Value} (h : v.isShort = true) : ∃ text, v.plain = .ok text := by
  unfold plain
  split
  case h_6 => exact exists_shown v h
  all_goals exact ⟨_, rfl⟩

end ConsentGate.Value
