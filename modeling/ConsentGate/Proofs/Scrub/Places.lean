import ConsentGate.Proofs.Scrub.Noninterference
import ConsentGate.Proofs.Scrub.Origins
import ConsentGate.Proofs.Scrub.Success

/-! Which places of a value are left.

A place is told by keys and by positions in the lists as they were handed in; those are lost in the
result, whose lists close up over the items that are gone. So `Stays` follows the scrubber down into the
value. Apart from the positions it says no more and no less than the result does (`lies_iff_stays`), and
what is left of a list or a map stands in the order of the places that stay
(`scrubItems_eq_filterMap`, `scrubFields_eq_filterMap`). -/
namespace ConsentGate.Scrub
open ConsentGate.Field Text
set_option autoImplicit false

variable {c : Context} {name under : List Char} {path : String} {key v w r : Value}

/-! ## What is left, in order -/

/-- What an attempt leaves, if anything. -/
def Attempt.left {α : Type} (x : Attempt (Option α)) : Option α := x.result.toOption.join

theorem Attempt.left_eq_some {α : Type} {x : Attempt (Option α)} {a : α} :
    x.left = some a ↔ x.result = .ok (some a) := by
  unfold left
  cases x.result with
  | error f => simp [Except.toOption]
  | ok o => simp [Except.toOption]

/-- What is left of a field, if its key has a text. -/
def fieldLeft (c : Context) (path : String) (key v : Value) : Option Value :=
  key.plain.toOption.bind fun name => (scrubAlone c path name v).left

theorem toOption_eq_some {α ε : Type} {x : Except ε α} {a : α} :
    x.toOption = some a ↔ x = .ok a := by
  cases x <;> simp [Except.toOption]

theorem fieldLeft_of_plain (c : Context) (path : String) (hname : key.plain = .ok name) (v : Value) :
    fieldLeft c path key v = (scrubAlone c path name v).left := by
  rw [fieldLeft, hname]
  rfl

theorem scrubItems_eq_filterMap {i : Nat} {items kept : List Value}
    (h : (scrubItems c name path i items).result = .ok kept) :
    kept = (items.zipIdx i).filterMap fun item =>
      (scrubValue c name (Value.itemPath path item.2) item.1).left := by
  induction items generalizing i kept with
  | nil =>
    cases h
    rfl
  | cons v rest ih =>
    obtain ⟨first, others, hfirst, hothers, rfl⟩ := scrubItems_cons_eq_ok h
    have hleft : (scrubValue c name (Value.itemPath path i) v).left = first := by
      rw [Attempt.left, hfirst]
      rfl
    rw [ih hothers, List.zipIdx_cons, List.filterMap_cons, hleft]
    cases first with
    | none => rfl
    | some w => rfl

theorem settle_fst (c : Context) (key : Value) (path : String) (x : Attempt (Option Value)) :
    (settle c key path x).1 = (x.left.map fun w => (key, w)).toList := by
  unfold settle Attempt.left
  split
  · rename_i hx
    rw [hx]
    rfl
  · rename_i hx
    rw [hx]
    rfl
  · rename_i hx
    rw [hx]
    rfl

theorem scrubFields_eq_filterMap {fields kept : Fields}
    (h : (scrubFields c path fields).result = .ok kept) :
    kept = fields.filterMap fun field =>
      (fieldLeft c path field.1 field.2).map fun w => (field.1, w) := by
  induction fields generalizing kept with
  | nil =>
    cases h
    rfl
  | cons field rest ih =>
    obtain ⟨key, v⟩ := field
    obtain ⟨name, _, hname, _, _⟩ := scrubFields_cons_eq_ok h
    rw [scrubFields_cons c path hname] at h
    obtain ⟨others, hothers, rfl⟩ := map_eq_ok.mp h
    rw [ih hothers, List.filterMap_cons, fieldLeft_of_plain c path hname, settle_fst]
    cases (scrubAlone c path name v).left with
    | none => rfl
    | some w => rfl

theorem mem_scrubItems_iff {items kept : List Value}
    (h : (scrubItems c name path 0 items).result = .ok kept) :
    w ∈ kept ↔ ∃ i v, items[i]? = some v ∧
      (scrubValue c name (Value.itemPath path i) v).result = .ok (some w) := by
  rw [scrubItems_eq_filterMap h, List.mem_filterMap]
  constructor
  · rintro ⟨⟨v, i⟩, hmem, hleft⟩
    exact ⟨i, v, List.mem_zipIdx_iff_getElem?.mp hmem, Attempt.left_eq_some.mp hleft⟩
  · rintro ⟨i, v, hget, hresult⟩
    exact ⟨(v, i), List.mem_zipIdx_iff_getElem?.mpr hget, Attempt.left_eq_some.mpr hresult⟩

theorem mem_scrubFields_iff {fields kept : Fields}
    (h : (scrubFields c path fields).result = .ok kept) :
    (key, w) ∈ kept ↔ ∃ v name, (key, v) ∈ fields ∧ key.plain = .ok name ∧
      (scrubAlone c path name v).result = .ok (some w) := by
  rw [scrubFields_eq_filterMap h, List.mem_filterMap]
  constructor
  · rintro ⟨⟨k, v⟩, hmem, hleft⟩
    obtain ⟨u, hu, heq⟩ := Option.map_eq_some_iff.mp hleft
    cases heq
    obtain ⟨name, hname, hu⟩ := Option.bind_eq_some_iff.mp hu
    exact ⟨v, name, hmem, toOption_eq_some.mp hname, Attempt.left_eq_some.mp hu⟩
  · rintro ⟨v, name, hmem, hname, hresult⟩
    refine ⟨(key, v), hmem, ?_⟩
    dsimp only
    rw [fieldLeft_of_plain c path hname, Attempt.left_eq_some.mpr hresult]
    rfl

/-! ## One field -/

/-- The field is left to its value. -/
def Context.Opens (c : Context) (name : List Char) : Prop :=
  (c.rules.classify name).isStripped = false ∧
    ((c.rules.classify name).isPersonal = true → c.level = .minimal)

theorem scrubField_of_opens (h : c.Opens name) (byValue : Unit → Attempt (Option Value)) :
    scrubField c name path v byValue = byValue () := by
  obtain ⟨hstripped, hminimal⟩ := h
  unfold scrubField
  dsimp only
  rw [hstripped, if_neg (by decide)]
  split
  · rename_i hpersonal
    rw [hminimal hpersonal]
  · rfl

theorem removes_or_tokenizes_or_opens (c : Context) (name : List Char) :
    c.Removes name ∨ c.Tokenizes name ∨ c.Opens name := by
  unfold Context.Removes Context.Tokenizes Context.Opens
  cases (c.rules.classify name).isStripped <;> cases (c.rules.classify name).isPersonal <;>
    cases c.level <;> simp

theorem scrubAlone_cases (c : Context) (path : String) (name : List Char) (v : Value) :
    scrubAlone c path name v = remove (Value.fieldPath path (String.ofList name)) ∨
      (c.Tokenizes name ∧ c.isUnsafe v = false ∧ scrubAlone c path name v =
        ⟨(c.hasher.tokenize v).map some,
          { tokenized := [Value.fieldPath path (String.ofList name)] }⟩) ∨
      (c.Opens name ∧ scrubAlone c path name v =
        scrubValue c name (Value.fieldPath path (String.ofList name)) v) := by
  rcases removes_or_tokenizes_or_opens c name with hremoves | htokenizes | hopens
  · exact Or.inl (scrubField_of_removes hremoves v _)
  · by_cases hsafe : c.isUnsafe v = false
    · exact Or.inr (Or.inl ⟨htokenizes, hsafe, scrubField_of_tokenizes htokenizes hsafe _⟩)
    · left
      have hstripped : ¬(c.rules.classify name).isStripped = true := by
        intro hstripped
        have hpersonal := htokenizes.1
        simp [Category.isPersonal, hstripped] at hpersonal
      simp only [scrubAlone, scrubField]
      rw [if_neg hstripped, if_pos htokenizes.1, htokenizes.2, if_pos (by simpa using hsafe)]
  · exact Or.inr (Or.inr ⟨hopens, scrubField_of_opens hopens _⟩)

theorem scrubLeaf_cases (c : Context) (name : List Char) (path : String) (v : Value) :
    scrubLeaf c name path v = remove path ∨ (∃ f, scrubLeaf c name path v = .fail f) ∨
      scrubLeaf c name path v = .ok (some v) ∨
      ∃ w, scrubLeaf c name path v = ⟨.ok (some w), { generalized := [path] }⟩ := by
  unfold scrubLeaf
  split
  · exact Or.inl rfl
  · split
    · exact Or.inr (Or.inl ⟨_, rfl⟩)
    · unfold keepOrGeneralize
      split
      · split
        · exact Or.inr (Or.inr (Or.inr ⟨_, rfl⟩))
        · exact Or.inr (Or.inl ⟨_, rfl⟩)
      · exact Or.inr (Or.inr (Or.inl rfl))

/-- A field that is left has become a token as a whole, or is what is left of its value. -/
theorem scrubAlone_eq_some_iff :
    (scrubAlone c path name v).result = .ok (some w) ↔
      (c.Tokenizes name ∧ c.isUnsafe v = false ∧ c.hasher.tokenize v = .ok w) ∨
        (c.Opens name ∧ (scrubValue c name (Value.fieldPath path (String.ofList name)) v).result =
          .ok (some w)) := by
  constructor
  · intro h
    obtain ⟨hstripped, ⟨hpersonal, hlevel, hsafe, htoken⟩ | ⟨hminimal, hvalue⟩⟩ :=
      scrubField_eq_some h
    · exact Or.inl ⟨⟨hpersonal, hlevel⟩, hsafe, htoken⟩
    · exact Or.inr ⟨⟨hstripped, hminimal⟩, hvalue⟩
  · rintro (⟨htokenizes, hsafe, htoken⟩ | ⟨hopens, hvalue⟩)
    · rw [scrubAlone, scrubField_of_tokenizes htokenizes hsafe, htoken]
      rfl
    · rw [scrubAlone, scrubField_of_opens hopens]
      exact hvalue

/-- The way from a value to what is left of it, taken once for all: what holds of leaves, and passes from
the items and fields that are left to the lists and maps around them, holds of every value. -/
theorem scrubValue_induction {P : List Char → Value → Value → Prop}
    (leaf : ∀ name path v w, IsLeaf v → (scrubLeaf c name path v).result = .ok (some w) → P name v w)
    (list : ∀ name items kept, (∀ w ∈ kept, ∃ v ∈ items, P name v w) →
      P name (.list items) (.list kept))
    (map : ∀ name fields kept,
      (∀ field ∈ kept, ∃ v own, (field.1, v) ∈ fields ∧ field.1.plain = .ok own ∧
        ((c.Tokenizes own ∧ c.hasher.tokenize v = .ok field.2) ∨
          (c.Opens own ∧ P own v field.2))) →
      P name (.map fields) (.map kept))
    {name : List Char} {path : String} {v w : Value}
    (h : (scrubValue c name path v).result = .ok (some w)) : P name v w := by
  rcases scrubValue_eq_some h with ⟨fields, kept, hv, hw, hkept⟩ | ⟨items, kept, hv, hw, hkept⟩ |
    ⟨hleaf, _, hkept⟩
  · rw [hv, hw]
    refine map name fields kept fun field hfield => ?_
    obtain ⟨u, own, hmem, hplain, halone⟩ := (mem_scrubFields_iff hkept).mp hfield
    refine ⟨u, own, hmem, hplain, ?_⟩
    rcases scrubAlone_eq_some_iff.mp halone with ⟨htokenizes, _, htoken⟩ | ⟨hopens, hvalue⟩
    · exact Or.inl ⟨htokenizes, htoken⟩
    · exact Or.inr ⟨hopens, scrubValue_induction leaf list map hvalue⟩
  · rw [hv, hw]
    refine list name items kept fun item hitem => ?_
    obtain ⟨i, u, hposition, hvalue⟩ := (mem_scrubItems_iff hkept).mp hitem
    exact ⟨u, List.mem_of_getElem? hposition, scrubValue_induction leaf list map hvalue⟩
  · exact leaf name path v w hleaf hkept
termination_by sizeOf w
decreasing_by
  · have hsize := List.sizeOf_lt_of_mem hfield
    obtain ⟨key, u⟩ := field
    simp only [hw, Prod.mk.sizeOf_spec, Value.map.sizeOf_spec] at hsize ⊢
    omega
  · have hsize := List.sizeOf_lt_of_mem hitem
    simp only [hw, Value.list.sizeOf_spec]
    omega

/-! ## Places -/

/-- A step down into a value: to a field of a map, or to a position in a list. -/
inductive Step where
  | field (key : Value)
  | item (i : Nat)

def Step.key? : Step → Option Value
  | .field key => some key
  | .item _ => none

/-- `Stays c name path v place under w`: of the value `v` at a path, under the key `name`, the scrubber
leaves the place, with `w` there, where the key `under` is the last one on the way. A list or a map is
left in full or not at all (`whole`); what becomes a token has no places inside. -/
inductive Stays (c : Context) : List Char → String → Value → List Step → List Char → Value → Prop
  | here {name : List Char} {path : String} {v w : Value}
      (left : (scrubValue c name path v).result = .ok (some w)) : Stays c name path v [] name w
  | item {name under : List Char} {path : String} {items kept : List Value} {i : Nat} {v w : Value}
      {place : List Step} (whole : (scrubItems c name path 0 items).result = .ok kept)
      (position : items[i]? = some v)
      (inside : Stays c name (Value.itemPath path i) v place under w) :
      Stays c name path (.list items) (.item i :: place) under w
  | token {name own : List Char} {path : String} {fields kept : Fields} {key v w : Value}
      (whole : (scrubFields c path fields).result = .ok kept) (mem : (key, v) ∈ fields)
      (plain : key.plain = .ok own) (tokenizes : c.Tokenizes own) (safe : c.isUnsafe v = false)
      (token : c.hasher.tokenize v = .ok w) : Stays c name path (.map fields) [.field key] own w
  | field {name own under : List Char} {path : String} {fields kept : Fields} {key v w : Value}
      {place : List Step} (whole : (scrubFields c path fields).result = .ok kept)
      (mem : (key, v) ∈ fields) (plain : key.plain = .ok own) (opens : c.Opens own)
      (inside : Stays c own (Value.fieldPath path (String.ofList own)) v place under w) :
      Stays c name path (.map fields) (.field key :: place) under w

/-- `r.Lies keys w`: `w` stands in `r` below the keys, one inside the other, through lists on the way. -/
inductive Lies : Value → List Value → Value → Prop
  | here {v : Value} : Lies v [] v
  | inList {items : List Value} {keys : List Value} {v w : Value} (mem : v ∈ items)
      (inside : Lies v keys w) : Lies (.list items) keys w
  | inField {fields : Fields} {keys : List Value} {key v w : Value} (mem : (key, v) ∈ fields)
      (inside : Lies v keys w) : Lies (.map fields) (key :: keys) w

theorem Lies.of_isScalar {keys : List Value} (h : Lies v keys w) (hv : v.isScalar = true) :
    keys = [] ∧ w = v := by
  cases h with
  | here => exact ⟨rfl, rfl⟩
  | inList _ _ => cases hv
  | inField _ _ => cases hv

theorem scrubValue_map_of_ok {fields kept : Fields}
    (h : (scrubFields c path fields).result = .ok kept) :
    (scrubValue c name path (.map fields)).result = .ok (some (.map kept)) := by
  rw [scrubValue, Attempt.map_result, h]
  rfl

theorem scrubValue_list_of_ok {items kept : List Value}
    (h : (scrubItems c name path 0 items).result = .ok kept) :
    (scrubValue c name path (.list items)).result = .ok (some (.list kept)) := by
  rw [scrubValue, Attempt.map_result, h]
  rfl

/-- Where a place stays, something is left of the whole. -/
theorem Stays.exists_left {place : List Step} (h : Stays c name path v place under w) :
    ∃ r, (scrubValue c name path v).result = .ok (some r) := by
  cases h with
  | here left => exact ⟨w, left⟩
  | item whole _ _ => exact ⟨_, scrubValue_list_of_ok whole⟩
  | token whole _ _ _ _ _ => exact ⟨_, scrubValue_map_of_ok whole⟩
  | field whole _ _ _ _ => exact ⟨_, scrubValue_map_of_ok whole⟩

/-- Places that stay are there in the result, under the same keys. -/
theorem Stays.lies {place : List Step} (h : Stays c name path v place under w)
    (hr : (scrubValue c name path v).result = .ok (some r)) :
    Lies r (place.filterMap Step.key?) w := by
  induction h generalizing r with
  | here left =>
    cases left.symm.trans hr
    exact .here
  | item whole position inside ih =>
    obtain ⟨kept, hkept, rfl⟩ := scrubValue_list_eq_some hr
    obtain ⟨u, hu⟩ := inside.exists_left
    exact .inList ((mem_scrubItems_iff hkept).mpr ⟨_, _, position, hu⟩) (ih hu)
  | token whole mem plain tokenizes safe token =>
    obtain ⟨kept, hkept, rfl⟩ := scrubValue_map_eq_some hr
    refine .inField ((mem_scrubFields_iff hkept).mpr ⟨_, _, mem, plain, ?_⟩) .here
    exact scrubAlone_eq_some_iff.mpr (Or.inl ⟨tokenizes, safe, token⟩)
  | field whole mem plain opens inside ih =>
    obtain ⟨kept, hkept, rfl⟩ := scrubValue_map_eq_some hr
    obtain ⟨u, hu⟩ := inside.exists_left
    refine .inField ((mem_scrubFields_iff hkept).mpr ⟨_, _, mem, plain, ?_⟩) (ih hu)
    exact scrubAlone_eq_some_iff.mpr (Or.inr ⟨opens, hu⟩)

/-- Whatever is there in the result stays at some place under the same keys. -/
theorem Lies.exists_stays {keys : List Value} (h : Lies r keys w)
    (hr : (scrubValue c name path v).result = .ok (some r)) :
    ∃ place under, place.filterMap Step.key? = keys ∧ Stays c name path v place under w := by
  induction h generalizing name path v with
  | here => exact ⟨[], name, rfl, .here hr⟩
  | inList mem _ ih =>
    rcases scrubValue_eq_some hr with ⟨_, _, _, hw, _⟩ | ⟨items, kept, rfl, hw, hkept⟩ | ⟨_, hw, _⟩
    · cases hw
    · cases hw
      obtain ⟨i, u, hposition, hu⟩ := (mem_scrubItems_iff hkept).mp mem
      obtain ⟨place, under, hkeys, hinside⟩ := ih hu
      exact ⟨.item i :: place, under, hkeys, .item hkept hposition hinside⟩
    · cases hw
  | inField mem inside ih =>
    rcases scrubValue_eq_some hr with ⟨fields, kept, rfl, hw, hkept⟩ | ⟨_, _, _, hw, _⟩ | ⟨_, hw, _⟩
    · cases hw
      obtain ⟨u, own, hmem, hplain, hu⟩ := (mem_scrubFields_iff hkept).mp mem
      rcases scrubAlone_eq_some_iff.mp hu with ⟨htokenizes, hsafe, htoken⟩ | ⟨hopens, hvalue⟩
      · -- A token has no parts, so the place ends there.
        obtain ⟨rfl, rfl⟩ := inside.of_isScalar (isScalar_of_tokenize htoken)
        exact ⟨[.field _], own, rfl, .token hkept hmem hplain htokenizes hsafe htoken⟩
      · obtain ⟨place, under, hkeys, hinside⟩ := ih hvalue
        exact ⟨.field _ :: place, under, congrArg (_ :: ·) hkeys,
          .field hkept hmem hplain hopens hinside⟩
    · cases hw
    · cases hw

theorem lies_iff_stays (hr : (scrubValue c name path v).result = .ok (some r)) (keys : List Value)
    (w : Value) :
    Lies r keys w ↔
      ∃ place under, place.filterMap Step.key? = keys ∧ Stays c name path v place under w := by
  constructor
  · intro h
    exact h.exists_stays hr
  · rintro ⟨place, under, rfl, hstays⟩
    exact hstays.lies hr

end ConsentGate.Scrub
