import ConsentGate.Proofs.Number.Numerals
import ConsentGate.Proofs.Scrub.Recording

/-! When paths tell fields apart.

A path is put together from keys and positions without any quoting, so a key with a point in it may look
like two keys. In a tidy value no key has a point or an opening bracket, and no map has a key twice;
there a path leads to one field at most (`FieldAt.unique`), and fields beside each other have no path
below them in common (`field_eq_of_leads`, `index_eq_of_leads`). -/
namespace ConsentGate
open Text
set_option autoImplicit false

/-! ## Paths apart -/

/-- A text that can be told apart inside a path. -/
def IsPlainKey (k : String) : Prop := '.' ∉ k.toList ∧ '[' ∉ k.toList

variable {path p k k' : String}

theorem drop_of_eq {c : Char} {rest : List Char} (h : p.toList = path.toList ++ c :: rest) :
    p.toList.drop (path.toList.length + 1) = rest := by
  rw [h, List.drop_length_add_append]
  rfl

/-- Behind a path, up to the next point or opening bracket. -/
def keyBehind (path p : String) : List Char :=
  (p.toList.drop (path.toList.length + 1)).takeWhile fun c => c != '.' && c != '['

theorem takeWhile_plain (hk : IsPlainKey k) {tail : List Char}
    (htail : tail = [] ∨ ∃ rest, tail = '.' :: rest ∨ tail = '[' :: rest) :
    (k.toList ++ tail).takeWhile (fun c => c != '.' && c != '[') = k.toList := by
  have hall : ∀ c ∈ k.toList, (c != '.' && c != '[') = true := by
    intro c hc
    have hdot : c ≠ '.' := fun h => hk.1 (h ▸ hc)
    have hbracket : c ≠ '[' := fun h => hk.2 (h ▸ hc)
    simp [hdot, hbracket]
  rw [List.takeWhile_append_of_pos hall]
  rcases htail with rfl | ⟨rest, rfl | rfl⟩ <;> simp

theorem keyBehind_of_leads (hk : IsPlainKey k) (h : Leads (Value.fieldPath path k) p) :
    keyBehind path p = k.toList := by
  obtain ⟨tail, htail, hp⟩ : ∃ tail, (tail = [] ∨ ∃ rest, tail = '.' :: rest ∨ tail = '[' :: rest) ∧
      p.toList = path.toList ++ '.' :: (k.toList ++ tail) := by
    rcases h with rfl | ⟨rest, rfl | rfl⟩
    · exact ⟨[], Or.inl rfl, by simp [Value.fieldPath]⟩
    · exact ⟨'.' :: rest.toList, Or.inr ⟨_, Or.inl rfl⟩, by simp [Value.fieldPath]⟩
    · exact ⟨'[' :: rest.toList, Or.inr ⟨_, Or.inr rfl⟩, by simp [Value.fieldPath]⟩
  rw [keyBehind, drop_of_eq hp, takeWhile_plain hk htail]

theorem key_eq_of_leads (hk : IsPlainKey k) (hk' : IsPlainKey k')
    (h : Leads (Value.fieldPath path k) p) (h' : Leads (Value.fieldPath path k') p) : k = k' :=
  String.toList_inj.mp ((keyBehind_of_leads hk h).symm.trans (keyBehind_of_leads hk' h'))

theorem index_of_leads {i : Nat} (h : Leads (Value.itemPath path i) p) :
    (p.toList.drop (path.toList.length + 1)).takeWhile (· != ']') = Nat.toDigits 10 i := by
  obtain ⟨tail, hp⟩ : ∃ tail, p.toList = path.toList ++ '[' :: (Nat.toDigits 10 i ++ ']' :: tail) := by
    rcases h with rfl | ⟨rest, rfl | rfl⟩
    · exact ⟨[], by simp [Value.itemPath, natString]⟩
    · exact ⟨'.' :: rest.toList, by simp [Value.itemPath, natString]⟩
    · exact ⟨'[' :: rest.toList, by simp [Value.itemPath, natString]⟩
  have hdigits : ∀ c ∈ Nat.toDigits 10 i, (c != ']') = true := by
    intro c hc
    have hdigit := (Number.isDigits_toDigits i).2 c hc
    simp only [bne_iff_ne, ne_eq]
    rintro rfl
    exact absurd hdigit (by decide)
  rw [drop_of_eq hp, List.takeWhile_append_of_pos hdigits]
  simp

theorem index_eq_of_leads {i j : Nat} (h : Leads (Value.itemPath path i) p)
    (h' : Leads (Value.itemPath path j) p) : i = j := by
  have hdigits := (index_of_leads h).symm.trans (index_of_leads h')
  simpa using congrArg Number.digitsNumber hdigits

/-! ## Values whose paths tell the fields apart -/

namespace Value

mutual
/-- In each map of a value, however deep it stands, no key comes twice and all keys are plain texts. -/
def Tidy : Value → Prop
  | .list items => ItemsTidy items
  | .map fields => (fields.map (·.1)).Nodup ∧ FieldsTidy fields
  | _ => True

def ItemsTidy : List Value → Prop
  | [] => True
  | v :: rest => v.Tidy ∧ ItemsTidy rest

def FieldsTidy : List (Value × Value) → Prop
  | [] => True
  | (key, v) :: rest => (∃ k, key = .str k ∧ IsPlainKey k) ∧ v.Tidy ∧ FieldsTidy rest
end

theorem itemsTidy_iff {items : List Value} : ItemsTidy items ↔ ∀ v ∈ items, v.Tidy := by
  induction items with
  | nil => simp [ItemsTidy]
  | cons v rest ih => simp [ItemsTidy, ih]

theorem fieldsTidy_iff {fields : Fields} :
    FieldsTidy fields ↔ ∀ f ∈ fields, (∃ k, f.1 = .str k ∧ IsPlainKey k) ∧ f.2.Tidy := by
  induction fields with
  | nil => simp [FieldsTidy]
  | cons f rest ih => simp only [FieldsTidy, ih, List.forall_mem_cons, and_assoc]

theorem Tidy.filter {fields : Fields} (h : (map fields).Tidy) (q : Value × Value → Bool) :
    (map (fields.filter q)).Tidy := by
  obtain ⟨hkeys, hfields⟩ := h
  refine ⟨hkeys.sublist (List.filter_sublist.map _), fieldsTidy_iff.mpr fun f hf => ?_⟩
  exact fieldsTidy_iff.mp hfields f (List.mem_filter.mp hf).1

end Value

/-- `FieldAt path v p u`: in the value `v` at a path, `u` is the value of the field at the path `p`. -/
inductive FieldAt : String → Value → String → Value → Prop
  | here {path k : String} {fields : Fields} {u : Value} (mem : (.str k, u) ∈ fields) :
      FieldAt path (.map fields) (Value.fieldPath path k) u
  | inField {path k p : String} {fields : Fields} {v u : Value} (mem : (.str k, v) ∈ fields)
      (inside : FieldAt (Value.fieldPath path k) v p u) : FieldAt path (.map fields) p u
  | inItem {path p : String} {items : List Value} {i : Nat} {v u : Value}
      (position : items[i]? = some v) (inside : FieldAt (Value.itemPath path i) v p u) :
      FieldAt path (.list items) p u

variable {v u u' : Value}

theorem FieldAt.isBelow (h : FieldAt path v p u) : Below path p := by
  induction h with
  | here mem => exact (leads_self _).below_of_field
  | inField mem inside ih => exact Leads.below_of_field (Or.inr ih)
  | inItem position inside ih => exact Leads.below_of_item (Or.inr ih)

/-- The field at its own path with the value `v`, or a field in that value. -/
def FieldFrom (own : String) (v : Value) (p : String) (u : Value) : Prop :=
  p = own ∧ u = v ∨ FieldAt own v p u

/-- A field in one of the items of a list, which are counted from `i` on. -/
def FieldAmong (path : String) (i : Nat) (items : List Value) (p : String) (u : Value) : Prop :=
  ∃ j v, items[j]? = some v ∧ FieldAt (Value.itemPath path (i + j)) v p u

theorem FieldAmong.cons {i : Nat} {rest : List Value} (h : FieldAmong path (i + 1) rest p u) (v : Value) :
    FieldAmong path i (v :: rest) p u := by
  obtain ⟨j, w, position, inside⟩ := h
  rw [Nat.add_assoc, Nat.add_comm 1] at inside
  exact ⟨j + 1, w, position, inside⟩

theorem fieldAt_map_iff {fields : Fields} :
    FieldAt path (.map fields) p u ↔
      ∃ k v, (.str k, v) ∈ fields ∧ FieldFrom (Value.fieldPath path k) v p u := by
  constructor
  · intro h
    cases h with
    | here mem => exact ⟨_, _, mem, Or.inl ⟨rfl, rfl⟩⟩
    | inField mem inside => exact ⟨_, _, mem, Or.inr inside⟩
  · rintro ⟨k, v, mem, ⟨rfl, rfl⟩ | inside⟩
    · exact .here mem
    · exact .inField mem inside

/-- Fields of a tidy map that are at one path, or lead to one, are the same field. -/
theorem field_eq_of_leads {fields : Fields} (h : (Value.map fields).Tidy) {v' : Value}
    (hmem : (.str k, v) ∈ fields) (hmem' : (.str k', v') ∈ fields)
    (hp : Leads (Value.fieldPath path k) p) (hp' : Leads (Value.fieldPath path k') p) :
    k = k' ∧ v = v' := by
  obtain ⟨hkeys, hfields⟩ := h
  have hplain : ∀ {k v}, (Value.str k, v) ∈ fields → IsPlainKey k := by
    intro k v hmem
    obtain ⟨⟨_, heq, hplain⟩, _⟩ := Value.fieldsTidy_iff.mp hfields _ hmem
    cases heq
    exact hplain
  obtain rfl := key_eq_of_leads (hplain hmem) (hplain hmem') hp hp'
  have hsame := List.inj_on_of_nodup_map hkeys hmem hmem' rfl
  exact ⟨rfl, congrArg Prod.snd hsame⟩

/-- A path leads to one field at most. -/
theorem FieldAt.unique (h : FieldAt path v p u) (hv : v.Tidy) (h' : FieldAt path v p u') : u = u' := by
  induction h with
  | here mem =>
    obtain ⟨k', v', mem', ⟨heq, rfl⟩ | inside⟩ := fieldAt_map_iff.mp h'
    · exact (field_eq_of_leads hv mem mem' (leads_self _) (Or.inl heq)).2
    · obtain ⟨rfl, _⟩ := field_eq_of_leads hv mem mem' (leads_self _) (Or.inr inside.isBelow)
      exact absurd rfl inside.isBelow.ne
  | inField mem inside ih =>
    obtain ⟨k', v', mem', ⟨rfl, rfl⟩ | inside'⟩ := fieldAt_map_iff.mp h'
    · obtain ⟨rfl, _⟩ := field_eq_of_leads hv mem mem' (Or.inr inside.isBelow) (leads_self _)
      exact absurd rfl inside.isBelow.ne
    · obtain ⟨rfl, rfl⟩ :=
        field_eq_of_leads hv mem mem' (Or.inr inside.isBelow) (Or.inr inside'.isBelow)
      exact ih (Value.fieldsTidy_iff.mp hv.2 _ mem).2 inside'
  | inItem position inside ih =>
    cases h' with
    | inItem position' inside' =>
      obtain rfl := index_eq_of_leads (Or.inr inside.isBelow) (Or.inr inside'.isBelow)
      cases position.symm.trans position'
      exact ih (Value.itemsTidy_iff.mp hv _ (List.mem_of_getElem? position)) inside'

end ConsentGate
