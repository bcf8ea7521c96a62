import ConsentGate.Proofs.Number.FloatRoundTrip
import ConsentGate.Proofs.Sorting.Permutation
import ConsentGate.Proofs.Value.RoundTrip

/-! Every JSON text that is written can be read.

This holds of any value that has a text, also of one outside the value model: a map may have keys that
are no texts, and keys may become the same text. What a map is read as is then told by its entries: under
a name that all entries agree on, the map that was read has their value (`get?_foldl_put`). -/
namespace ConsentGate.Value
open Number Text
set_option autoImplicit false

/-! ## Objects taken apart -/

theorem sortByKey_perm {α : Type} {fields sorted : List (Value × α)}
    (h : sortByKey fields = .ok sorted) : sorted.Perm fields := by
  unfold sortByKey at h
  split at h
  · rw [← Except.ok.inj h]
    exact List.mergeSort_perm _ _
  · exact Sorting.sort_perm h

theorem exists_of_mem_forall₂ {α β : Type} {R : α → β → Prop} {as : List α} {bs : List β}
    (h : List.Forall₂ R as bs) {a : α} (ha : a ∈ as) : ∃ b ∈ bs, R a b := by
  induction h with
  | nil => cases ha
  | @cons c d _ others hcd _ ih =>
    rcases List.mem_cons.mp ha with rfl | ha
    · exact ⟨d, List.mem_cons_self, hcd⟩
    · obtain ⟨b, hb, hab⟩ := ih ha
      exact ⟨b, List.mem_cons_of_mem d hb, hab⟩

/-- An entry as a field is written and read. -/
structure Entry.Of (e : Entry) (f : Value × Except Fault (List Char)) : Prop where
  key : jsonKey f.1 = .ok e.key.toList
  text : f.2 = .ok e.text
  value : ReadsAs e.text e.value

theorem exists_entry {f : Value × Except Fault (List Char)} {line : List Char}
    (h : (do
      let key ← jsonKey f.1
      let text ← f.2
      return jsonText key ++ ':' :: text) = (.ok line : Except Fault (List Char)))
    (hread : ∀ text, f.2 = .ok text → ∃ w, ReadsAs text w) :
    ∃ e : Entry, e.Of f ∧ line = e.line := by
  obtain ⟨key, hkey, h⟩ := bind_eq_ok.mp h
  obtain ⟨text, htext, h⟩ := bind_eq_ok.mp h
  obtain ⟨w, hw⟩ := hread text htext
  refine ⟨⟨String.ofList key, text, w⟩, ⟨?_, htext, hw⟩, ?_⟩
  · rw [String.toList_ofList]
    exact hkey
  · rw [← Except.ok.inj h, Entry.line, String.toList_ofList]

theorem exists_entries_of_lines {written : List (Value × Except Fault (List Char))}
    {lines : List (List Char)}
    (h : written.mapM (fun f => do
      let key ← jsonKey f.1
      let text ← f.2
      return jsonText key ++ ':' :: text) = .ok lines)
    (hread : ∀ f ∈ written, ∀ text, f.2 = .ok text → ∃ w, ReadsAs text w) :
    ∃ entries : List Entry, List.Forall₂ (fun f e => Entry.Of e f) written entries ∧
      lines = entries.map Entry.line := by
  induction written generalizing lines with
  | nil =>
    cases h
    exact ⟨[], .nil, rfl⟩
  | cons f rest ih =>
    rw [List.mapM_cons] at h
    obtain ⟨line, hline, h⟩ := bind_eq_ok.mp h
    obtain ⟨others, hothers, h⟩ := bind_eq_ok.mp h
    obtain ⟨e, he, rfl⟩ := exists_entry hline (hread f List.mem_cons_self)
    obtain ⟨entries, hentries, rfl⟩ := ih hothers fun g hg => hread g (List.mem_cons_of_mem f hg)
    cases h
    exact ⟨e :: entries, .cons he hentries, rfl⟩

/-- The text of a map is made of one line a field, in some order. -/
theorem exists_entries_of_json {fields : Fields} {text : List Char}
    (h : (Value.map fields).json = .ok text)
    (hread : ∀ f ∈ fields, ∀ text, f.2.json = .ok text → ∃ w, ReadsAs text w) :
    ∃ entries : List Entry, (∀ e ∈ entries, ∃ f ∈ fields, e.Of (f.1, f.2.json)) ∧
      (∀ f ∈ fields, ∃ e ∈ entries, Entry.Of e (f.1, f.2.json)) ∧
      text = '\x7b' :: ([','].intercalate (entries.map Entry.line) ++ ['\x7d']) := by
  rw [json, jsonObject, jsonFields_eq_map] at h
  obtain ⟨written, hwritten, h⟩ := bind_eq_ok.mp h
  obtain ⟨lines, hlines, h⟩ := bind_eq_ok.mp h
  have hperm := sortByKey_perm hwritten
  have hfrom : ∀ g ∈ written, ∃ f ∈ fields, (f.1, f.2.json) = g := fun g hg =>
    List.mem_map.mp (hperm.mem_iff.mp hg)
  obtain ⟨entries, hentries, rfl⟩ := exists_entries_of_lines hlines fun g hg => by
    obtain ⟨f, hf, rfl⟩ := hfrom g hg
    exact hread f hf
  refine ⟨entries, ?_, ?_, (Except.ok.inj h).symm⟩
  · intro e he
    obtain ⟨g, hg, hof⟩ := exists_of_mem_forall₂ hentries.flip he
    obtain ⟨f, hf, rfl⟩ := hfrom g hg
    exact ⟨f, hf, hof⟩
  · intro f hf
    have hg := hperm.mem_iff.mpr (List.mem_map_of_mem (f := fun f => (f.1, f.2.json)) hf)
    exact exists_of_mem_forall₂ hentries hg

/-! ## Values -/

mutual
/-- Whatever has a text is read as something. -/
theorem exists_readsAs_of_json (v : Value) {text : List Char} (h : v.json = .ok text) :
    ∃ w, ReadsAs text w := by
  match v with
  | .null =>
    cases h
    exact ⟨_, readsAs_name (v := .null) (by simp [names])⟩
  | .bool b =>
    cases h
    refine ⟨.bool b, readsAs_name ?_⟩
    cases b <;> simp [names]
  | .int n =>
    rw [json, jsonInt] at h
    cases hwritten : writeInt? n with
    | none =>
      rw [hwritten] at h
      cases h
    | some s =>
      rw [hwritten] at h
      cases h
      obtain ⟨rfl, hshort⟩ := writeInt?_eq_some hwritten
      exact ⟨_, readsAs_int hshort⟩
  | .float x =>
    cases h
    obtain ⟨y, hy⟩ := exists_read?_text x
    exact ⟨_, readsAs_float hy⟩
  | .decimal _ | .str _ | .date _ | .datetime _ =>
    cases h
    exact ⟨_, readsAs_text _⟩
  | .list items | .tuple items =>
    rw [json] at h
    obtain ⟨texts, htexts, h⟩ := bind_eq_ok.mp h
    obtain ⟨ws, hws⟩ := exists_readsAs_of_jsonItems items htexts
    cases h
    exact ⟨_, readsAs_list hws⟩
  | .map fields =>
    obtain ⟨entries, hfrom, _, rfl⟩ :=
      exists_entries_of_json h fun f hf _ htext => exists_readsAs_of_jsonFields fields f hf htext
    exact ⟨_, readsAs_map fun e he => by
      obtain ⟨f, _, hof⟩ := hfrom e he
      exact hof.value⟩
  | .bytes _ | .set _ | .level _ | .foreign | .uncopyable => cases h

theorem exists_readsAs_of_jsonItems (items : List Value) {texts : List (List Char)}
    (h : jsonItems items = .ok texts) : ∃ ws, List.Forall₂ ReadsAs texts ws := by
  match items with
  | [] =>
    cases h
    exact ⟨[], .nil⟩
  | v :: rest =>
    rw [jsonItems] at h
    obtain ⟨text, htext, h⟩ := bind_eq_ok.mp h
    obtain ⟨others, hothers, h⟩ := bind_eq_ok.mp h
    obtain ⟨w, hw⟩ := exists_readsAs_of_json v htext
    obtain ⟨ws, hws⟩ := exists_readsAs_of_jsonItems rest hothers
    cases h
    exact ⟨w :: ws, .cons hw hws⟩

theorem exists_readsAs_of_jsonFields (fields : List (Value × Value)) :
    ∀ f ∈ fields, ∀ {text : List Char}, f.2.json = .ok text → ∃ w, ReadsAs text w := by
  match fields with
  | [] => exact fun f hf => nomatch hf
  | (k, v) :: rest =>
    intro f hf text htext
    rcases List.mem_cons.mp hf with rfl | hf
    · exact exists_readsAs_of_json v htext
    · exact exists_readsAs_of_jsonFields rest f hf htext
end

/-- A text is read in one way only. -/
theorem ReadsAs.unique {text : List Char} {v w : Value} (hv : ReadsAs text v)
    (hw : ReadsAs text w) : v = w :=
  Option.some.inj (hv.ofJson?.symm.trans hw.ofJson?)

/-! ## Supported values -/

mutual
/-- How values are kept: a map has no key twice, and a floating-point number stands in its one form. -/
def Proper : Value → Prop
  | .float x => x.IsProper
  | .list items => ItemsProper items
  | .map fields => (fields.map (·.1)).Nodup ∧ FieldsProper fields
  | _ => True

def ItemsProper : List Value → Prop
  | [] => True
  | v :: rest => v.Proper ∧ ItemsProper rest

def FieldsProper : List (Value × Value) → Prop
  | [] => True
  | (_, v) :: rest => v.Proper ∧ FieldsProper rest
end

mutual
/-- What has a text and is kept in this way comes back from its text. -/
theorem regular_of_json (v : Value) (hv : v.Proper) {text : List Char} (h : v.json = .ok text) :
    v.Regular := by
  match v with
  | .int n =>
    rw [json, jsonInt] at h
    cases hwritten : writeInt? n with
    | none =>
      rw [hwritten] at h
      cases h
    | some s => exact (writeInt?_eq_some hwritten).2
  | .float x => exact read?_text hv
  | .list items =>
    rw [json] at h
    obtain ⟨_, htexts, _⟩ := bind_eq_ok.mp h
    exact itemsRegular_of_json items hv htexts
  | .map fields =>
    obtain ⟨_, _, hentry, _⟩ :=
      exists_entries_of_json h fun f hf _ htext => exists_readsAs_of_jsonFields fields f hf htext
    refine ⟨hv.1, fieldsRegular_of_json fields hv.2 fun f hf => ?_⟩
    obtain ⟨e, _, hof⟩ := hentry f hf
    exact ⟨e.text, hof.text⟩
  | .null | .bool _ | .decimal _ | .str _ | .date _ | .datetime _
  | .bytes _ | .tuple _ | .set _ | .level _ | .foreign | .uncopyable => exact True.intro

theorem itemsRegular_of_json (items : List Value) (hitems : ItemsProper items)
    {texts : List (List Char)} (h : jsonItems items = .ok texts) : ItemsRegular items := by
  match items with
  | [] => exact True.intro
  | v :: rest =>
    rw [jsonItems] at h
    obtain ⟨_, htext, h⟩ := bind_eq_ok.mp h
    obtain ⟨_, hothers, _⟩ := bind_eq_ok.mp h
    exact ⟨regular_of_json v hitems.1 htext, itemsRegular_of_json rest hitems.2 hothers⟩

theorem fieldsRegular_of_json (fields : List (Value × Value)) (hfields : FieldsProper fields)
    (h : ∀ f ∈ fields, ∃ text, f.2.json = .ok text) : FieldsRegular fields := by
  match fields with
  | [] => exact True.intro
  | (k, v) :: rest =>
    obtain ⟨_, htext⟩ := h (k, v) List.mem_cons_self
    exact ⟨regular_of_json v hfields.1 htext,
      fieldsRegular_of_json rest hfields.2 fun f hf => h f (List.mem_cons_of_mem _ hf)⟩
end

/-- The text of a supported value, wherever it has one, is read as its image. -/
theorem ofJson?_of_json {v : Value} {path : String} (hcheck : v.check path = .ok ()) (hv : v.Proper)
    {text : List Char} (h : v.json = .ok text) : ofJson? text = some v.image := by
  obtain ⟨other, hother, hread⟩ :=
    exists_readsAs v (faithful_of_check hcheck (regular_of_json v hv h))
  rw [h] at hother
  cases hother
  exact hread.ofJson?

/-! ## Fields -/

theorem get?_cons (k v : Value) (rest : Fields) (name : String) :
    get? ((k, v) :: rest) name = if k.isText name then some v else get? rest name := by
  unfold get?
  cases h : k.isText name with
  | true => simp [h]
  | false => simp [h]

theorem isText_iff {k : Value} {name : String} : k.isText name = true ↔ k = .str name := by
  cases k with
  | str s => simp [isText]
  | _ => simp [isText]

theorem get?_putField (key name : String) (v : Value) (fields : Fields) :
    get? (putField key v fields) name = if key = name then some v else get? fields name := by
  induction fields with
  | nil =>
    rw [putField, get?_cons]
    simp [isText]
  | cons f rest ih =>
    obtain ⟨k, w⟩ := f
    rw [putField]
    by_cases hk : k.isText key = true
    · rw [if_pos hk, get?_cons, get?_cons]
      rw [isText_iff] at hk
      rw [hk]
      by_cases hname : key = name
      · simp [isText, hname]
      · simp [isText, hname]
    · rw [if_neg hk, get?_cons, get?_cons, ih]
      by_cases hname : key = name
      · rw [← hname]
        simp [hk]
      · simp [hname]

/-- Entries that agree on the value under a name leave that value there. -/
theorem get?_foldl_put {entries : List Entry} {name : String} {v : Value} {before : Fields}
    (hagree : ∀ e ∈ entries, e.key = name → e.value = v)
    (hsome : get? before name = some v ∨ ∃ e ∈ entries, e.key = name) :
    get? (entries.foldl Entry.put before) name = some v := by
  induction entries generalizing before with
  | nil =>
    rcases hsome with hsome | ⟨e, he, _⟩
    · exact hsome
    · cases he
  | cons e rest ih =>
    refine ih (fun d hd => hagree d (List.mem_cons_of_mem e hd)) ?_
    have hput : get? (e.put before) name = if e.key = name then some e.value else get? before name :=
      get?_putField e.key name e.value before
    by_cases hkey : e.key = name
    · rw [if_pos hkey, hagree e List.mem_cons_self hkey] at hput
      exact Or.inl hput
    · rw [if_neg hkey] at hput
      rcases hsome with hsome | ⟨d, hd, hname⟩
      · exact Or.inl (hput.trans hsome)
      · rcases List.mem_cons.mp hd with rfl | hd
        · exact absurd hname hkey
        · exact Or.inr ⟨d, hd, hname⟩

/-- The JSON text of a key that is no text begins like a number or a name. -/
theorem head_jsonKey {k : Value} {c : Char} {rest : List Char} (h : jsonKey k = .ok (c :: rest))
    (hk : k.isStr = false) : c.isDigit = true ∨ c ∈ ['n', 't', 'f', 'N', 'I', '-'] := by
  cases k with
  | null =>
    cases h
    exact Or.inr (by decide)
  | bool b =>
    cases b <;> cases h <;> exact Or.inr (by decide)
  | int n =>
    rw [jsonKey, jsonInt] at h
    cases hwritten : writeInt? n with
    | none =>
      rw [hwritten] at h
      cases h
    | some s =>
      rw [hwritten] at h
      have hs : s = c :: rest := Except.ok.inj h
      have hdigits := (writeInt?_eq_some hwritten).1
      rw [hs, intDigits] at hdigits
      split at hdigits
      · rw [(List.cons.inj hdigits).1]
        exact Or.inr (by decide)
      · exact Or.inl (isDigit_toDigits (hdigits ▸ List.mem_cons_self))
  | float x =>
    have htext : jsonFloat.text x = c :: rest := Except.ok.inj h
    cases x with
    | nan =>
      cases htext
      exact Or.inr (by decide)
    | infinite negative =>
      cases negative <;> cases htext <;> exact Or.inr (by decide)
    | finite negative m e =>
      obtain ⟨sign, whole, fraction, exponent, hparts, hnumber, _⟩ := exists_numberParts negative m e
      obtain ⟨d, more, hd, hhead⟩ := head_number hnumber
      rw [← hparts, htext] at hhead
      rcases hhead with hhead | hhead
      · rw [(List.cons.inj hhead).1]
        exact Or.inl hd
      · rw [(List.cons.inj hhead).1]
        exact Or.inr (by decide)
  | str s => cases hk
  | _ => cases h

end ConsentGate.Value
