import ConsentGate.Proofs.Value.Image
import ConsentGate.Proofs.Value.JsonTexts

/-! The JSON text of a value is read back as the value's image.

What is read depends on the text alone and not on what follows it, provided that a comma, a closing
bracket or nothing follows: so the texts of items and fields can be read one after another. -/
namespace ConsentGate.Value
open Number Text
set_option autoImplicit false

/-! ## Numbers -/

/-- Nothing, or one of the given characters at the start. -/
def StartsIn (cs rest : List Char) : Prop := ∀ c more, rest = c :: more → c ∈ cs

/-- What may follow a value: nothing, or a character that ends it. -/
def Stops (rest : List Char) : Prop := StartsIn [',', ']', '\x7d'] rest

theorem StartsIn.append {cs rest : List Char} (h : StartsIn cs rest) {part : List Char} {d : Char}
    (hpart : part = [] ∨ ∃ more, part = d :: more) : StartsIn (d :: cs) (part ++ rest) := by
  intro c more hc
  rcases hpart with rfl | ⟨tail, rfl⟩
  · exact List.mem_cons_of_mem d (h c more hc)
  · rw [List.cons_append] at hc
    rw [(List.cons.inj hc).1]
    exact List.mem_cons_self

/-- The digits at the start end where the next character is no digit. -/
theorem leadingDigits_append {ds rest cs : List Char} (hds : ∀ c ∈ ds, c.isDigit = true)
    (hrest : StartsIn cs rest) (hcs : ∀ c ∈ cs, c.isDigit = false) :
    leadingDigits (ds ++ rest) = ds := by
  have hnone : rest.takeWhile isJsonDigit = [] := by
    cases rest with
    | nil => rfl
    | cons c more =>
      have hc : isJsonDigit c = false := hcs c (hrest c more rfl)
      rw [List.takeWhile_cons, hc]
      rfl
  have hall : ∀ c ∈ ds, isJsonDigit c = true := hds
  rw [leadingDigits, List.takeWhile_append_of_pos hall, hnone, List.append_nil]

theorem takeWhole?_append {whole rest cs : List Char} (h : IsWhole whole) (hrest : StartsIn cs rest)
    (hcs : ∀ c ∈ cs, c.isDigit = false) : takeWhole? (whole ++ rest) = some (whole, rest) := by
  obtain ⟨hdigits, d, ds, rfl, hzero⟩ := h
  have hleading := leadingDigits_append hdigits hrest hcs
  by_cases hd : d = '0'
  · rw [hzero hd, hd]
    rfl
  · rw [List.cons_append] at hleading
    rw [List.cons_append, takeWhole?, hleading]
    · simp
    · rintro _ ⟨⟩
      exact hd rfl

theorem takeFraction_append {fraction rest cs : List Char}
    (h : fraction = [] ∨ ∃ ds, fraction = '.' :: ds ∧ IsDigits ds) (hrest : StartsIn cs rest)
    (hcs : ∀ c ∈ cs, c.isDigit = false ∧ c ≠ '.') :
    takeFraction (fraction ++ rest) = (fraction, rest) := by
  rcases h with rfl | ⟨ds, rfl, hne, hdigits⟩
  · cases rest with
    | nil => rfl
    | cons c more =>
      have hc := (hcs c (hrest c more rfl)).2
      rw [List.nil_append, takeFraction]
      rintro _ ⟨⟩
      exact hc rfl
  · have hleading := leadingDigits_append hdigits hrest fun c hc => (hcs c hc).1
    simp only [List.cons_append, takeFraction, hleading, List.drop_left, List.isEmpty_iff, if_neg hne]

theorem takeExponent_append {exponent rest : List Char}
    (h : exponent = [] ∨ ∃ mark ds, exponent = 'e' :: (mark ++ ds) ∧
      (mark = ['+'] ∨ mark = ['-']) ∧ IsDigits ds) (hrest : Stops rest) :
    takeExponent (exponent ++ rest) = (exponent, rest) := by
  rcases h with rfl | ⟨mark, ds, rfl, hmark, hne, hdigits⟩
  · cases rest with
    | nil => rfl
    | cons c more =>
      have hall : ∀ c ∈ [',', ']', '\x7d'], ¬(c = 'e' ∨ c = 'E') := by simp
      simp only [List.nil_append, takeExponent, if_neg (hall c (hrest c more rfl))]
  · have hleading := leadingDigits_append hdigits hrest (by simp)
    rcases hmark with rfl | rfl
    · simp [takeExponent, hleading, hne]
    · simp [takeExponent, hleading, hne]

variable {sign whole fraction exponent rest : List Char}

theorem takeNumber?_append (h : IsNumber sign whole fraction exponent) (hrest : Stops rest) :
    takeNumber? (sign ++ whole ++ fraction ++ exponent ++ rest) =
      if fraction.isEmpty ∧ exponent.isEmpty then
        (readInt? (sign ++ whole)).map fun n => (.int n, rest)
      else (jsonFloat.read? (sign ++ whole ++ fraction ++ exponent)).map fun x =>
        (.float x, rest) := by
  have hexponent := takeExponent_append h.exponent hrest
  have hafter : StartsIn ['e', ',', ']', '\x7d'] (exponent ++ rest) := by
    refine hrest.append ?_
    rcases h.exponent with hnil | ⟨mark, ds, hcons, _⟩
    · exact Or.inl hnil
    · exact Or.inr ⟨_, hcons⟩
  have hfraction := takeFraction_append h.fraction hafter (by simp)
  have hplaces : StartsIn ['.', 'e', ',', ']', '\x7d'] (fraction ++ (exponent ++ rest)) := by
    refine hafter.append ?_
    rcases h.fraction with hnil | ⟨ds, hcons, _⟩
    · exact Or.inl hnil
    · exact Or.inr ⟨_, hcons⟩
  have hwhole := takeWhole?_append h.whole hplaces (by simp)
  have hparts : sign ++ whole ++ fraction ++ exponent ++ rest =
      sign ++ (whole ++ (fraction ++ (exponent ++ rest))) := by simp only [List.append_assoc]
  have hunsigned : ∀ more, whole ++ (fraction ++ (exponent ++ rest)) ≠ '-' :: more := by
    obtain ⟨hdigits, d, ds, hcons, _⟩ := h.whole
    intro more heq
    rw [hcons, List.cons_append] at heq
    have hd := hdigits d (by rw [hcons]; exact List.mem_cons_self)
    rw [(List.cons.inj heq).1] at hd
    exact absurd hd (by decide)
  rw [hparts]
  rcases h.sign with rfl | rfl
  · rw [List.nil_append, takeNumber?]
    · simp only [hwhole, hfraction, hexponent, Option.bind_eq_bind, Option.bind_some,
        Option.map_eq_bind]
      rfl
    · exact fun more heq => hunsigned more heq
  · rw [List.cons_append, List.nil_append, takeNumber?]
    simp only [hwhole, hfraction, hexponent, Option.bind_eq_bind, Option.bind_some,
      Option.map_eq_bind]
    rfl

/-! ## Values without parts -/

/-- `text` begins like a value, and is read as `v` wherever a value ends behind it. -/
structure ReadsAs (text : List Char) (v : Value) : Prop where
  head : ∃ c more, text = c :: more ∧ isJsonBlank c = false ∧ c ≠ ']'
  read : ∀ rest fuel, Stops rest → text.length ≤ fuel →
    takeValue? fuel (text ++ rest) = some (v, rest)

theorem readsAs_text (s : List Char) : ReadsAs (jsonText s) (.str (String.ofList s)) where
  head := ⟨doubleQuote, _, rfl, by decide, by decide⟩
  read := by
    intro rest fuel _ hfuel
    obtain ⟨fuel, rfl⟩ := exists_eq_succ_of_lt hfuel
    have hlength := length_le_flatMap_jsonChar s
    have htext := takeText?_flatMap s rest ((s.flatMap jsonChar ++ doubleQuote :: rest).length + 1)
      (by rw [List.length_append]; omega)
    rw [jsonText, List.cons_append, List.append_assoc, List.cons_append, List.nil_append, takeValue?,
      if_pos rfl, htext, Option.map_some]
    simp only [ofCodes_map_char]

theorem readsAs_name {name : List Char} {v : Value} (h : (name, v) ∈ names) : ReadsAs name v := by
  simp only [names, List.mem_cons, Prod.mk.injEq, List.not_mem_nil, or_false] at h
  rcases h with ⟨rfl, rfl⟩ | ⟨rfl, rfl⟩ | ⟨rfl, rfl⟩ | ⟨rfl, rfl⟩ | ⟨rfl, rfl⟩ | ⟨rfl, rfl⟩
  all_goals
    refine ⟨⟨_, _, rfl, by decide, by decide⟩, ?_⟩
    intro rest fuel _ hfuel
    obtain ⟨fuel, rfl⟩ := exists_eq_succ_of_lt hfuel
    rfl

/-- A number begins with a digit, or with a minus sign and a digit. -/
theorem head_number (h : IsNumber sign whole fraction exponent) :
    ∃ d more, d.isDigit = true ∧ (sign ++ whole ++ fraction ++ exponent = d :: more ∨
      sign ++ whole ++ fraction ++ exponent = '-' :: d :: more) := by
  obtain ⟨hdigits, d, ds, hcons, _⟩ := h.whole
  have hd := hdigits d (by rw [hcons]; exact List.mem_cons_self)
  refine ⟨d, ds ++ fraction ++ exponent, hd, ?_⟩
  rcases h.sign with rfl | rfl
  · exact Or.inl (by simp [hcons])
  · exact Or.inr (by simp [hcons])

theorem ne_of_isDigit {c d : Char} (hd : d.isDigit = true) (hc : c.isDigit = false) : c ≠ d := by
  rintro rfl
  rw [hc] at hd
  cases hd

theorem isJsonBlank_of_isDigit {d : Char} (hd : d.isDigit = true) : isJsonBlank d = false := by
  have hspace := (ne_of_isDigit (c := ' ') hd (by decide)).symm
  have htab := (ne_of_isDigit (c := '\t') hd (by decide)).symm
  have hline := (ne_of_isDigit (c := '\n') hd (by decide)).symm
  have hreturn := (ne_of_isDigit (c := '\r') hd (by decide)).symm
  simp [isJsonBlank, hspace, htab, hline, hreturn]

theorem takeName?_number {d : Char} {more : List Char} (hd : d.isDigit = true) :
    takeName? (d :: more) = none ∧ takeName? ('-' :: d :: more) = none := by
  have hn := ne_of_isDigit (c := 'n') hd (by decide)
  have ht := ne_of_isDigit (c := 't') hd (by decide)
  have hf := ne_of_isDigit (c := 'f') hd (by decide)
  have hN := ne_of_isDigit (c := 'N') hd (by decide)
  have hI := ne_of_isDigit (c := 'I') hd (by decide)
  have hminus := ne_of_isDigit (c := '-') hd (by decide)
  constructor
  · simp [takeName?, names, hn, ht, hf, hN, hI, hminus]
  · simp [takeName?, names, hI]

theorem takeValue?_number {c : Char} {more : List Char} (fuel : Nat)
    (hc : c ∉ [doubleQuote, '[', '\x7b']) (hname : takeName? (c :: more) = none) :
    takeValue? (fuel + 1) (c :: more) = takeNumber? (c :: more) := by
  simp only [List.mem_cons, List.not_mem_nil, or_false, not_or] at hc
  rw [takeValue?, if_neg hc.1, if_neg hc.2.1, if_neg hc.2.2, hname]

theorem readsAs_number {v : Value} (h : IsNumber sign whole fraction exponent)
    (hread : ∀ rest, Stops rest →
      takeNumber? (sign ++ whole ++ fraction ++ exponent ++ rest) = some (v, rest)) :
    ReadsAs (sign ++ whole ++ fraction ++ exponent) v := by
  obtain ⟨d, more, hd, htext⟩ := head_number h
  constructor
  · rcases htext with htext | htext
    · exact ⟨d, more, htext, isJsonBlank_of_isDigit hd, (ne_of_isDigit hd (by decide)).symm⟩
    · exact ⟨'-', d :: more, htext, by decide, by decide⟩
  · intro rest fuel hrest hfuel
    have hnumber := hread rest hrest
    rcases htext with htext | htext
    · rw [htext] at hfuel hnumber ⊢
      obtain ⟨fuel, rfl⟩ := exists_eq_succ_of_lt hfuel
      rw [List.cons_append, takeValue?_number fuel _ (takeName?_number hd).1]
      · exact hnumber
      · intro hmem
        have hall : ∀ c ∈ [doubleQuote, '[', '\x7b'], c.isDigit = false := by simp [doubleQuote]
        rw [hall d hmem] at hd
        cases hd
    · rw [htext] at hfuel hnumber ⊢
      obtain ⟨fuel, rfl⟩ := exists_eq_succ_of_lt hfuel
      rw [List.cons_append, List.cons_append, takeValue?_number fuel (by decide)
        (takeName?_number hd).2]
      exact hnumber

theorem readsAs_int {n : Int} (h : (Nat.toDigits 10 n.natAbs).length ≤ digitLimit) :
    ReadsAs (intDigits n) (.int n) := by
  have hnumber : ∃ sign, intDigits n = sign ++ Nat.toDigits 10 n.natAbs ++ [] ++ [] ∧
      IsNumber sign (Nat.toDigits 10 n.natAbs) [] [] := by
    unfold intDigits
    split
    · exact ⟨['-'], by simp, Or.inr rfl, isWhole_toDigits _, Or.inl rfl, Or.inl rfl⟩
    · exact ⟨[], by simp, Or.inl rfl, isWhole_toDigits _, Or.inl rfl, Or.inl rfl⟩
  obtain ⟨sign, htext, hnumber⟩ := hnumber
  have hint : sign ++ Nat.toDigits 10 n.natAbs = intDigits n := by simp [htext]
  rw [htext]
  refine readsAs_number hnumber fun rest hrest => ?_
  rw [takeNumber?_append hnumber hrest, hint, readInt?_intDigits h]
  rfl

theorem readsAs_float {x y : Binary64} (h : jsonFloat.read? (jsonFloat.text x) = some y) :
    ReadsAs (jsonFloat.text x) (.float y) := by
  cases x with
  | nan =>
    have hy : y = .nan := (Option.some.inj h).symm
    rw [hy]
    exact readsAs_name (by simp [names, jsonFloat, FloatLayout.text])
  | infinite negative =>
    cases negative
    · have hy : y = .infinite false := (Option.some.inj h).symm
      rw [hy]
      exact readsAs_name (by simp [names, jsonFloat, FloatLayout.text])
    · have hy : y = .infinite true := (Option.some.inj h).symm
      rw [hy]
      exact readsAs_name (by simp [names, jsonFloat, FloatLayout.text])
  | finite negative m e =>
    obtain ⟨sign, whole, fraction, exponent, htext, hnumber, hne⟩ := exists_numberParts negative m e
    rw [htext] at h ⊢
    refine readsAs_number hnumber fun rest hrest => ?_
    have hpart : ¬(fraction.isEmpty = true ∧ exponent.isEmpty = true) := by
      rw [List.isEmpty_iff, List.isEmpty_iff]
      rintro ⟨hfraction, hexponent⟩
      exact hne.elim (fun hf => hf hfraction) fun he => he hexponent
    rw [takeNumber?_append hnumber hrest, if_neg hpart, h]
    rfl

/-! ## Lists -/

theorem exists_intercalate_cons (text : List Char) (texts : List (List Char)) :
    ∃ tail, [','].intercalate (text :: texts) = text ++ tail := by
  cases texts with
  | nil => exact ⟨[], by simp⟩
  | cons next texts => exact ⟨_, by rw [List.intercalate_cons_cons, List.append_assoc]⟩

theorem ReadsAs.skipBlanks {text : List Char} {v : Value} (h : ReadsAs text v) (rest : List Char) :
    skipBlanks (text ++ rest) = text ++ rest := by
  obtain ⟨c, more, rfl, hc, _⟩ := h.head
  rw [Value.skipBlanks, List.cons_append, List.dropWhile_cons, hc]
  rfl

theorem ReadsAs.skipBlanks_intercalate {text : List Char} {v : Value} (h : ReadsAs text v)
    (texts : List (List Char)) (rest : List Char) :
    Value.skipBlanks ([','].intercalate (text :: texts) ++ rest) =
      [','].intercalate (text :: texts) ++ rest := by
  obtain ⟨tail, htail⟩ := exists_intercalate_cons text texts
  rw [htail, List.append_assoc, h.skipBlanks]

theorem stops_cons {c : Char} {rest : List Char} (h : c ∈ [',', ']', '\x7d']) : Stops (c :: rest) := by
  rintro d more ⟨⟩
  exact h

/-- Items are read up to the closing bracket; one unit of fuel is needed besides the characters. -/
theorem takeItems?_intercalate {texts : List (List Char)} {items : List Value}
    (h : List.Forall₂ ReadsAs texts items) (hne : texts ≠ []) (rest : List Char) (fuel : Nat)
    (hfuel : ([','].intercalate texts).length < fuel) :
    takeItems? fuel ([','].intercalate texts ++ ']' :: rest) = some (items, rest) := by
  -- Each item takes one unit of fuel, and the comma behind it pays for that.
  induction h generalizing fuel with
  | nil => exact absurd rfl hne
  | @cons text v texts items hv hrest ih =>
    obtain ⟨fuel, rfl⟩ := exists_eq_succ_of_lt hfuel
    cases hrest with
    | nil =>
      rw [List.intercalate_singleton] at hfuel ⊢
      have hvalue := hv.read (']' :: rest) fuel (stops_cons (by decide)) (by omega)
      rw [takeItems?, hvalue]
      rfl
    | @cons next w texts others hw hothers =>
      rw [List.intercalate_cons_cons, List.append_assoc] at hfuel ⊢
      simp only [List.length_append, List.length_cons, List.length_nil] at hfuel
      have hvalue := hv.read (',' :: ([','].intercalate (next :: texts) ++ ']' :: rest)) fuel
        (stops_cons (by decide)) (by omega)
      have hitems := ih (List.cons_ne_nil _ _) fuel (by omega)
      have hcomma : ∀ s, skipBlanks (',' :: s) = ',' :: s := fun s => rfl
      rw [List.append_assoc, List.cons_append, List.nil_append, takeItems?, hvalue]
      simp only [Option.bind_eq_bind, Option.bind_some, hcomma, hw.skipBlanks_intercalate, hitems]
      rfl

theorem readsAs_list {texts : List (List Char)} {items : List Value}
    (h : List.Forall₂ ReadsAs texts items) :
    ReadsAs ('[' :: ([','].intercalate texts ++ [']'])) (.list items) where
  head := ⟨'[', _, rfl, by decide, by decide⟩
  read := by
    intro rest fuel hrest hfuel
    obtain ⟨fuel, rfl⟩ := exists_eq_succ_of_lt hfuel
    rw [List.cons_append, List.append_assoc, List.cons_append, List.nil_append]
    cases h with
    | nil => rfl
    | @cons text v texts items hv hothers =>
      simp only [List.length_append, List.length_cons, List.length_nil] at hfuel
      have hitems := takeItems?_intercalate (.cons hv hothers) (List.cons_ne_nil _ _) rest fuel
        (by omega)
      obtain ⟨c, more, hc, _, hbracket⟩ := hv.head
      obtain ⟨tail, htail⟩ := exists_intercalate_cons text texts
      have hquote : '[' ≠ doubleQuote := by decide
      rw [takeValue?, if_neg hquote, if_pos rfl, hv.skipBlanks_intercalate]
      split
      · rename_i hclose
        rw [htail, hc] at hclose
        exact absurd (List.cons.inj hclose).1 hbracket
      · rw [hitems]
        rfl

/-! ## Maps -/

/-- A field with a text of its value. -/
structure Entry where
  key : String
  text : List Char
  value : Value

def Entry.line (e : Entry) : List Char := jsonText e.key.toList ++ ':' :: e.text

def Entry.field (e : Entry) : Value × Value := (.str e.key, e.value)

/-- The fields after one more has been read. -/
def Entry.put (before : Fields) (e : Entry) : Fields := putField e.key e.value before

theorem putField_of_not_mem {key : String} {v : Value} {fields : Fields}
    (h : Value.str key ∉ fields.map (·.1)) :
    putField key v fields = fields ++ [(.str key, v)] := by
  induction fields with
  | nil => rfl
  | cons f rest ih =>
    obtain ⟨k, w⟩ := f
    rw [List.map_cons, List.mem_cons, not_or] at h
    have hk : k.isText key = false := by
      cases k with
      | str s =>
        refine beq_eq_false_iff_ne.mpr ?_
        rintro rfl
        exact h.1 rfl
      | _ => rfl
    rw [putField, hk, ih h.2]
    rfl

/-- Fields with different keys are read one behind the other. -/
theorem foldl_put_of_nodup {entries : List Entry} {before : Fields}
    (hkeys : ((before ++ entries.map Entry.field).map (·.1)).Nodup) :
    entries.foldl Entry.put before = before ++ entries.map Entry.field := by
  induction entries generalizing before with
  | nil => exact (List.append_nil before).symm
  | cons e others ih =>
    have hkey : Value.str e.key ∉ before.map (·.1) := by
      rw [List.map_append, List.nodup_append] at hkeys
      intro hmem
      exact hkeys.2.2 _ hmem _ List.mem_cons_self rfl
    have hput : Entry.put before e = before ++ [e.field] := putField_of_not_mem hkey
    have hkeys' : ((before ++ [e.field] ++ others.map Entry.field).map (·.1)).Nodup := by
      rw [List.append_assoc]
      exact hkeys
    rw [List.foldl_cons, hput, ih hkeys', List.append_assoc]
    rfl

theorem takeText?_line (e : Entry) (rest : List Char) :
    ∃ more, e.line ++ rest = doubleQuote :: more ∧
      takeText? (more.length + 1) more =
        some (e.key.toList.map .char, ':' :: (e.text ++ rest)) := by
  refine ⟨e.key.toList.flatMap jsonChar ++ doubleQuote :: ':' :: (e.text ++ rest), ?_, ?_⟩
  · rw [Entry.line, jsonText, List.cons_append, List.cons_append, List.append_assoc,
      List.append_assoc]
    rfl
  · have hlength := length_le_flatMap_jsonChar e.key.toList
    exact takeText?_flatMap _ _ _ (by rw [List.length_append]; omega)

theorem takeFields?_line {e : Entry} (h : ReadsAs e.text e.value) (before : Fields)
    {rest : List Char} (hrest : Stops rest) {fuel : Nat} (hfuel : e.text.length ≤ fuel) :
    takeFields? (fuel + 1) (e.line ++ rest) before =
      match skipBlanks rest with
      | ',' :: rest => takeFields? fuel (skipBlanks rest) (e.put before)
      | '\x7d' :: rest => some (e.put before, rest)
      | _ => none := by
  obtain ⟨more, hline, htext⟩ := takeText?_line e rest
  have hcolon : ∀ s, skipBlanks (':' :: s) = ':' :: s := fun s => rfl
  rw [hline, takeFields?, if_pos rfl, htext]
  simp only [Option.bind_eq_bind, Option.bind_some, hcolon, h.skipBlanks, h.read rest fuel hrest hfuel,
    ofCodes_map_char, String.ofList_toList]
  rfl

theorem exists_lines_eq (e : Entry) (others : List Entry) :
    ∃ tail, [','].intercalate ((e :: others).map Entry.line) = doubleQuote :: tail := by
  obtain ⟨tail, htail⟩ := exists_intercalate_cons e.line (others.map Entry.line)
  exact ⟨_, htail⟩

theorem skipBlanks_lines (e : Entry) (others : List Entry) (rest : List Char) :
    skipBlanks ([','].intercalate ((e :: others).map Entry.line) ++ rest) =
      [','].intercalate ((e :: others).map Entry.line) ++ rest := by
  obtain ⟨tail, htail⟩ := exists_lines_eq e others
  rw [htail]
  rfl

/-- Fields are read up to the closing brace, behind those that have been read before. -/
theorem takeFields?_intercalate {entries : List Entry} (h : ∀ e ∈ entries, ReadsAs e.text e.value)
    (hne : entries ≠ []) (before : Fields) (rest : List Char) (fuel : Nat)
    (hfuel : ([','].intercalate (entries.map Entry.line)).length < fuel) :
    takeFields? fuel ([','].intercalate (entries.map Entry.line) ++ '\x7d' :: rest) before =
      some (entries.foldl Entry.put before, rest) := by
  induction entries generalizing before fuel with
  | nil => exact absurd rfl hne
  | cons e others ih =>
    obtain ⟨fuel, rfl⟩ := exists_eq_succ_of_lt hfuel
    have hv := h e List.mem_cons_self
    have hlength : e.text.length ≤ e.line.length := by
      rw [Entry.line, List.length_append, List.length_cons]
      omega
    cases others with
    | nil =>
      rw [List.map_singleton, List.intercalate_singleton] at hfuel
      rw [List.map_singleton, List.intercalate_singleton,
        takeFields?_line hv before (stops_cons (by decide)) (by omega)]
      rfl
    | cons next others =>
      rw [List.map_cons, List.map_cons, List.intercalate_cons_cons, List.append_assoc] at hfuel
      simp only [List.length_append, List.length_cons, List.length_nil] at hfuel
      have hothers := ih (fun e he => h e (List.mem_cons_of_mem _ he)) (List.cons_ne_nil _ _)
        (e.put before) fuel (by rw [List.map_cons]; omega)
      have hcomma : ∀ s, skipBlanks (',' :: s) = ',' :: s := fun s => rfl
      rw [List.map_cons, List.map_cons, List.intercalate_cons_cons, List.append_assoc,
        List.append_assoc, List.cons_append, List.nil_append,
        takeFields?_line hv before (stops_cons (by decide)) (by omega), hcomma]
      show takeFields? fuel (skipBlanks _) _ = _
      rw [← List.map_cons, skipBlanks_lines, hothers]
      rfl

/-- A map is read field by field. -/
theorem readsAs_map {entries : List Entry} (h : ∀ e ∈ entries, ReadsAs e.text e.value) :
    ReadsAs ('\x7b' :: ([','].intercalate (entries.map Entry.line) ++ ['\x7d']))
      (.map (entries.foldl Entry.put [])) where
  head := ⟨'\x7b', _, rfl, by decide, by decide⟩
  read := by
    intro rest fuel hrest hfuel
    obtain ⟨fuel, rfl⟩ := exists_eq_succ_of_lt hfuel
    rw [List.cons_append, List.append_assoc, List.cons_append, List.nil_append]
    cases entries with
    | nil => rfl
    | cons e others =>
      simp only [List.length_append, List.length_cons, List.length_nil] at hfuel
      have hfields := takeFields?_intercalate h (List.cons_ne_nil _ _) [] rest fuel (by omega)
      have hquote : '\x7b' ≠ doubleQuote := by decide
      have hbracket : '\x7b' ≠ '[' := by decide
      obtain ⟨tail, htail⟩ := exists_lines_eq e others
      rw [takeValue?, if_neg hquote, if_neg hbracket, if_pos rfl, skipBlanks_lines]
      split
      · rename_i hclose
        rw [htail] at hclose
        cases hclose
      · rw [hfields]
        rfl

/-! ## All values -/

/-- The entries of a map, in the order in which they are written. -/
theorem exists_entries {fields : Fields}
    (h : ∀ f ∈ fields, f.1.isStr = true ∧ ∃ text, f.2.json = .ok text ∧ ReadsAs text f.2.image) :
    ∃ entries : List Entry, (∀ e ∈ entries, ReadsAs e.text e.value) ∧
      (fields.map fun f => (f.1, f.2.json)) = entries.map (fun e => (.str e.key, .ok e.text)) ∧
      (fields.map fun f => (f.1, f.2.image)) = entries.map Entry.field := by
  induction fields with
  | nil => exact ⟨[], by simp, rfl, rfl⟩
  | cons f rest ih =>
    obtain ⟨entries, hread, htexts, himages⟩ := ih fun g hg => h g (List.mem_cons_of_mem f hg)
    obtain ⟨hkey, text, htext, hvalue⟩ := h f List.mem_cons_self
    refine ⟨⟨f.1.textD, text, f.2.image⟩ :: entries, ?_, ?_, ?_⟩
    · intro e he
      rcases List.mem_cons.mp he with rfl | he
      · exact hvalue
      · exact hread e he
    · rw [List.map_cons, List.map_cons, htexts, htext, ← isStr_textD hkey]
    · rw [List.map_cons, List.map_cons, himages, Entry.field, ← isStr_textD hkey]

theorem json_map_of_entries {fields : Fields} {entries : List Entry}
    (htext : ∀ f ∈ fields, f.1.isStr = true)
    (hentries : ((byKey fields).map fun f => (f.1, f.2.json)) =
      entries.map fun e => (.str e.key, .ok e.text)) :
    (Value.map fields).json = .ok ('\x7b' :: ([','].intercalate (entries.map Entry.line) ++ ['\x7d'])) := by
  have hlines : (entries.map fun e => (Value.str e.key, (.ok e.text : Except Fault (List Char)))).mapM
      (fun field => do
        let key ← jsonKey field.1
        let text ← field.2
        return jsonText key ++ ':' :: text) = .ok (entries.map Entry.line) := by
    rw [List.mapM_map]
    exact List.mapM_pure (m := Except Fault) (f := Entry.line)
  rw [json, jsonObject, sortByKey_jsonFields htext, hentries]
  exact bind_eq_ok.mpr ⟨_, rfl, bind_eq_ok.mpr ⟨_, hlines, rfl⟩⟩

mutual
theorem exists_readsAs (v : Value) (h : v.Faithful) :
    ∃ text, v.json = .ok text ∧ ReadsAs text v.image := by
  match v with
  | .null => exact ⟨_, rfl, readsAs_name (by simp [names, image, written, arranged])⟩
  | .bool b =>
    refine ⟨_, rfl, readsAs_name ?_⟩
    cases b <;> simp [names, image, written, arranged]
  | .int n =>
    obtain ⟨text, htext⟩ := Option.isSome_iff_exists.mp h.writable
    obtain ⟨hdigits, hshort⟩ := writeInt?_eq_some htext
    refine ⟨intDigits n, ?_, readsAs_int hshort⟩
    rw [json, jsonInt, htext, hdigits]
  | .float x => exact ⟨_, rfl, readsAs_float h.regular⟩
  | .decimal d => exact ⟨_, rfl, readsAs_text _⟩
  | .str s =>
    have himage : (Value.str s).image = .str (String.ofList s.toList) := by
      rw [String.ofList_toList]
      rfl
    exact ⟨_, rfl, himage ▸ readsAs_text _⟩
  | .date d => exact ⟨_, rfl, readsAs_text _⟩
  | .datetime t => exact ⟨_, rfl, readsAs_text _⟩
  | .list items =>
    obtain ⟨texts, htexts, hread⟩ := exists_readsAs_items items (faithful_list.mp h)
    refine ⟨_, bind_eq_ok.mpr ⟨texts, htexts, rfl⟩, ?_⟩
    rw [image_list]
    exact readsAs_list hread
  | .map fields =>
    obtain ⟨hkeys, hfaithful⟩ := faithful_map.mp h
    have hfields := exists_readsAs_fields fields fun f hf => (hfaithful f hf).2
    have hsorted : ∀ f ∈ byKey fields, f ∈ fields := fun f hf => (byKey_perm fields).mem_iff.mp hf
    obtain ⟨entries, hread, htexts, himages⟩ := exists_entries fun f hf =>
      ⟨(hfaithful f (hsorted f hf)).1, hfields f (hsorted f hf)⟩
    refine ⟨_, json_map_of_entries (fun f hf => (hfaithful f hf).1) htexts, ?_⟩
    have hnodup : (([] ++ entries.map Entry.field : Fields).map (·.1)).Nodup := by
      rw [List.nil_append, ← himages, List.map_map]
      exact ((byKey_perm fields).map _).nodup_iff.mpr hkeys
    rw [image_map, himages, ← List.nil_append (entries.map Entry.field), ← foldl_put_of_nodup hnodup]
    exact readsAs_map hread
  | .bytes _ | .tuple _ | .set _ | .level _ | .foreign | .uncopyable => cases h.writable

theorem exists_readsAs_items (items : List Value) (h : ∀ v ∈ items, v.Faithful) :
    ∃ texts, jsonItems items = .ok texts ∧ List.Forall₂ ReadsAs texts (items.map image) := by
  match items with
  | [] => exact ⟨[], rfl, .nil⟩
  | v :: rest =>
    obtain ⟨hv, hrest⟩ := List.forall_mem_cons.mp h
    obtain ⟨text, htext, hread⟩ := exists_readsAs v hv
    obtain ⟨texts, htexts, hreads⟩ := exists_readsAs_items rest hrest
    exact ⟨_, bind_eq_ok.mpr ⟨text, htext, bind_eq_ok.mpr ⟨texts, htexts, rfl⟩⟩, .cons hread hreads⟩

theorem exists_readsAs_fields (fields : List (Value × Value)) (h : ∀ f ∈ fields, f.2.Faithful) :
    ∀ f ∈ fields, ∃ text, f.2.json = .ok text ∧ ReadsAs text f.2.image := by
  match fields with
  | [] => exact fun f hf => nomatch hf
  | (k, v) :: rest =>
    obtain ⟨hv, hrest⟩ := List.forall_mem_cons.mp h
    intro f hf
    rcases List.mem_cons.mp hf with rfl | hf
    · exact exists_readsAs v hv
    · exact exists_readsAs_fields rest hrest f hf
end

/-- A text that begins like a value is read as a whole. -/
theorem ReadsAs.ofJson? {text : List Char} {v : Value} (h : ReadsAs text v) :
    ofJson? text = some v := by
  have hblank := h.skipBlanks []
  have hread := h.read [] (2 * text.length + 2) (fun c more hc => nomatch hc) (by omega)
  rw [List.append_nil] at hblank hread
  rw [Value.ofJson?, hblank, hread]
  rfl

/-- The text of a supported value is read back as the value's image, which differs from the value, with
dates, timestamps and decimals as texts, in the order of fields only. Two values have the same text
exactly if they have the same image, and reordering fields at any depth leaves the text as it is.

A text of code points, surrogates among them, has a JSON text too, for characters the same as ever. It is
read back with its pairs joined; so it is read back as it was exactly if it has no pair, and two such texts
have the same JSON text exactly if they are the same once their pairs are joined. -/
theorem json_canonical {v : Value} {path : String} (hv : v.check path = .ok ())
    (hregular : v.Regular) :
    (∃ text, v.json = .ok text ∧ ofJson? text = some v.image) ∧ Reordered v.written v.image ∧
      (∀ (w : Value) (path' : String), w.check path' = .ok () → w.Regular →
        (w.json = v.json ↔ w.image = v.image)) ∧
      (∀ w, Reordered v w → w.json = v.json) ∧
      (∀ s : String, (Value.str s).json = .ok (jsonCodes (s.toList.map .char))) ∧
      (∀ t : List CodePoint, ReadsAsText t (joined t) ∧ (joined t = t ↔ t.IsChain CodePoint.Apart)) ∧
      ∀ t u : List CodePoint, jsonCodes t = jsonCodes u ↔ joined t = joined u := by
  have hv := faithful_of_check hv hregular
  obtain ⟨text, htext, hread⟩ := exists_readsAs v hv
  refine ⟨⟨text, htext, hread.ofJson?⟩, reordered_arranged v.written, ?_, ?_, ?_,
    fun t => ⟨readsAsText_joined t, joined_eq_self_iff⟩, fun _ _ => jsonCodes_eq_iff⟩
  · intro w path' hw hwregular
    have hw := faithful_of_check hw hwregular
    constructor
    · intro hjson
      obtain ⟨other, hother, hreadOther⟩ := exists_readsAs w hw
      have hsame : other = text := by
        rw [hother, htext] at hjson
        exact Except.ok.inj hjson
      have himage := hreadOther.ofJson?
      rw [hsame, hread.ofJson?] at himage
      exact (Option.some.inj himage).symm
    · intro himage
      rw [← json_image w hw, himage, json_image v hv]
  · intro w hreordered
    obtain ⟨hw, himage⟩ := hreordered.image_eq hv
    rw [← json_image w hw, himage, json_image v hv]
  · intro s
    rw [json, jsonCodes_map_char]

/-- Lists of equal items may have different texts, as true counts as one but is written otherwise; and the
two halves of a pair are written, and read, like the character they stand for. -/
theorem json_of_same_items :
    (∀ v ∈ [Value.list [.bool true], .list [.int 1]], v.check "value" = .ok () ∧ v.image = v) ∧
      sameItems [.bool true] [.int 1] = true ∧
      (Value.list [.bool true]).json ≠ (Value.list [.int 1]).json ∧
      [CodePoint.high 61, .low 512] ≠ [.char '😀'] ∧
      jsonCodes [.high 61, .low 512] = jsonCodes [.char '😀'] ∧
      ReadsAsText [.high 61, .low 512] [.char '😀'] := by
  have hpair : CodePoint.pair 61 512 = '😀' := by decide
  have hjoined : joined [.high 61, .low 512] = joined [.char '😀'] := by rw [← hpair]; rfl
  refine ⟨?_, by decide, by decide, by decide, jsonCodes_eq_iff.mpr hjoined,
    hpair ▸ readsAsText_pair 61 512⟩
  intro v hv
  simp only [List.mem_cons, List.not_mem_nil, or_false] at hv
  rcases hv with rfl | rfl <;> exact ⟨rfl, rfl⟩

/-- A map whose keys are out of order, with values that become texts and values that stay. -/
def sampleValue : Value :=
  .map [(.str "when", .date ⟨2024, 3, 14, by decide⟩),
    (.str "notes", .list [.str "café 😀 \"x\"", .null, .float (.finite false 6755399441055744 (-52))]),
    (.str "cost", .map [(.str "unit", .decimal (.finite false 1250 (-2))), (.str "count", .int (-7))])]

theorem json_canonical_sample :
    sampleValue.check "value" = .ok () ∧ sampleValue.Regular ∧
      (∃ text, sampleValue.json = .ok text ∧ ofJson? text = some sampleValue.image) ∧
      Reordered sampleValue.written sampleValue.image ∧
      (∀ (w : Value) (path' : String), w.check path' = .ok () → w.Regular →
        (w.json = sampleValue.json ↔ w.image = sampleValue.image)) ∧
      ∀ w, Reordered sampleValue w → w.json = sampleValue.json := by
  have hcheck : sampleValue.check "value" = .ok () := rfl
  have hfloat : jsonFloat.read? (jsonFloat.text (.finite false 6755399441055744 (-52))) =
      some (.finite false 6755399441055744 (-52)) := by decide +kernel
  have hint : (Nat.toDigits 10 7).length ≤ digitLimit := by decide
  have hregular : sampleValue.Regular := by
    simp [sampleValue, Regular, ItemsRegular, FieldsRegular, hfloat, hint]
  obtain ⟨hread, hwritten, hsame, hreordered, _⟩ := json_canonical hcheck hregular
  exact ⟨hcheck, hregular, hread, hwritten, hsame, hreordered⟩

end ConsentGate.Value
