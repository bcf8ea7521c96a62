import ConsentGate.Consent.Record
import ConsentGate.Proofs.Number.Whole
import ConsentGate.Proofs.Text.Spelling
import ConsentGate.Proofs.Value.Texts

/-! Which values name a level.

The names of the levels are plain words, and no two are spelled alike, so a text names a level exactly if it
spells the name of it, and it names one level at most (`levelOfText?_eq_some_iff`). Nothing but a text
names a level (`parseLevel_eq_ok_iff`). What names none is refused with a message that shows it
(`parseLevel_of_unnamed`), if it can be shown: an integer of too many digits cannot
(`parseLevel_of_long`). -/
namespace ConsentGate.Consent
open Number Text
set_option autoImplicit false

/-! ## Names -/

theorem isPlainWord_name (l : Level) : IsPlainWord l.name.toList := by
  have hall : (l.name.toList.all fun c => c.isAlpha && c.toLower != 'k') = true := by
    cases l <;> decide
  simpa [IsPlainWord] using hall

theorem mem_levels (l : Level) : l ∈ Level.all := by cases l <;> decide

/-- No two levels have the same name, whatever the case. -/
theorem eq_of_lower_name {l l' : Level} (h : lower l.name.toList = lower l'.name.toList) : l = l' := by
  rw [lower_eq_lower_iff (isPlainWord_name l')] at h
  revert h
  cases l <;> cases l' <;> decide

/-- One character that is neither of the kind that may stand around a name nor an ASCII letter is enough to
keep a text from spelling it. -/
theorem not_spells_name {around : Char → Bool} {s : List Char} {c : Char} (hc : c ∈ s)
    (hother : (around c || c.isAlpha) = false) (l : Level) : ¬Spells around l.name.toList s := by
  intro h
  have hmem := h.around_or_isAlpha (isPlainWord_name l) hc
  rw [← Bool.or_eq_true, hother] at hmem
  cases hmem

theorem levelOfText?_eq_some_iff {s : List Char} {l : Level} :
    levelOfText? s = some l ↔ Spells isBlank l.name.toList s := by
  rw [← lower_trim_eq_iff (isPlainWord_name l)]
  unfold levelOfText?
  constructor
  · intro h
    have hsame := List.find?_some h
    exact (eq_of_beq hsame).symm
  · intro h
    cases hfind : Level.all.find? fun l => lower l.name.toList == lower (trim s) with
    | none =>
      have hother := List.find?_eq_none.mp hfind l (mem_levels l)
      rw [h, beq_self_eq_true] at hother
      exact absurd rfl hother
    | some l' =>
      have hsame := List.find?_some hfind
      exact congrArg some (eq_of_lower_name ((eq_of_beq hsame).trans h))

/-! ## Values -/

/-- The refusal of a value that names no level, with the text by which the value is shown. -/
def noLevel (text : List Char) : Fault :=
  invalid ("scrubbing level must be Strict, Moderate, or Minimal (got " ++ String.ofList text ++ ")")

/-- The value is a text that spells the name of the level. -/
def Names (v : Value) (l : Level) : Prop := ∃ s, v = .str s ∧ Spells isPadding l.name.toList s.toList

variable {v : Value} {l : Level}

theorem names_iff : Names v l ↔ v.str?.bind (fun s => levelOfText? s.toList) = some l := by
  simp only [Names, Option.bind_eq_some_iff, Value.str?_eq_some, levelOfText?_eq_some_iff,
    isBlank_eq_isPadding]

theorem Names.unique {l' : Level} (h : Names v l) (h' : Names v l') : l = l' :=
  Option.some.inj ((names_iff.mp h).symm.trans (names_iff.mp h'))

theorem parseLevel_eq_ok_iff : parseLevel v = .ok l ↔ Names v l := by
  rw [names_iff, parseLevel]
  cases v.str?.bind fun s => levelOfText? s.toList with
  | some l' => simp
  | none =>
    refine ⟨fun h => ?_, nofun⟩
    obtain ⟨text, -, h⟩ := bind_eq_ok.mp h
    cases h

theorem parseLevel_of_unnamed (h : ∀ l, ¬Names v l) :
    parseLevel v = v.shown.bind fun text => .error (noLevel text) := by
  have hnone : v.str?.bind (fun s => levelOfText? s.toList) = none :=
    Option.eq_none_iff_forall_ne_some.mpr fun l hl => h l (names_iff.mpr hl)
  rw [parseLevel, hnone]
  rfl

/-- A text can be shown, so what cannot is none. -/
theorem parseLevel_of_long (h : v.isShort = false) : parseLevel v = .error .wrongValue := by
  rw [parseLevel_of_unnamed, Value.shown_of_long v h]
  · rfl
  · rintro l ⟨s, rfl, -⟩
    cases h

/-- What is refused is shown in the message, unless it cannot be shown. -/
theorem parseLevel_eq_error {f : Fault} (h : parseLevel v = .error f) :
    (∃ text, f = noLevel text) ∨ v.isShort = false := by
  have hunnamed : ∀ l, ¬Names v l := by
    intro l hl
    rw [parseLevel_eq_ok_iff.mpr hl] at h
    cases h
  rw [parseLevel_of_unnamed hunnamed] at h
  cases hshort : v.isShort with
  | false => exact Or.inr rfl
  | true =>
    obtain ⟨text, htext⟩ := Value.exists_shown v hshort
    rw [htext] at h
    exact Or.inl ⟨text, (Except.error.inj h).symm⟩

theorem isShort_tenPow {k : ℕ} (h : digitLimit ≤ k) : (Value.int (10 ^ k : ℕ)).isShort = false :=
  decide_eq_false (Nat.not_le.mpr (h.trans_lt (lt_length_toDigits k)))

/-! ## All values -/

/-- A value is read as a level exactly if it is a text that spells the name of the level, in any case of its
ASCII letters, with nothing but padding around it. Then no other character stands in the text, and it names
no other level. Every other value is refused as an invalid record, with a message that shows it, if all
integers in it are short enough to be shown. -/
theorem parseLevel_grammar (v : Value) :
    (∀ l, parseLevel v = .ok l ↔ Names v l) ∧
    (∀ s l, parseLevel (.str s) = .ok l → ∀ c ∈ s.toList, isPadding c = true ∨ c.isAlpha = true) ∧
    (∀ l l', Names v l → Names v l' → l = l') ∧
    ((∀ l, ¬Names v l) → v.isShort = true →
      ∃ text, v.shown = .ok text ∧ parseLevel v = .error (noLevel text)) := by
  refine ⟨fun l => parseLevel_eq_ok_iff, ?_, fun l l' => Names.unique, ?_⟩
  · intro s l h c hc
    obtain ⟨s', hs, hspells⟩ := parseLevel_eq_ok_iff.mp h
    rw [Value.str.inj hs] at hc
    exact hspells.around_or_isAlpha (isPlainWord_name l) hc
  · intro hunnamed hshort
    obtain ⟨text, htext⟩ := Value.exists_shown v hshort
    refine ⟨text, htext, ?_⟩
    rw [parseLevel_of_unnamed hunnamed, htext]
    rfl

/-- A name with blanks around it is read; one with a letter that is not of ASCII is shown in a message. -/
theorem parseLevel_grammar_sample :
    parseLevel (.str " MINIMAL\n") = .ok .minimal ∧
      ∃ text, (Value.str "MİNIMAL").shown = .ok text ∧
        parseLevel (.str "MİNIMAL") = .error (noLevel text) := by
  have hpadded : Spells isPadding Level.minimal.name.toList " MINIMAL\n".toList :=
    @Spells.padded isPadding _ [' '] "MINIMAL".toList ['\n']
      (List.forall_mem_singleton.mpr rfl) (by decide) (List.forall_mem_singleton.mpr rfl)
  have hunnamed : ∀ l, ¬Names (.str "MİNIMAL") l := by
    rintro l ⟨s, hs, hspells⟩
    obtain rfl := Value.str.inj hs
    exact not_spells_name (c := 'İ') (by decide) (by decide) l hspells
  exact ⟨((parseLevel_grammar _).1 _).mpr ⟨_, rfl, hpadded⟩,
    (parseLevel_grammar _).2.2.2 hunnamed rfl⟩

/-- A separator that is no white space is trimmed off as well, and an integer of too many digits is refused
without a message. -/
theorem parseLevel_beyond_white_space :
    parseLevel (.str "\x1fSTRICT") = .ok .strict ∧
      (∀ l : Level, ¬Spells isWhiteSpace l.name.toList "\x1fSTRICT".toList) ∧
      parseLevel (.int (10 ^ 4300 : ℕ)) = .error .wrongValue := by
  have hpadded : Spells isPadding Level.strict.name.toList "\x1fSTRICT".toList :=
    @Spells.padded isPadding _ ['\x1f'] "STRICT".toList []
      (List.forall_mem_singleton.mpr rfl) (by decide) (List.forall_mem_nil _)
  exact ⟨parseLevel_eq_ok_iff.mpr ⟨_, rfl, hpadded⟩,
    not_spells_name (c := '\x1f') (by decide) (by decide),
    parseLevel_of_long (isShort_tenPow (Nat.le_refl digitLimit))⟩

end ConsentGate.Consent
