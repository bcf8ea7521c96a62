import ConsentGate.Field.Rules
import ConsentGate.Proofs.Field.NormalForm

/-! What the case of its letters does to a key.

Case tells where words begin, and nothing else: two keys that differ only in the case of ASCII letters have
normal forms with the same characters in the same order, apart from underscores
(`filter_normalize`). They have the same normal form exactly if words begin at the same places, and only
then are they of the same category whatever the tables are (`classify_eq_iff_wordStarts`). A capital inside
a word may therefore hide it from the tables (`category_of_split_password`). -/
namespace ConsentGate.Field
open Text
set_option autoImplicit false

/-! ## Where words begin -/

/-- For each of the characters behind the given one, whether it is a capital at which a word begins. -/
def wordStartsAfter : (before : Char) → List Char → List Bool
  | _, [] => []
  | before, c :: rest => (isCapital c && beginsWord before rest.head?) :: wordStartsAfter c rest

/-- For each character of a key, whether it is a capital at which a word begins. -/
def wordStarts (key : List Char) : List Bool := wordStartsAfter ' ' key

theorem isAlnum_toLower (c : Char) : isAlnum c.toLower = isAlnum c := apply_toLower (by decide) c

/-- A word begins at a letter behind a letter or a digit only. -/
theorem isAlnum_of_begins {before c : Char} {after : Option Char}
    (h : (isCapital c && beginsWord before after) = true) :
    isAlnum before = true ∧ isAlnum c = true := by
  obtain ⟨hc, hbegins⟩ := Bool.and_eq_true_iff.mp h
  refine ⟨?_, isAlnum_of_isCapital hc⟩
  cases hbefore : isAlnum before with
  | true => rfl
  | false =>
    rw [beginsWord_of_not_isAlnum hbefore] at hbegins
    cases hbegins

/-- Two keys that differ in case only are split into the same texts, but for case, if words begin at the
same places. -/
theorem map_splitAfter_congr {s s' : List Char} (h : s.map Char.toLower = s'.map Char.toLower)
    {before before' : Char} (hstarts : wordStartsAfter before s = wordStartsAfter before' s') :
    (splitAfter before s).map Char.toLower = (splitAfter before' s').map Char.toLower := by
  induction s generalizing s' before before' with
  | nil =>
    cases s' with
    | nil => rfl
    | cons c' s' => cases h
  | cons c s ih =>
    cases s' with
    | nil => cases h
    | cons c' s' =>
      obtain ⟨hc, hs⟩ := List.cons.inj h
      obtain ⟨hstart, hstarts⟩ := List.cons.inj hstarts
      rw [splitAfter, splitAfter, List.map_append, List.map_append, ih hs hstarts, hstart]
      split
      · simp [hc]
      · simp [hc]

/-! ## Lower case of a split text -/

theorem not_sigma_of_isAlnum {c : Char} (h : isAlnum c = true) : c.toNat ≠ 931 := by
  have hascii := toNat_lt_of_isAlnum h
  omega

theorem lowerAt_of_isAlnum {c : Char} (h : isAlnum c = true) (behind ahead : Bool) :
    lowerAt behind c ahead = [c.toLower] := by
  rw [lowerAt, if_neg (not_sigma_of_isAlnum h), lowerChar_eq_toLower (Or.inl (toNat_lt_of_isAlnum h))]

theorem not_isCaseIgnorable_of_isAlnum {c : Char} (h : isAlnum c = true) :
    isCaseIgnorable c = false := by
  simpa using of_isAlnum (p := fun c => !isCaseIgnorable c) (fun _ => id) (by decide) h

/-- Behind what is no letter or digit of ASCII, splitting does not change whether a cased character
follows. -/
theorem casedAhead_splitWords (s : List Char) : casedAhead (splitWords s) = casedAhead s := by
  induction s with
  | nil => rfl
  | cons c s ih =>
    rw [splitWords, casedAhead, casedAhead]
    split
    · rename_i hignorable
      have hc : isAlnum c = false := by
        cases hc : isAlnum c with
        | false => rfl
        | true => rw [not_isCaseIgnorable_of_isAlnum hc] at hignorable; cases hignorable
      rw [splitAfter_of_not_isAlnum hc, ih]
    · rfl

/-- Splitting and lowering a text puts an underscore before the character if a word begins there, and
lowers it as in the text that is not split. -/
theorem lowerAfter_splitAfter_cons (behind : Bool) (before c : Char) (s : List Char) :
    lowerAfter behind (splitAfter before (c :: s)) =
      (if isCapital c && beginsWord before s.head? then ['_'] else []) ++
        (lowerAt behind c (casedAhead s) ++
          lowerAfter (casedBehind behind c) (splitAfter c s)) := by
  rw [splitAfter]
  cases hstart : isCapital c && beginsWord before s.head? with
  | false =>
    rw [if_neg Bool.false_ne_true, if_neg Bool.false_ne_true, List.singleton_append, lowerAfter_cons,
      List.nil_append]
    -- Only for a sigma it matters what follows, and behind a sigma no word begins.
    cases hc : isAlnum c with
    | true => rw [lowerAt_of_isAlnum hc, lowerAt_of_isAlnum hc]
    | false => rw [splitAfter_of_not_isAlnum hc, casedAhead_splitWords]
  | true =>
    have hc := (isAlnum_of_begins hstart).2
    have hunderscore : ∀ t, lowerAfter behind ('_' :: t) = '_' :: lowerAfter false t := fun _ => rfl
    rw [if_pos rfl, if_pos rfl, List.cons_append, List.singleton_append, hunderscore, lowerAfter_cons,
      lowerAt_of_isAlnum hc, lowerAt_of_isAlnum hc, casedBehind, casedBehind,
      not_isCaseIgnorable_of_isAlnum hc]
    rfl

/-! ## What splitting adds -/

theorem filter_joinWords (started pending : Bool) (s : List Char) :
    (joinWords started pending s).filter (!isSeparator ·) = s.filter (!isSeparator ·) := by
  induction s generalizing started pending with
  | nil => rfl
  | cons c s ih =>
    rw [joinWords]
    cases hc : isSeparator c with
    | true => rw [if_pos rfl, ih, List.filter_cons_of_neg (by simp [hc])]
    | false =>
      have hunderscore : isSeparator '_' = true := by decide
      rw [if_neg Bool.false_ne_true, List.filter_append, ih]
      cases started && pending <;> simp [hc, hunderscore]

theorem filter_lowerAfter_splitAfter (behind : Bool) (before : Char) (s : List Char) :
    (lowerAfter behind (splitAfter before s)).filter (!isSeparator ·) =
      (lowerAfter behind s).filter (!isSeparator ·) := by
  induction s generalizing behind before with
  | nil => rfl
  | cons c s ih =>
    have hunderscore : isSeparator '_' = true := by decide
    rw [lowerAfter_splitAfter_cons, lowerAfter_cons, List.filter_append, List.filter_append, ih,
      List.filter_append]
    cases isCapital c && beginsWord before s.head? <;> simp [hunderscore]

/-- The normal form of a key has the characters of the key in lower case, in the same order, apart from
separators. -/
theorem filter_normalize (key : List Char) :
    (normalize key).filter (!isSeparator ·) = (lower key).filter (!isSeparator ·) := by
  have hsplit : splitAfter ' ' key = splitWords key := splitAfter_of_not_isAlnum (by decide) key
  rw [normalize_eq, filter_joinWords, ← hsplit]
  exact filter_lowerAfter_splitAfter false ' ' key

/-! ## What joining keeps -/

/-- What joining knows of the characters it has read: whether a word has begun, and whether separators
were skipped since. -/
def joinStep (state : Bool × Bool) (c : Char) : Bool × Bool :=
  if isSeparator c then (state.1, true) else (true, false)

/-- The first part of a text is joined on its own; the rest is joined from the state behind it. -/
theorem joinWords_append (s : List Char) (state : Bool × Bool) : ∃ out, ∀ rest,
    joinWords state.1 state.2 (s ++ rest) =
      out ++ joinWords (s.foldl joinStep state).1 (s.foldl joinStep state).2 rest := by
  induction s generalizing state with
  | nil => exact ⟨[], fun _ => rfl⟩
  | cons c s ih =>
    obtain ⟨out, hout⟩ := ih (joinStep state c)
    cases hc : isSeparator c with
    | true =>
      refine ⟨out, fun rest => ?_⟩
      rw [List.cons_append, joinWords_cons_of_isSeparator hc, List.foldl_cons, ← hout, joinStep, if_pos hc]
    | false =>
      refine ⟨(if state.1 && state.2 then ['_', c] else [c]) ++ out, fun rest => ?_⟩
      rw [List.cons_append, joinWords_cons_of_not_isSeparator hc, List.foldl_cons, List.append_assoc,
        ← hout, joinStep, if_neg (Bool.eq_false_iff.mp hc)]

/-- Within a word, the next character shows whether a word begins at it. -/
theorem head_joinWords {c : Char} (hc : isSeparator c = false) (begins : Bool) (s : List Char) :
    (joinWords true false ((if begins then ['_'] else []) ++ c :: s)).head? =
      some (if begins then '_' else c) := by
  cases begins with
  | false =>
    rw [if_neg Bool.false_ne_true, List.nil_append, joinWords_cons_of_not_isSeparator hc]
    rfl
  | true =>
    rw [if_pos rfl, List.singleton_append, joinWords_cons_of_isSeparator (by decide),
      joinWords_cons_of_not_isSeparator hc]
    rfl

/-- The joined text tells whether a word begins at its first character. Behind a letter or a digit, joining
is within a word. -/
theorem begins_eq_of_joinWords {before before' c c' : Char} {after after' : Option Char}
    (hbefore : before.toLower = before'.toLower) (hc : c.toLower = c'.toLower)
    {state : Bool × Bool} (hstate : isAlnum before = true → state = (true, false))
    {behind ahead : Bool} {rest rest' : List Char}
    (hjoin : joinWords state.1 state.2 ((if isCapital c && beginsWord before after then ['_'] else []) ++
        (lowerAt behind c ahead ++ rest)) =
      joinWords state.1 state.2 ((if isCapital c' && beginsWord before' after' then ['_'] else []) ++
        (lowerAt behind c ahead ++ rest'))) :
    (isCapital c && beginsWord before after) = (isCapital c' && beginsWord before' after') := by
  by_cases halnum : isAlnum before = true ∧ isAlnum c = true
  · obtain ⟨hb, hca⟩ := halnum
    have hsep : isSeparator c.toLower = false :=
      not_isSeparator_of_isAlnum ((isAlnum_toLower c).trans hca)
    have hne : c.toLower ≠ '_' := by
      intro heq
      rw [heq] at hsep
      cases hsep
    rw [hstate hb, lowerAt_of_isAlnum hca, List.singleton_append] at hjoin
    have hhead := congrArg List.head? hjoin
    rw [List.singleton_append, head_joinWords hsep, head_joinWords hsep] at hhead
    revert hhead
    cases isCapital c && beginsWord before after <;>
      cases isCapital c' && beginsWord before' after' <;> simp [hne, Ne.symm hne]
  · -- No word begins where one of the two is no letter or digit, in whichever case.
    have hfirst : (isCapital c && beginsWord before after) = false :=
      Bool.eq_false_iff.mpr fun hbegins => halnum (isAlnum_of_begins hbegins)
    have hsecond : (isCapital c' && beginsWord before' after') = false := by
      refine Bool.eq_false_iff.mpr fun hbegins => halnum ?_
      obtain ⟨hb, hca⟩ := isAlnum_of_begins hbegins
      rw [← isAlnum_toLower, hbefore, isAlnum_toLower, ← isAlnum_toLower c, hc, isAlnum_toLower]
      exact ⟨hb, hca⟩
    rw [hfirst, hsecond]

/-- The joined text tells where words begin. -/
theorem wordStartsAfter_eq_of_joinWords {s s' : List Char}
    (h : s.map Char.toLower = s'.map Char.toLower) {before before' : Char}
    (hbefore : before.toLower = before'.toLower) {state : Bool × Bool} {behind : Bool}
    (hstate : isAlnum before = true → state = (true, false))
    (hjoin : joinWords state.1 state.2 (lowerAfter behind (splitAfter before s)) =
      joinWords state.1 state.2 (lowerAfter behind (splitAfter before' s'))) :
    wordStartsAfter before s = wordStartsAfter before' s' := by
  induction s generalizing s' before before' state behind with
  | nil =>
    cases s' with
    | nil => rfl
    | cons c' s' => cases h
  | cons c s ih =>
    cases s' with
    | nil => cases h
    | cons c' s' =>
      obtain ⟨hc, hs⟩ := List.cons.inj h
      have hat : ∀ ahead, lowerAt behind c' ahead = lowerAt behind c ahead := fun ahead => by
        rw [← lowerAt_toLower, ← hc, lowerAt_toLower]
      have hbehind : casedBehind behind c' = casedBehind behind c := by
        rw [← casedBehind_toLower, ← hc, casedBehind_toLower]
      have hahead : casedAhead s' = casedAhead s := by
        rw [← casedAhead_map_toLower, ← hs, casedAhead_map_toLower]
      rw [lowerAfter_splitAfter_cons, lowerAfter_splitAfter_cons, hat, hbehind, hahead] at hjoin
      have hstart := begins_eq_of_joinWords hbefore hc hstate hjoin
      rw [wordStartsAfter, wordStartsAfter, hstart]
      refine congrArg (_ :: ·) ?_
      -- Both keys come to the same text up to here, so the rest is joined from the same state.
      rw [hstart, ← List.append_assoc, ← List.append_assoc] at hjoin
      obtain ⟨out, hout⟩ := joinWords_append
        ((if isCapital c' && beginsWord before' s'.head? then ['_'] else []) ++
          lowerAt behind c (casedAhead s)) state
      rw [hout, hout] at hjoin
      refine ih hs hc (fun hca => ?_) (List.append_cancel_left hjoin)
      have hsep : isSeparator c.toLower = false :=
        not_isSeparator_of_isAlnum ((isAlnum_toLower c).trans hca)
      rw [List.foldl_append, lowerAt_of_isAlnum hca, List.foldl_cons, List.foldl_nil, joinStep,
        if_neg (Bool.eq_false_iff.mp hsep)]

/-! ## Keys that differ in case -/

variable {key key' : List Char}

theorem normalize_eq_iff_wordStarts (h : key.map Char.toLower = key'.map Char.toLower) :
    normalize key = normalize key' ↔ wordStarts key = wordStarts key' := by
  have hsplit : ∀ key, normalize key = joinWords false false (lower (splitAfter ' ' key)) := by
    intro key
    rw [normalize_eq, splitAfter_of_not_isAlnum (by decide)]
  rw [hsplit, hsplit]
  constructor
  · intro hjoin
    have hblank : isAlnum ' ' = true → (false, false) = (true, false) := by decide
    exact wordStartsAfter_eq_of_joinWords h rfl hblank hjoin
  · intro hstarts
    rw [← lower_map_toLower, map_splitAfter_congr h hstarts, lower_map_toLower]

/-- Tables that remove a key and know nothing else. -/
def tablesFor (key : List Char) : Tables := ⟨[String.ofList key], [], [], [], [], [], ""⟩

theorem classify_tablesFor :
    (tablesFor key).rules.classify key' = .alwaysRemove ↔ normalize key' = normalize key := by
  have hcategory : (tablesFor key).rules.classify key' =
      if [normalize key].contains (normalize key') then .alwaysRemove else .none := by
    simp only [tablesFor, Tables.rules, Rules.classify, Rules.categoryOf, matchesOne, containsPart,
      List.map_cons, List.map_nil, List.any_nil, List.find?_nil, String.toList_ofList,
      Bool.false_eq_true, if_false]
  rw [hcategory]
  by_cases hsame : normalize key' = normalize key
  · simp [hsame]
  · simp [hsame]

/-- Two keys that differ only in the case of ASCII letters are of the same category under all tables
exactly if words begin at the same places in both; then they have the same normal form. In any case their
normal forms differ in underscores only. -/
theorem classify_eq_iff_wordStarts (h : key.map Char.toLower = key'.map Char.toLower) :
    ((∀ t : Tables, t.rules.classify key = t.rules.classify key') ↔
      wordStarts key = wordStarts key') ∧
    (wordStarts key = wordStarts key' → standardRules.classify key = standardRules.classify key') ∧
    (normalize key = normalize key' ↔ wordStarts key = wordStarts key') ∧
    (normalize key).filter (!isSeparator ·) = (normalize key').filter (!isSeparator ·) := by
  have hnormal := normalize_eq_iff_wordStarts h
  have hall : wordStarts key = wordStarts key' →
      ∀ r : Rules, r.classify key = r.classify key' :=
    fun hstarts r => congrArg r.categoryOf (hnormal.mpr hstarts)
  refine ⟨⟨fun hsame => ?_, fun hstarts t => hall hstarts t.rules⟩,
    fun hstarts => hall hstarts standardRules, hnormal, ?_⟩
  · have hkey : (tablesFor key).rules.classify key = .alwaysRemove := classify_tablesFor.mpr rfl
    rw [hsame] at hkey
    exact hnormal.mp (classify_tablesFor.mp hkey).symm
  · rw [filter_normalize, filter_normalize, ← lower_map_toLower, h, lower_map_toLower]

theorem classify_eq_iff_wordStarts_sample :
    "TAX_ID".toList.map Char.toLower = "Tax_Id".toList.map Char.toLower ∧
      standardRules.classify "TAX_ID".toList = standardRules.classify "Tax_Id".toList :=
  ⟨by decide, (classify_eq_iff_wordStarts (by decide)).2.1 (by decide)⟩

/-- A password is removed always, but it is an ordinary field if a capital stands in the middle of its
name, though the keys differ in the case of ASCII letters only. -/
theorem category_of_split_password :
    "password".toList.map Char.toLower = "PassWord".toList.map Char.toLower ∧
      standardRules.classify "password".toList = .alwaysRemove ∧
      standardRules.classify "PassWord".toList = .none := by
  decide +kernel

end ConsentGate.Field
