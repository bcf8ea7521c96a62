import ConsentGate.Proofs.Text.Lowered

/-! Words that are recognised in any case and with blanks around them.

A text spells a word if it is the word in any case of its ASCII letters with padding around it (`Spells`).
Comparing the two in lower case, once the text is trimmed, finds that out (`lower_trim_eq_iff`). Lower
case knows every script, though, and two characters outside ASCII have an ASCII letter in it: the dotted
capital I, which brings a mark along that is no letter, and the Kelvin sign, which becomes a k
(`toNat_lt_of_isAlpha_shiftCase`). So the word must be made of ASCII letters other than k, and then no
other character is taken for one of them (`lower_eq_lower_iff`).

What is trimmed off is white space, and the four separators of information besides
(`isBlank_eq_isPadding`). -/
namespace ConsentGate.Text
set_option autoImplicit false

/-! ## White space -/

/-- The code points with the property White_Space. -/
def whiteSpaceRanges : CodeRanges :=
  [(9, 13), (32, 32), (133, 133), (160, 160), (5760, 5760), (8192, 8202), (8232, 8233), (8239, 8239),
   (8287, 8287), (12288, 12288)]

def isWhiteSpace (c : Char) : Bool := whiteSpaceRanges.has c.toNat

/-- White space, or a separator of files, groups, records or units. -/
def isPadding (c : Char) : Bool := isWhiteSpace c || (28 ≤ c.toNat && c.toNat ≤ 31)

theorem CodeRanges.has_of_behind {lo hi n : Nat} (hlo : lo ≤ n) (hhi : hi < n) (rest : CodeRanges) :
    CodeRanges.has ((lo, hi) :: rest) n = rest.has n := by
  rw [has, if_neg (Nat.not_lt.mpr hlo), if_neg (Nat.not_le.mpr hhi)]

theorem isBlank_eq_isPadding : isBlank = isPadding := by
  funext c
  by_cases hc : c.toNat < 128
  · exact eq_of_beq (of_ascii (p := fun c => isBlank c == isPadding c) (by decide) hc)
  · -- Beyond ASCII the two tables have the same ranges.
    have hseparator : (decide (28 ≤ c.toNat) && decide (c.toNat ≤ 31)) = false := by simp; omega
    rw [isPadding, hseparator, Bool.or_false, isBlank, isWhiteSpace, blankRanges, whiteSpaceRanges]
    simp only [CodeRanges.has_of_behind (by omega : 9 ≤ c.toNat) (by omega : 13 < c.toNat),
      CodeRanges.has_of_behind (by omega : 28 ≤ c.toNat) (by omega : 32 < c.toNat),
      CodeRanges.has_of_behind (by omega : 32 ≤ c.toNat) (by omega : 32 < c.toNat)]

/-! ## Letters -/

theorem isAlpha_toLower (c : Char) : c.toLower.isAlpha = c.isAlpha := apply_toLower (by decide) c

theorem toNat_lt_of_isAlpha {c : Char} (h : c.isAlpha = true) : c.toNat < 128 := by
  rcases Bool.or_eq_true_iff.mp h with hupper | hlower
  · have hbounds : c.val ≥ 'A'.val ∧ c.val ≤ 'Z'.val := of_decide_eq_true hupper
    exact Nat.lt_of_le_of_lt (UInt32.le_iff_toNat_le.mp hbounds.2) (by decide)
  · have hz : c.val ≤ 'z'.val := of_decide_eq_true (Bool.and_eq_true_iff.mp hlower).2
    exact Nat.lt_of_le_of_lt (UInt32.le_iff_toNat_le.mp hz) (by decide)

theorem not_isBlank_of_isAlpha {c : Char} (h : c.isAlpha = true) : isBlank c = false := by
  simpa [h] using of_ascii (p := fun c => !c.isAlpha || !isBlank c) (by decide) (toNat_lt_of_isAlpha h)

/-- Letters of the same word in different case are letters both. -/
theorem isAlpha_of_map_toLower {s word : List Char} (hword : ∀ c ∈ word, c.isAlpha = true)
    (h : s.map Char.toLower = word.map Char.toLower) {c : Char} (hc : c ∈ s) : c.isAlpha = true := by
  have hmem : c.toLower ∈ word.map Char.toLower := h ▸ List.mem_map_of_mem hc
  obtain ⟨d, hd, heq⟩ := List.mem_map.mp hmem
  rw [← isAlpha_toLower, ← heq, isAlpha_toLower]
  exact hword d hd

/-! ## Where letters come from -/

namespace CaseRun

/-- The run lies within ASCII, or ends up outside it, or is the one of the Kelvin sign. -/
def sparesAscii (r : CaseRun) : Bool :=
  decide (r.last < 128) || decide (128 ≤ r.first + r.shift) || r == ⟨8490, 8490, 1, -8383⟩

theorem sparesAscii_lowerRuns : (lowerRuns.all sparesAscii) = true := by decide

theorem lt_of_shift?_lowerRuns {n m : Nat} (h : shift? lowerRuns n = some m) (hm : m < 128) :
    n < 128 ∨ n = 8490 := by
  obtain ⟨r, hr, hn, rfl⟩ := exists_of_shift? h
  obtain ⟨hfirst, hlast, -⟩ := covers_iff.mp hn
  have hspares := List.all_eq_true.mp sparesAscii_lowerRuns r hr
  simp only [sparesAscii, Bool.or_eq_true, decide_eq_true_eq, beq_iff_eq] at hspares
  rcases hspares with (hwithin | houtside) | rfl
  · exact Or.inl (Nat.lt_of_le_of_lt hlast hwithin)
  · omega
  · exact Or.inr (Nat.le_antisymm hlast hfirst)

end CaseRun

/-- Only the Kelvin sign is shifted to an ASCII letter from outside. -/
theorem toNat_lt_of_isAlpha_shiftCase {c : Char} (h : (shiftCase lowerRuns c).isAlpha = true) :
    c.toNat < 128 ∨ c.toNat = 8490 := by
  unfold shiftCase at h
  split at h
  · rename_i m hm
    rcases toNat_ofNat m with htoNat | htoNat
    · exact CaseRun.lt_of_shift?_lowerRuns hm (htoNat ▸ toNat_lt_of_isAlpha h)
    · rw [← Char.ofNat_toNat (Char.ofNat m), htoNat] at h
      cases h
  · exact Or.inl (toNat_lt_of_isAlpha h)

theorem toNat_lt_of_lowerAt {behind ahead : Bool} {c : Char}
    (h : ∀ d ∈ lowerAt behind c ahead, d.isAlpha = true ∧ d ≠ 'k') : c.toNat < 128 := by
  unfold lowerAt at h
  split at h
  · -- Neither form of the sigma is an ASCII letter.
    have hsigma := (h _ (List.mem_singleton.mpr rfl)).1
    cases hfinal : behind && !ahead <;> rw [hfinal] at hsigma <;> cases hsigma
  · unfold lowerChar at h
    split at h
    · have hdot := (h (Char.ofNat 775) (by simp)).1
      cases hdot
    · obtain ⟨hletter, hk⟩ := h _ (List.mem_singleton.mpr rfl)
      refine (toNat_lt_of_isAlpha_shiftCase hletter).resolve_right fun hkelvin => hk ?_
      rw [← Char.ofNat_toNat c, hkelvin]
      rfl

theorem exists_lowerAt_subset {s : List Char} {c : Char} (hc : c ∈ s) (behind : Bool) :
    ∃ behind' ahead, lowerAt behind' c ahead ⊆ lowerAfter behind s := by
  induction s generalizing behind with
  | nil => cases hc
  | cons d s ih =>
    rw [lowerAfter_cons]
    rcases List.mem_cons.mp hc with rfl | hc
    · exact ⟨behind, casedAhead s, List.subset_append_left _ _⟩
    · obtain ⟨behind', ahead, hsub⟩ := ih hc (casedBehind behind d)
      exact ⟨behind', ahead, fun _ hd => List.mem_append_right _ (hsub hd)⟩

/-- A text whose lower case is made of ASCII letters other than k is made of ASCII characters. -/
theorem toNat_lt_of_lower {s : List Char} (h : ∀ d ∈ lower s, d.isAlpha = true ∧ d ≠ 'k') {c : Char}
    (hc : c ∈ s) : c.toNat < 128 := by
  obtain ⟨behind, ahead, hsub⟩ := exists_lowerAt_subset hc false
  exact toNat_lt_of_lowerAt fun d hd => h d (hsub hd)

/-! ## Words -/

/-- Lower case tells the word from every text but its own spellings. -/
def IsPlainWord (word : List Char) : Prop := ∀ c ∈ word, c.isAlpha = true ∧ c.toLower ≠ 'k'

/-- The text is the word, in any case of its ASCII letters, with nothing around it but characters of the
given kind. -/
inductive Spells (around : Char → Bool) (word : List Char) : List Char → Prop
  | padded {front letters back : List Char} (front_around : ∀ c ∈ front, around c = true)
      (same : letters.map Char.toLower = word.map Char.toLower)
      (back_around : ∀ c ∈ back, around c = true) : Spells around word (front ++ letters ++ back)

variable {word s : List Char}

/-- For a plain word, comparing in lower case ignores the case of ASCII letters and nothing else. -/
theorem lower_eq_lower_iff (hword : IsPlainWord word) :
    lower s = lower word ↔ s.map Char.toLower = word.map Char.toLower := by
  have hlower : lower word = word.map Char.toLower :=
    lower_eq_map_toLower fun c hc => Or.inl (toNat_lt_of_isAlpha (hword c hc).1)
  constructor
  · intro h
    have hletters : ∀ d ∈ lower s, d.isAlpha = true ∧ d ≠ 'k' := by
      intro d hd
      rw [h, hlower] at hd
      obtain ⟨c, hc, rfl⟩ := List.mem_map.mp hd
      rw [isAlpha_toLower]
      exact hword c hc
    have hs : lower s = s.map Char.toLower :=
      lower_eq_map_toLower fun c hc => Or.inl (toNat_lt_of_lower hletters hc)
    rw [← hs, h, hlower]
  · intro h
    rw [← lower_map_toLower s, h, lower_map_toLower]

/-- The Kelvin sign is why the word must be without k. -/
example : lower [Char.ofNat 8490] = lower ['K'] ∧
    [Char.ofNat 8490].map Char.toLower ≠ ['K'].map Char.toLower := by decide

theorem Spells.around_or_isAlpha {around : Char → Bool} (h : Spells around word s)
    (hword : IsPlainWord word) {c : Char} (hc : c ∈ s) : around c = true ∨ c.isAlpha = true := by
  obtain ⟨hfront, hsame, hback⟩ := h
  rcases List.mem_append.mp hc with hc | hc
  · rcases List.mem_append.mp hc with hc | hc
    · exact Or.inl (hfront c hc)
    · exact Or.inr (isAlpha_of_map_toLower (fun d hd => (hword d hd).1) hsame hc)
  · exact Or.inl (hback c hc)

/-- Trimming and lower case recognise the spellings of a plain word. -/
theorem lower_trim_eq_iff (hword : IsPlainWord word) :
    lower (trim s) = lower word ↔ Spells isBlank word s := by
  rw [lower_eq_lower_iff hword]
  constructor
  · intro h
    obtain ⟨front, back, hfront, hback, hs⟩ := exists_trim s
    rw [hs]
    exact .padded hfront h hback
  · rintro ⟨hfront, hsame, hback⟩
    rename_i front letters back
    have hletters : ∀ c ∈ letters, c.isAlpha = true := fun c =>
      isAlpha_of_map_toLower (fun d hd => (hword d hd).1) hsame
    rw [trim_blanks_append hfront hback,
      trim_of_not_blank fun c hc => not_isBlank_of_isAlpha (hletters c hc), hsame]

end ConsentGate.Text
