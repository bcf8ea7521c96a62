import ConsentGate.Text.Blank
import ConsentGate.Text.LowerCase

/-! Lower case of ASCII letters and of blanks.

Lower case does not see the case of ASCII letters, neither in the letter itself nor where the neighbours of
a sigma are looked at (`lower_map_toLower`). Blanks stay what they are and hide nothing behind them, so
those at the two ends of a text may be taken off before or after (`lower_append_blanks`,
`lower_blanks_append`). -/
namespace ConsentGate.Text
set_option autoImplicit false

/-! ## Characters by table -/

theorem of_ascii {p : Char → Bool} (h : ((List.range 128).all fun n => p (Char.ofNat n)) = true)
    {c : Char} (hc : c.toNat < 128) : p c = true := by
  have hn := List.all_eq_true.mp h c.toNat (List.mem_range.mpr hc)
  rwa [Char.ofNat_toNat] at hn

theorem of_isBlank {p : Char → Bool}
    (h : (blankRanges.all fun r =>
      (List.range' r.1 (r.2 + 1 - r.1)).all fun n => p (Char.ofNat n)) = true)
    {c : Char} (hc : isBlank c = true) : p c = true := by
  obtain ⟨r, hr, hlo, hhi⟩ := CodeRanges.mem_of_has hc
  have hrange := List.all_eq_true.mp (List.all_eq_true.mp h r hr) c.toNat
    (List.mem_range'_1.mpr ⟨hlo, by omega⟩)
  rwa [Char.ofNat_toNat] at hrange

/-! ## Letters -/

theorem toLower_of_not_ascii {c : Char} (h : ¬c.toNat < 128) : c.toLower = c := by
  unfold Char.toLower
  rw [dif_neg]
  rintro ⟨_, hle⟩
  exact h (Nat.lt_of_le_of_lt (UInt32.le_iff_toNat_le.mp hle) (by decide))

/-- What does not see the case of ASCII letters, as a look at each of them shows. -/
theorem apply_toLower {α : Type} [DecidableEq α] {f : Char → α}
    (h : ((List.range 128).all fun n =>
      decide (f (Char.ofNat n).toLower = f (Char.ofNat n))) = true) (c : Char) :
    f c.toLower = f c := by
  by_cases hc : c.toNat < 128
  · exact of_decide_eq_true (of_ascii (p := fun c => decide (f c.toLower = f c)) h hc)
  · rw [toLower_of_not_ascii hc]

theorem lowerChar_toLower (c : Char) : lowerChar c.toLower = lowerChar c :=
  apply_toLower (by decide) c

theorem isCased_toLower (c : Char) : isCased c.toLower = isCased c := apply_toLower (by decide) c

theorem isCaseIgnorable_toLower (c : Char) : isCaseIgnorable c.toLower = isCaseIgnorable c :=
  apply_toLower (by decide) c

theorem toLower_eq_sigma_iff (c : Char) : c.toLower.toNat = 931 ↔ c.toNat = 931 := by
  have h := apply_toLower (f := fun c => decide (c.toNat = 931)) (by decide) c
  simpa using h

/-- What becomes of a character, if the last character before it and the first one behind it that are not
case-ignorable are cased or not. -/
def lowerAt (behind : Bool) (c : Char) (ahead : Bool) : List Char :=
  if c.toNat = 931 then [Char.ofNat (if behind && !ahead then 962 else 963)] else lowerChar c

/-- Whether the last character that is not case-ignorable is cased, behind one more character. -/
def casedBehind (behind : Bool) (c : Char) : Bool := if isCaseIgnorable c then behind else isCased c

theorem lowerAfter_cons (behind : Bool) (c : Char) (s : List Char) : lowerAfter behind (c :: s) =
    lowerAt behind c (casedAhead s) ++ lowerAfter (casedBehind behind c) s := rfl

theorem lowerAt_toLower (behind : Bool) (c : Char) (ahead : Bool) :
    lowerAt behind c.toLower ahead = lowerAt behind c ahead := by
  simp only [lowerAt, toLower_eq_sigma_iff, lowerChar_toLower]

theorem casedBehind_toLower (behind : Bool) (c : Char) :
    casedBehind behind c.toLower = casedBehind behind c := by
  simp only [casedBehind, isCaseIgnorable_toLower, isCased_toLower]

theorem casedAhead_map_toLower (s : List Char) : casedAhead (s.map Char.toLower) = casedAhead s := by
  induction s with
  | nil => rfl
  | cons c s ih =>
    rw [List.map_cons, casedAhead, casedAhead, ih, isCaseIgnorable_toLower, isCased_toLower]

theorem lowerAfter_map_toLower (behind : Bool) (s : List Char) :
    lowerAfter behind (s.map Char.toLower) = lowerAfter behind s := by
  induction s generalizing behind with
  | nil => rfl
  | cons c s ih =>
    rw [List.map_cons, lowerAfter_cons, lowerAfter_cons, ih, lowerAt_toLower, casedBehind_toLower,
      casedAhead_map_toLower]

theorem lower_map_toLower (s : List Char) : lower (s.map Char.toLower) = lower s :=
  lowerAfter_map_toLower false s

/-! ## Blanks -/

theorem lowerChar_of_isBlank {c : Char} (h : isBlank c = true) : lowerChar c = [c] :=
  eq_of_beq (of_isBlank (p := fun c => lowerChar c == [c]) (by decide) h)

theorem ne_sigma_of_isBlank {c : Char} (h : isBlank c = true) : c.toNat ≠ 931 := by
  simpa using of_isBlank (p := fun c => c.toNat != 931) (by decide) h

theorem isCased_of_isBlank {c : Char} (h : isBlank c = true) : isCased c = false := by
  simpa using of_isBlank (p := fun c => !isCased c) (by decide) h

theorem isCaseIgnorable_of_isBlank {c : Char} (h : isBlank c = true) : isCaseIgnorable c = false := by
  simpa using of_isBlank (p := fun c => !isCaseIgnorable c) (by decide +kernel) h

variable {blanks : List Char} (hblanks : ∀ c ∈ blanks, isBlank c = true)
include hblanks

theorem lowerAfter_blanks (behind : Bool) : lowerAfter behind blanks = blanks := by
  induction blanks generalizing behind with
  | nil => rfl
  | cons c blanks ih =>
    obtain ⟨hc, hblanks⟩ := List.forall_mem_cons.mp hblanks
    rw [lowerAfter, if_neg (ne_sigma_of_isBlank hc), lowerChar_of_isBlank hc, ih hblanks]
    rfl

theorem casedAhead_append_blanks (s : List Char) : casedAhead (s ++ blanks) = casedAhead s := by
  induction s with
  | nil =>
    cases blanks with
    | nil => rfl
    | cons c blanks =>
      have hc := hblanks c List.mem_cons_self
      simp only [List.nil_append, casedAhead, isCaseIgnorable_of_isBlank hc, isCased_of_isBlank hc,
        Bool.false_eq_true, if_false]
  | cons c s ih => rw [List.cons_append, casedAhead, casedAhead, ih]

theorem lowerAfter_append_blanks (behind : Bool) (s : List Char) :
    lowerAfter behind (s ++ blanks) = lowerAfter behind s ++ blanks := by
  induction s generalizing behind with
  | nil => exact lowerAfter_blanks hblanks behind
  | cons c s ih =>
    simp only [List.cons_append, lowerAfter, ih, casedAhead_append_blanks hblanks, List.append_assoc]

theorem lower_append_blanks (s : List Char) : lower (s ++ blanks) = lower s ++ blanks :=
  lowerAfter_append_blanks hblanks false s

theorem lower_blanks_append (s : List Char) : lower (blanks ++ s) = blanks ++ lower s := by
  induction blanks with
  | nil => rfl
  | cons c blanks ih =>
    obtain ⟨hc, hblanks⟩ := List.forall_mem_cons.mp hblanks
    rw [lower, List.cons_append, lowerAfter, if_neg (ne_sigma_of_isBlank hc), lowerChar_of_isBlank hc,
      isCaseIgnorable_of_isBlank hc, isCased_of_isBlank hc]
    exact congrArg (c :: ·) (ih hblanks)

omit hblanks

/-- An ASCII character or a blank has a lower-case form of its own, wherever it stands. -/
theorem lowerChar_eq_toLower {c : Char} (h : c.toNat < 128 ∨ isBlank c = true) :
    lowerChar c = [c.toLower] := by
  rcases h with h | h
  · exact eq_of_beq (of_ascii (p := fun c => lowerChar c == [c.toLower]) (by decide) h)
  · exact eq_of_beq (of_isBlank (p := fun c => lowerChar c == [c.toLower]) (by decide) h)

theorem lowerAfter_eq_map_toLower (behind : Bool) {s : List Char}
    (h : ∀ c ∈ s, c.toNat < 128 ∨ isBlank c = true) : lowerAfter behind s = s.map Char.toLower := by
  induction s generalizing behind with
  | nil => rfl
  | cons c s ih =>
    obtain ⟨hc, hs⟩ := List.forall_mem_cons.mp h
    have hsigma : c.toNat ≠ 931 := by
      rcases hc with hc | hc
      · omega
      · exact ne_sigma_of_isBlank hc
    rw [lowerAfter, if_neg hsigma, lowerChar_eq_toLower hc, ih _ hs, List.map_cons, List.singleton_append]

theorem lower_eq_map_toLower {s : List Char} (h : ∀ c ∈ s, c.toNat < 128 ∨ isBlank c = true) :
    lower s = s.map Char.toLower :=
  lowerAfter_eq_map_toLower false h

/-! ## Trimming -/

theorem exists_trimEnd (s : List Char) :
    ∃ back, (∀ c ∈ back, isBlank c = true) ∧ s = trimEnd s ++ back := by
  induction s with
  | nil => exact ⟨[], by simp, rfl⟩
  | cons c s ih =>
    obtain ⟨back, hback, hs⟩ := ih
    rw [trimEnd]
    split
    · rename_i hnil
      rw [hnil, List.nil_append] at hs
      split
      · rename_i hc
        exact ⟨c :: back, List.forall_mem_cons.mpr ⟨hc, hback⟩, by rw [hs]; rfl⟩
      · exact ⟨back, hback, by rw [hs]; rfl⟩
    · rename_i d kept hkept
      exact ⟨back, hback, by rw [← hkept, List.cons_append, ← hs]⟩

/-- Trimming takes blanks from the two ends and nothing else. -/
theorem exists_trim (s : List Char) : ∃ front back, (∀ c ∈ front, isBlank c = true) ∧
    (∀ c ∈ back, isBlank c = true) ∧ s = front ++ trim s ++ back := by
  obtain ⟨back, hback, hs⟩ := exists_trimEnd (s.dropWhile isBlank)
  refine ⟨s.takeWhile isBlank, back, fun c hc => ?_, hback, ?_⟩
  · exact List.all_eq_true.mp List.all_takeWhile c hc
  · rw [trim, List.append_assoc, ← hs, List.takeWhile_append_dropWhile]

theorem trimEnd_blanks {back : List Char} (h : ∀ c ∈ back, isBlank c = true) : trimEnd back = [] := by
  induction back with
  | nil => rfl
  | cons c back ih =>
    obtain ⟨hc, hback⟩ := List.forall_mem_cons.mp h
    simp [trimEnd, ih hback, hc]

theorem trimEnd_append_blanks (s : List Char) {back : List Char} (h : ∀ c ∈ back, isBlank c = true) :
    trimEnd (s ++ back) = trimEnd s := by
  induction s with
  | nil => exact trimEnd_blanks h
  | cons c s ih => rw [List.cons_append, trimEnd, trimEnd, ih]

theorem trimEnd_of_not_blank {s : List Char} (h : ∀ c ∈ s, isBlank c = false) : trimEnd s = s := by
  induction s with
  | nil => rfl
  | cons c rest ih =>
    have hrest := ih fun d hd => h d (List.mem_cons_of_mem c hd)
    rw [trimEnd, hrest]
    cases rest with
    | nil => simp [h c List.mem_cons_self]
    | cons d rest => rfl

theorem trim_of_not_blank {s : List Char} (h : ∀ c ∈ s, isBlank c = false) : trim s = s := by
  have hdrop : s.dropWhile isBlank = s := by
    cases s with
    | nil => rfl
    | cons c rest => simp [h c List.mem_cons_self]
  rw [trim, hdrop, trimEnd_of_not_blank h]

/-- Blanks around a text are trimmed off with those of the text. -/
theorem trim_blanks_append {front back : List Char} (hfront : ∀ c ∈ front, isBlank c = true)
    (hback : ∀ c ∈ back, isBlank c = true) (s : List Char) : trim (front ++ s ++ back) = trim s := by
  rw [trim, List.append_assoc, List.dropWhile_append_of_pos hfront, trim]
  induction s with
  | nil =>
    have hdrop : (back ++ []).dropWhile isBlank = [] := List.dropWhile_append_of_pos hback
    rw [List.append_nil] at hdrop
    rw [List.nil_append, hdrop]
    rfl
  | cons c s ih =>
    rw [List.cons_append, List.dropWhile_cons, List.dropWhile_cons]
    split
    · exact ih
    · exact trimEnd_append_blanks (c :: s) hback

end ConsentGate.Text
