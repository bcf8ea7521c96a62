import ConsentGate.Field.Key
import ConsentGate.Proofs.Text.Letters

/-! The steps by which a key is brought into its normal form.

A word can begin behind a letter or digit only, so what is no letter or digit of ASCII parts the key: on
either side of it words are split on their own (`splitAfter_of_not_isAlnum`). Joining the words drops
separators at the two ends of the key, blanks among them, so trimming the key first makes no difference
(`normalize_eq`). -/
namespace ConsentGate.Field
open Text
set_option autoImplicit false

/-- An ASCII letter or digit. -/
def isAlnum (c : Char) : Bool := isSmallOrDigit c || isCapital c

/-! ## Characters -/

theorem toNat_lt_of_isAlnum {c : Char} (h : isAlnum c = true) : c.toNat < 128 := by
  simp only [isAlnum, isSmallOrDigit, isSmall, isCapital, Bool.or_eq_true, Bool.and_eq_true,
    decide_eq_true_eq, Char.le_def, UInt32.le_iff_toNat_le] at h
  have hz : 'z'.val.toNat = 122 := rfl
  have h9 : '9'.val.toNat = 57 := rfl
  have hZ : 'Z'.val.toNat = 90 := rfl
  show c.val.toNat < 128
  omega

theorem isAlnum_of_isCapital {c : Char} (h : isCapital c = true) : isAlnum c = true := by
  simp [isAlnum, h]

/-- What holds of some letters and digits, as a look at each of them shows. -/
theorem of_isAlnum {q p : Char → Bool} (hq : ∀ c, q c = true → isAlnum c = true)
    (h : ((List.range 128).all fun n => !q (Char.ofNat n) || p (Char.ofNat n)) = true)
    {c : Char} (hc : q c = true) : p c = true := by
  simpa [hc] using of_ascii (p := fun c => !q c || p c) h (toNat_lt_of_isAlnum (hq c hc))

theorem not_isSeparator_of_isAlnum {c : Char} (h : isAlnum c = true) : isSeparator c = false := by
  simpa using of_isAlnum (p := fun c => !isSeparator c) (fun _ => id) (by decide) h

theorem not_isAlnum_of_isBlank {c : Char} (h : isBlank c = true) : isAlnum c = false := by
  cases hc : isAlnum c with
  | false => rfl
  | true =>
    have hseparator := not_isSeparator_of_isAlnum hc
    simp [isSeparator, h] at hseparator

theorem isSeparator_of_isBlank {c : Char} (h : isBlank c = true) : isSeparator c = true := by
  simp [isSeparator, h]

theorem not_isSmall_of_not_isAlnum {c : Char} (h : isAlnum c = false) : isSmall c = false := by
  simp only [isAlnum, isSmallOrDigit, Bool.or_eq_false_iff] at h
  exact h.1.1

theorem not_isCapital_of_not_isAlnum {c : Char} (h : isAlnum c = false) : isCapital c = false :=
  (Bool.or_eq_false_iff.mp h).2

theorem beginsWord_of_not_isAlnum {before : Char} (h : isAlnum before = false) (after : Option Char) :
    beginsWord before after = false := by
  obtain ⟨hsmall, hcapital⟩ := Bool.or_eq_false_iff.mp h
  simp [beginsWord, hsmall, hcapital]

/-! ## Splitting -/

theorem splitAfter_of_not_isAlnum {before : Char} (h : isAlnum before = false) (s : List Char) :
    splitAfter before s = splitWords s := by
  cases s with
  | nil => rfl
  | cons c s => simp [splitAfter, splitWords, beginsWord_of_not_isAlnum h]

theorem splitAfter_cons_of_not_isAlnum {c : Char} (h : isAlnum c = false) (before : Char)
    (s : List Char) : splitAfter before (c :: s) = c :: splitWords s := by
  simp [splitAfter, not_isCapital_of_not_isAlnum h, splitAfter_of_not_isAlnum h]

theorem splitWords_cons_of_not_isAlnum {c : Char} (h : isAlnum c = false) (s : List Char) :
    splitWords (c :: s) = c :: splitWords s := by
  rw [splitWords, splitAfter_of_not_isAlnum h]

theorem mem_splitAfter {before c : Char} {s : List Char} (h : c ∈ splitAfter before s) :
    c = '_' ∨ c ∈ s := by
  induction s generalizing before with
  | nil => cases h
  | cons d s ih =>
    rw [splitAfter] at h
    rcases List.mem_append.mp h with h | h
    · have hcons : c ∈ ['_', d] := by
        split at h
        · exact h
        · exact List.mem_cons_of_mem '_' h
      rcases List.mem_cons.mp hcons with rfl | hd
      · exact Or.inl rfl
      · exact Or.inr (List.mem_append_left s hd)
    · exact (ih h).imp id (List.mem_cons_of_mem d)

theorem mem_splitWords {c : Char} {s : List Char} (h : c ∈ splitWords s) : c = '_' ∨ c ∈ s := by
  cases s with
  | nil => cases h
  | cons d s =>
    rcases List.mem_cons.mp h with rfl | h
    · exact Or.inr List.mem_cons_self
    · exact (mem_splitAfter h).imp id (List.mem_cons_of_mem d)

section Blanks

variable {blanks : List Char} (hblanks : ∀ c ∈ blanks, isBlank c = true)
include hblanks

theorem splitWords_blanks_append (s : List Char) :
    splitWords (blanks ++ s) = blanks ++ splitWords s := by
  induction blanks with
  | nil => rfl
  | cons c blanks ih =>
    obtain ⟨hc, hblanks⟩ := List.forall_mem_cons.mp hblanks
    rw [List.cons_append, splitWords_cons_of_not_isAlnum (not_isAlnum_of_isBlank hc), ih hblanks,
      List.cons_append]

theorem splitWords_blanks : splitWords blanks = blanks := by
  simpa [splitWords] using splitWords_blanks_append hblanks []

theorem splitAfter_append_blanks (before : Char) (s : List Char) :
    splitAfter before (s ++ blanks) = splitAfter before s ++ blanks := by
  induction s generalizing before with
  | nil =>
    cases blanks with
    | nil => rfl
    | cons c blanks =>
      obtain ⟨hc, hblanks⟩ := List.forall_mem_cons.mp hblanks
      rw [List.nil_append, splitAfter_cons_of_not_isAlnum (not_isAlnum_of_isBlank hc),
        splitWords_blanks hblanks, splitAfter, List.nil_append]
  | cons c s ih =>
    -- A blank behind the last character is no small letter, so nothing is there for the split to see.
    have hhead : ((s ++ blanks).head?.any isSmall) = s.head?.any isSmall := by
      cases s with
      | cons d s => rfl
      | nil =>
        cases blanks with
        | nil => rfl
        | cons d blanks =>
          exact not_isSmall_of_not_isAlnum (not_isAlnum_of_isBlank (hblanks d List.mem_cons_self))
    rw [List.cons_append, splitAfter, splitAfter, ih, beginsWord, beginsWord, hhead,
      List.append_assoc]

theorem splitWords_append_blanks (s : List Char) :
    splitWords (s ++ blanks) = splitWords s ++ blanks := by
  cases s with
  | nil => exact splitWords_blanks hblanks
  | cons c s =>
    rw [List.cons_append, splitWords, splitWords, splitAfter_append_blanks hblanks, List.cons_append]

end Blanks

/-! ## Joining -/

theorem joinWords_cons_of_isSeparator {c : Char} (h : isSeparator c = true) (started pending : Bool)
    (s : List Char) : joinWords started pending (c :: s) = joinWords started true s := by
  rw [joinWords, if_pos h]

theorem joinWords_cons_of_not_isSeparator {c : Char} (h : isSeparator c = false)
    (started pending : Bool) (s : List Char) : joinWords started pending (c :: s) =
      (if started && pending then ['_', c] else [c]) ++ joinWords true false s := by
  rw [joinWords, if_neg (Bool.eq_false_iff.mp h)]

/-- Before the first word it does not matter whether separators were skipped. -/
theorem joinWords_not_started (pending : Bool) (s : List Char) :
    joinWords false pending s = joinWords false false s := by
  cases s with
  | nil => rfl
  | cons c s => simp [joinWords]

section Separators

variable {separators : List Char} (hseparators : ∀ c ∈ separators, isSeparator c = true)
include hseparators

theorem joinWords_separators_append (started pending : Bool) (s : List Char) :
    joinWords started pending (separators ++ s) =
      joinWords started (pending || !separators.isEmpty) s := by
  induction separators generalizing pending with
  | nil => simp
  | cons c separators ih =>
    obtain ⟨hc, hseparators⟩ := List.forall_mem_cons.mp hseparators
    rw [List.cons_append, joinWords_cons_of_isSeparator hc, ih hseparators]
    simp

theorem joinWords_append_separators (started pending : Bool) (s : List Char) :
    joinWords started pending (s ++ separators) = joinWords started pending s := by
  induction s generalizing started pending with
  | nil => simpa [joinWords] using joinWords_separators_append hseparators started pending []
  | cons c s ih => rw [List.cons_append, joinWords, joinWords, ih, ih]

end Separators

/-! ## The normal form -/

/-- Trimming a key before its words are split and joined makes no difference. -/
theorem normalize_eq (key : List Char) :
    normalize key = joinWords false false (lower (splitWords key)) := by
  obtain ⟨front, back, hfront, hback, hkey⟩ := exists_trim key
  have hlower : lower (splitWords key) = front ++ lower (splitWords (trim key)) ++ back :=
    calc lower (splitWords key) = lower (splitWords (front ++ trim key ++ back)) := by rw [← hkey]
      _ = front ++ lower (splitWords (trim key)) ++ back := by
        rw [splitWords_append_blanks hback, splitWords_blanks_append hfront, lower_append_blanks hback,
          lower_blanks_append hfront]
  rw [hlower, joinWords_append_separators fun c hc => isSeparator_of_isBlank (hback c hc),
    joinWords_separators_append fun c hc => isSeparator_of_isBlank (hfront c hc), joinWords_not_started]
  rfl

end ConsentGate.Field
