import ConsentGate.Proofs.Field.LetterCase
import ConsentGate.Proofs.Text.Lowered

/-! The normal form of a normal form.

What comes out of joining is `Joined`: words with single underscores between them and no other separator.
Joining leaves such a text alone, lower case leaves it alone since it has been through lower case, and
without capitals no word begins in it. So a normal form is its own normal form, and no rule tells a key
from it (`normalize_idempotent`). -/
namespace ConsentGate.Field
open Text
set_option autoImplicit false

variable {s : List Char} {c : Char}

/-! ## Joined words -/

/-- Words without separators, joined by single underscores. -/
inductive Joined : List Char → Prop where
  | last {c : Char} : isSeparator c = false → Joined [c]
  | cons {c : Char} {s : List Char} : isSeparator c = false → Joined s → Joined (c :: s)
  | gap {c : Char} {s : List Char} : isSeparator c = false → Joined s → Joined (c :: '_' :: s)

theorem joined_cons_joinWords (hc : isSeparator c = false) (pending : Bool) (s : List Char) :
    Joined (c :: joinWords true pending s) := by
  induction s generalizing c pending with
  | nil => exact .last hc
  | cons d s ih =>
    cases hd : isSeparator d with
    | true =>
      rw [joinWords_cons_of_isSeparator hd]
      exact ih hc true
    | false =>
      rw [joinWords_cons_of_not_isSeparator hd]
      cases pending with
      | false => exact .cons hc (ih hd false)
      | true => exact .gap hc (ih hd false)

theorem joined_joinWords (pending : Bool) (s : List Char) :
    joinWords false pending s = [] ∨ Joined (joinWords false pending s) := by
  induction s generalizing pending with
  | nil => exact Or.inl rfl
  | cons c s ih =>
    cases hc : isSeparator c with
    | true =>
      rw [joinWords_cons_of_isSeparator hc]
      exact ih true
    | false =>
      rw [joinWords_cons_of_not_isSeparator hc]
      exact Or.inr (joined_cons_joinWords hc false s)

namespace Joined

theorem exists_cons (h : Joined s) : ∃ c t, s = c :: t ∧ isSeparator c = false := by
  cases h with
  | last hc => exact ⟨_, _, rfl, hc⟩
  | cons hc hs => exact ⟨_, _, rfl, hc⟩
  | gap hc hs => exact ⟨_, _, rfl, hc⟩

theorem head?_ne (h : Joined s) : s.head? ≠ some '_' := by
  obtain ⟨c, t, rfl, hc⟩ := h.exists_cons
  rintro ⟨⟩
  cases hc

theorem joinWords_eq (h : Joined s) (started : Bool) : joinWords started false s = s := by
  induction h generalizing started with
  | last hc => simp [joinWords, hc]
  | cons hc hs ih => simp [joinWords, hc, ih]
  | @gap c s hc hs ih =>
    obtain ⟨d, t, rfl, hd⟩ := hs.exists_cons
    have hunderscore : joinWords true true (d :: t) = '_' :: joinWords true false (d :: t) := by
      simp [joinWords, hd]
    rw [joinWords_cons_of_not_isSeparator hc, joinWords_cons_of_isSeparator (by decide), hunderscore, ih,
      Bool.and_false]
    rfl

theorem mem (h : Joined s) (hc : c ∈ s) : c = '_' ∨ isSeparator c = false := by
  induction h with
  | last hd =>
    obtain rfl := List.mem_singleton.mp hc
    exact Or.inr hd
  | cons hd hs ih =>
    rcases List.mem_cons.mp hc with rfl | hc
    · exact Or.inr hd
    · exact ih hc
  | gap hd hs ih =>
    rcases List.mem_cons.mp hc with rfl | hc
    · exact Or.inr hd
    · rcases List.mem_cons.mp hc with rfl | hc
      · exact Or.inl rfl
      · exact ih hc

theorem not_underscores_infix (h : Joined s) : ¬['_', '_'] <:+: s := by
  have hfront : ∀ {c : Char} (rest t : List Char), isSeparator c = false →
      ¬('_' :: rest) <+: c :: t := by
    intro c rest t hc hprefix
    obtain ⟨rfl, -⟩ := List.cons_prefix_cons.mp hprefix
    cases hc
  induction h with
  | last hc => exact fun h => Nat.not_succ_le_self 1 h.length_le
  | cons hc hs ih =>
    rw [List.infix_cons_iff]
    exact fun h => h.elim (hfront _ _ hc) ih
  | gap hc hs ih =>
    rw [List.infix_cons_iff, List.infix_cons_iff]
    rintro (h | h | h)
    · exact hfront _ _ hc h
    · obtain ⟨d, t, rfl, hd⟩ := hs.exists_cons
      exact hfront [] t hd (List.cons_prefix_cons.mp h).2
    · exact ih h

theorem getLast?_ne (h : Joined s) : s.getLast? ≠ some '_' := by
  induction h with
  | last hc =>
    rintro ⟨⟩
    cases hc
  | cons hc hs ih =>
    obtain ⟨d, t, rfl, -⟩ := hs.exists_cons
    rwa [List.getLast?_cons_cons]
  | gap hc hs ih =>
    obtain ⟨d, t, rfl, -⟩ := hs.exists_cons
    rwa [List.getLast?_cons_cons, List.getLast?_cons_cons]

end Joined

/-! ## Capitals -/

theorem splitAfter_of_not_isCapital (h : ∀ c ∈ s, isCapital c = false) (before : Char) :
    splitAfter before s = s := by
  induction s generalizing before with
  | nil => rfl
  | cons c s ih =>
    obtain ⟨hc, hs⟩ := List.forall_mem_cons.mp h
    simp [splitAfter, hc, ih hs]

theorem splitWords_of_not_isCapital (h : ∀ c ∈ s, isCapital c = false) : splitWords s = s := by
  have hsplit : splitAfter ' ' s = splitWords s := splitAfter_of_not_isAlnum (by decide) s
  rw [← hsplit]
  exact splitAfter_of_not_isCapital h ' '

theorem not_isCapital_of_isLowered (h : IsLowered c) : isCapital c = false := by
  cases hc : isCapital c with
  | false => rfl
  | true =>
    have hmoves := of_isAlnum (p := fun c => lowerChar c != [c]) (fun _ => isAlnum_of_isCapital)
      (by decide) hc
    simp [h.2] at hmoves

/-! ## The normal form -/

variable (key : List Char)

theorem joined_normalize : normalize key = [] ∨ Joined (normalize key) := joined_joinWords false _

/-- But for underscores, a normal form has the characters of the key in lower case. -/
theorem isLowered_of_mem_normalize (h : c ∈ normalize key) : IsLowered c := by
  obtain rfl | hc : c = '_' ∨ isSeparator c = false := by
    rcases joined_normalize key with hnil | hjoined
    · rw [hnil] at h
      cases h
    · exact hjoined.mem h
  · decide
  · have hfilter : c ∈ (lower key).filter (!isSeparator ·) := by
      rw [← filter_normalize, List.mem_filter]
      exact ⟨h, by simp [hc]⟩
    exact isLowered_of_mem_lower (List.mem_filter.mp hfilter).1

theorem normalize_normalize : normalize (normalize key) = normalize key := by
  have hlowered : ∀ c ∈ normalize key, IsLowered c := fun c => isLowered_of_mem_normalize key
  have hcapital : ∀ c ∈ normalize key, isCapital c = false :=
    fun c hc => not_isCapital_of_isLowered (hlowered c hc)
  calc normalize (normalize key)
      = joinWords false false (lower (splitWords (normalize key))) := normalize_eq _
    _ = joinWords false false (normalize key) := by
      rw [splitWords_of_not_isCapital hcapital, lower_of_isLowered hlowered]
    _ = normalize key := by
      rcases joined_normalize key with hnil | hjoined
      · rw [hnil]
        rfl
      · exact hjoined.joinWords_eq false

/-- Bringing a key into its normal form a second time changes nothing. In a normal form are no blanks,
dashes, points and capitals, and underscores stand alone and at neither end. Whatever the tables are, the
rules say the same of a key and of its normal form. -/
theorem normalize_idempotent :
    normalize (normalize key) = normalize key ∧
      (∀ c ∈ normalize key, isBlank c = false ∧ c ≠ '-' ∧ c ≠ '.' ∧ isCapital c = false) ∧
      ¬['_', '_'] <:+: normalize key ∧
      (normalize key).head? ≠ some '_' ∧ (normalize key).getLast? ≠ some '_' ∧
      ∀ r : Rules, r.classify (normalize key) = r.classify key ∧
        r.isDateKey (normalize key) = r.isDateKey key ∧
        r.isEpochKey (normalize key) = r.isEpochKey key := by
  have hsame := normalize_normalize key
  have hrules : ∀ r : Rules, r.classify (normalize key) = r.classify key ∧
      r.isDateKey (normalize key) = r.isDateKey key ∧
      r.isEpochKey (normalize key) = r.isEpochKey key := by
    intro r
    simp only [Rules.classify, Rules.isDateKey, Rules.isEpochKey, hsame, and_self]
  rcases joined_normalize key with hnil | hjoined
  · refine ⟨hsame, ?_, ?_, ?_, ?_, hrules⟩ <;> simp [hnil]
  · refine ⟨hsame, fun c hc => ?_, hjoined.not_underscores_infix, hjoined.head?_ne, hjoined.getLast?_ne,
      hrules⟩
    have hcapital := not_isCapital_of_isLowered (isLowered_of_mem_normalize key hc)
    rcases hjoined.mem hc with rfl | hseparator
    · decide
    · simp only [isSeparator, Bool.or_eq_false_iff, beq_eq_false_iff_ne] at hseparator
      obtain ⟨⟨⟨hblank, hdash⟩, hpoint⟩, -⟩ := hseparator
      exact ⟨hblank, hdash, hpoint, hcapital⟩

end ConsentGate.Field
