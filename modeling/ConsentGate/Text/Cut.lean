/-! Texts cut at a mark.

The parts stand between the marks, so there is always one, and between two marks in a row stands an
empty one. Joining the parts with the mark gives the text back (`intercalate_cut`), and no part holds
the mark (`not_mem_of_mem_cut`). -/
namespace ConsentGate.Text
set_option autoImplicit false

/-- The parts of a text between its marks. -/
def cut (mark : Char) : List Char → List (List Char)
  | [] => [[]]
  | c :: rest =>
    if c = mark then [] :: cut mark rest else (cut mark rest).modifyHead (c :: ·)

/-- The lines of a text; a line feed ends one line and begins the next. -/
def lines (s : List Char) : List (List Char) := cut '\n' s

@[simp] theorem cut_nil (mark : Char) : cut mark [] = [[]] := rfl

@[simp] theorem cut_cons_mark (mark : Char) (s : List Char) :
    cut mark (mark :: s) = [] :: cut mark s := by
  simp [cut]

theorem cut_cons_of_ne {mark c : Char} (h : c ≠ mark) (s : List Char) :
    cut mark (c :: s) = (cut mark s).modifyHead (c :: ·) := by
  simp [cut, h]

/-- A text without the mark is one part. -/
theorem cut_of_not_mem {mark : Char} {s : List Char} (h : mark ∉ s) : cut mark s = [s] := by
  induction s with
  | nil => rfl
  | cons c s ih =>
    rw [List.mem_cons, not_or] at h
    rw [cut_cons_of_ne (Ne.symm h.1), ih h.2, List.modifyHead_cons]

theorem cut_ne_nil (mark : Char) (s : List Char) : cut mark s ≠ [] := by
  induction s with
  | nil => simp
  | cons c rest ih =>
    by_cases h : c = mark
    · simp [cut, h]
    · obtain ⟨p, ps, e⟩ := List.exists_cons_of_ne_nil ih
      simp [cut, h, e]

/-- A mark separates what stands before it from what stands behind it. -/
theorem cut_append_mark (mark : Char) (s t : List Char) :
    cut mark (s ++ mark :: t) = cut mark s ++ cut mark t := by
  induction s with
  | nil => simp
  | cons c rest ih =>
    by_cases h : c = mark
    · simp [cut, h, ih]
    · obtain ⟨p, ps, e⟩ := List.exists_cons_of_ne_nil (cut_ne_nil mark rest)
      simp [cut, h, ih, e]

/-- Where two texts are put together, the last part of the first and the first part of the second become
one part. -/
theorem exists_cut_append (mark : Char) (s t : List Char) : ∃ front last head back,
    cut mark s = front ++ [last] ∧ cut mark t = head :: back ∧
      cut mark (s ++ t) = front ++ (last ++ head) :: back := by
  induction s with
  | nil =>
    obtain ⟨head, back, ht⟩ := List.exists_cons_of_ne_nil (cut_ne_nil mark t)
    exact ⟨[], [], head, back, rfl, ht, ht⟩
  | cons c s ih =>
    obtain ⟨front, last, head, back, hs, ht, hst⟩ := ih
    by_cases h : c = mark
    · subst h
      refine ⟨[] :: front, last, head, back, ?_, ht, ?_⟩
      · rw [cut_cons_mark, hs, List.cons_append]
      · rw [List.cons_append, cut_cons_mark, hst, List.cons_append]
    · rw [List.cons_append, cut_cons_of_ne h, cut_cons_of_ne h, hs, hst]
      cases front with
      | nil => exact ⟨[], c :: last, head, back, rfl, ht, rfl⟩
      | cons p front => exact ⟨(c :: p) :: front, last, head, back, rfl, ht, rfl⟩

theorem intercalate_cut (mark : Char) (s : List Char) : [mark].intercalate (cut mark s) = s := by
  induction s with
  | nil => simp [List.intercalate]
  | cons c rest ih =>
    obtain ⟨p, ps, e⟩ := List.exists_cons_of_ne_nil (cut_ne_nil mark rest)
    rw [e] at ih
    by_cases h : c = mark
    · subst h
      rw [cut_cons_mark, e, List.intercalate_cons_cons, ih]
      simp
    · rw [cut_cons_of_ne h, e, List.modifyHead_cons]
      cases ps with
      | nil => simpa [List.intercalate] using ih
      | cons q qs =>
        rw [List.intercalate_cons_cons] at ih ⊢
        simp [← ih]

theorem intercalate_append (mark : Char) {parts rest : List (List Char)} (h : parts ≠ [])
    (hrest : rest ≠ []) :
    [mark].intercalate (parts ++ rest) = [mark].intercalate parts ++ mark :: [mark].intercalate rest := by
  obtain ⟨q, qs, rfl⟩ := List.exists_cons_of_ne_nil hrest
  induction parts with
  | nil => exact absurd rfl h
  | cons p parts ih =>
    cases parts with
    | nil => simp [List.intercalate_cons_cons]
    | cons p' parts =>
      rw [List.cons_append, List.cons_append, List.intercalate_cons_cons, List.intercalate_cons_cons,
        ← List.cons_append, ih (List.cons_ne_nil _ _)]
      simp

/-- The parts of a text begin with the parts of another if it is that text, or goes on behind it with a
mark. -/
theorem cut_prefix_iff {mark : Char} {s t : List Char} :
    cut mark s <+: cut mark t ↔ t = s ∨ s ++ [mark] <+: t := by
  constructor
  · rintro ⟨rest, h⟩
    cases rest with
    | nil =>
      rw [List.append_nil] at h
      rw [← intercalate_cut mark t, ← h, intercalate_cut]
      exact Or.inl rfl
    | cons q qs =>
      refine Or.inr ⟨[mark].intercalate (q :: qs), ?_⟩
      rw [← intercalate_cut mark t, ← h,
        intercalate_append mark (cut_ne_nil mark s) (List.cons_ne_nil q qs), intercalate_cut,
        List.append_assoc, List.singleton_append]
  · rintro (rfl | ⟨rest, rfl⟩)
    · exact List.prefix_refl _
    · rw [List.append_assoc, List.singleton_append, cut_append_mark]
      exact List.prefix_append _ _

/-- Behind a text without the mark, each part stands behind a mark of its own. -/
theorem cut_append_flatMap {mark : Char} {s : List Char} (h : mark ∉ s) {parts : List (List Char)}
    (hparts : ∀ p ∈ parts, mark ∉ p) : cut mark (s ++ parts.flatMap (mark :: ·)) = s :: parts := by
  induction parts generalizing s with
  | nil => rw [List.flatMap_nil, List.append_nil, cut_of_not_mem h]
  | cons p parts ih =>
    rw [List.flatMap_cons, List.cons_append, cut_append_mark, cut_of_not_mem h,
      ih (hparts p List.mem_cons_self) fun q hq => hparts q (List.mem_cons_of_mem p hq)]
    rfl

theorem not_mem_of_mem_cut {mark : Char} {s p : List Char} (h : p ∈ cut mark s) : mark ∉ p := by
  induction s generalizing p with
  | nil => simp_all
  | cons c rest ih =>
    obtain ⟨q, qs, e⟩ := List.exists_cons_of_ne_nil (cut_ne_nil mark rest)
    rw [e] at ih
    by_cases hc : c = mark
    · subst hc
      rw [cut_cons_mark, e, List.mem_cons] at h
      rcases h with rfl | h
      · simp
      · exact ih h
    · rw [cut_cons_of_ne hc, e, List.modifyHead_cons, List.mem_cons] at h
      rcases h with rfl | h
      · simpa [Ne.symm hc] using ih List.mem_cons_self
      · exact ih (List.mem_cons_of_mem _ h)

theorem mem_of_mem_cut {mark c : Char} {s p : List Char} (h : p ∈ cut mark s) (hc : c ∈ p) :
    c ∈ s := by
  induction s generalizing p with
  | nil =>
    rw [cut_nil, List.mem_singleton] at h
    rwa [h] at hc
  | cons d rest ih =>
    by_cases hd : d = mark
    · subst hd
      rw [cut_cons_mark, List.mem_cons] at h
      rcases h with rfl | h
      · cases hc
      · exact List.mem_cons_of_mem d (ih h hc)
    · obtain ⟨q, qs, e⟩ := List.exists_cons_of_ne_nil (cut_ne_nil mark rest)
      rw [cut_cons_of_ne hd, e, List.modifyHead_cons, List.mem_cons] at h
      rw [e] at ih
      rcases h with rfl | h
      · exact (List.mem_cons.mp hc).elim (fun h => h ▸ List.mem_cons_self)
          fun h => List.mem_cons_of_mem d (ih List.mem_cons_self h)
      · exact List.mem_cons_of_mem d (ih (List.mem_cons_of_mem q h) hc)

end ConsentGate.Text
