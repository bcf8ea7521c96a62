import ConsentGate.Credential.Scan

/-! Texts in which no credential can be.

Each shape of a credential asks somewhere for a character that is neither a digit nor a hyphen. Whether
a pattern asks for a character outside some given ones can be computed (`Pattern.asksBeyond`), and such a
pattern has no way to match in a text made of these (`ways_eq_nil`). So the detectors find nothing in
digits and hyphens alone (`scanLine_of_numeric`), whatever the filters, and with any line scanner of which
that holds such a text carries no credential (`isPresentBy_of_numeric`). -/
namespace ConsentGate
open Text
set_option autoImplicit false

namespace Text.Pattern

variable {p : Pattern} {s t : Scan} {allowed : List Char}

/-! ## What is still to come -/

theorem runRests_nil (accepts : Char → Bool) (most : Option Nat) : runRests accepts most [] = [[]] := by
  cases most with
  | none => rfl
  | some n => cases n <;> rfl

theorem runRests_cons (accepts : Char → Bool) {most : Option Nat} (h : most ≠ some 0) (c : Char)
    (s : List Char) : runRests accepts most (c :: s) =
      (c :: s) :: (if accepts c then runRests accepts (most.map (· - 1)) s else []) := by
  cases most with
  | none => rfl
  | some n =>
    cases n with
    | zero => exact absurd rfl h
    | succ n => rfl

theorem runRests_suffix {accepts : Char → Bool} {most : Option Nat} {s rest : List Char}
    (h : rest ∈ runRests accepts most s) : rest <:+ s := by
  induction s generalizing most with
  | nil =>
    rw [runRests_nil, List.mem_singleton] at h
    exact h ▸ List.suffix_rfl
  | cons c s ih =>
    by_cases hmost : most = some 0
    · rw [hmost, runRests] at h
      exact List.mem_singleton.mp h ▸ List.suffix_rfl
    · rw [runRests_cons accepts hmost] at h
      rcases List.mem_cons.mp h with rfl | h
      · exact List.suffix_rfl
      · split at h
        · exact (ih h).trans (List.suffix_cons _ _)
        · cases h

theorem mem_ways_run {accepts : Char → Bool} {least : Nat} {most : Option Nat} {shortFirst : Bool} :
    t ∈ (run accepts least most shortFirst).ways s ↔
      ∃ rest ∈ (runRests accepts most s.rest).drop least, t = { s with rest := rest } := by
  rw [ways, List.mem_map]
  cases shortFirst <;> simp only [if_true, Bool.false_eq_true, if_false, List.mem_reverse, eq_comm]

theorem dropText?_suffix {same : Char → Char → Bool} {t s rest : List Char}
    (h : dropText? same t s = some rest) : rest <:+ s := by
  induction t generalizing s with
  | nil =>
    cases h
    exact List.suffix_rfl
  | cons c t ih =>
    cases s with
    | nil => cases h
    | cons d s =>
      rw [dropText?] at h
      split at h
      · exact (ih h).trans (List.suffix_cons _ _)
      · cases h

theorem iterate_suffix {step : Scan → List Scan} (hstep : ∀ s t, t ∈ step s → t.rest <:+ s.rest)
    {fuel : Nat} (h : t ∈ iterate step fuel s) : t.rest <:+ s.rest := by
  induction fuel generalizing s with
  | zero => cases h
  | succ fuel ih =>
    obtain ⟨u, hu, ht⟩ := List.mem_flatMap.mp h
    rcases List.mem_append.mp ht with ht | ht
    · split at ht
      · exact (ih ht).trans (hstep s u hu)
      · cases ht
    · rw [List.mem_singleton.mp ht]
      exact hstep s u hu

/-- A match ends behind the place where it began. -/
theorem ways_suffix (h : t ∈ p.ways s) : t.rest <:+ s.rest := by
  induction p generalizing s t with
  | empty => exact List.mem_singleton.mp h ▸ List.suffix_rfl
  | char accepts =>
    rw [ways] at h
    split at h
    · cases h
    · rename_i c rest hrest
      split at h
      · rw [List.mem_singleton.mp h, hrest]
        exact List.suffix_cons _ _
      · cases h
  | text same u =>
    rw [ways] at h
    split at h
    · rename_i rest hrest
      rw [List.mem_singleton.mp h]
      exact dropText?_suffix hrest
    · cases h
  | seq p q ihp ihq =>
    obtain ⟨u, hu, ht⟩ := List.mem_flatMap.mp h
    exact (ihq ht).trans (ihp hu)
  | either p q ihp ihq => exact (List.mem_append.mp h).elim ihp ihq
  | run accepts least most shortFirst =>
    obtain ⟨rest, hrest, rfl⟩ := mem_ways_run.mp h
    exact runRests_suffix (List.mem_of_mem_drop hrest)
  | oneOrMore p ih => exact iterate_suffix (fun s t => ih) h
  | capture n p ih =>
    obtain ⟨u, hu, rfl⟩ := List.mem_map.mp h
    exact ih (t := u) hu
  | again n =>
    rw [ways] at h
    split at h
    · cases h
    · split at h
      · rename_i rest hrest
        rw [List.mem_singleton.mp h]
        exact dropText?_suffix hrest
      · cases h
  | ahead p ih =>
    obtain ⟨u, _, rfl⟩ := List.mem_map.mp h
    exact List.suffix_rfl
  | atEnd =>
    rw [ways] at h
    split at h
    · exact List.mem_singleton.mp h ▸ List.suffix_rfl
    · cases h

/-! ## Patterns that ask for more -/

/-- Every match takes or looks at a character that is none of the given ones. -/
def asksBeyond (allowed : List Char) : Pattern → Bool
  | .char accepts => allowed.all fun c => !accepts c
  | .text same t => t.any fun c => allowed.all fun d => !same c d
  | .seq p q => p.asksBeyond allowed || q.asksBeyond allowed
  | .either p q => p.asksBeyond allowed && q.asksBeyond allowed
  | .run accepts least _ _ => decide (0 < least) && allowed.all fun c => !accepts c
  | .oneOrMore p | .capture _ p | .ahead p => p.asksBeyond allowed
  | .empty | .again _ | .atEnd => false

theorem rejects_of_all {accepts : Char → Bool} (h : (allowed.all fun c => !accepts c) = true) {c : Char}
    (hc : c ∈ allowed) : accepts c = false := by
  simpa using List.all_eq_true.mp h c hc

theorem dropText?_eq_none {same : Char → Char → Bool} {t s : List Char}
    (h : (t.any fun c => allowed.all fun d => !same c d) = true) (hs : s ⊆ allowed) :
    dropText? same t s = none := by
  induction t generalizing s with
  | nil => cases h
  | cons c t ih =>
    cases s with
    | nil => rfl
    | cons d s =>
      obtain ⟨hd, hs⟩ := List.cons_subset.mp hs
      rw [List.any_cons, Bool.or_eq_true] at h
      rw [dropText?]
      split
      · rename_i hsame
        rcases h with h | h
        · rw [rejects_of_all h hd] at hsame
          cases hsame
        · exact ih h hs
      · rfl

/-- Where the next character is rejected, a run is empty. -/
theorem runRests_of_rejected {accepts : Char → Bool} {s : List Char}
    (h : ∀ c ∈ s, accepts c = false) (most : Option Nat) : runRests accepts most s = [s] := by
  unfold runRests
  split
  · rfl
  · rfl
  · rw [h _ List.mem_cons_self, if_neg (by decide)]

theorem ways_eq_nil (h : p.asksBeyond allowed = true) (hs : s.rest ⊆ allowed) : p.ways s = [] := by
  induction p generalizing s with
  | empty => cases h
  | char accepts =>
    rw [ways]
    split
    · rfl
    · rename_i c rest hrest
      rw [hrest] at hs
      rw [rejects_of_all h (List.cons_subset.mp hs).1, if_neg (by decide)]
  | text same t => rw [ways, dropText?_eq_none h hs]
  | seq p q ihp ihq =>
    rw [ways, List.flatMap_eq_nil_iff]
    intro t ht
    rw [asksBeyond, Bool.or_eq_true] at h
    -- If the second part asks for more, the first one leaves it only characters of the text.
    rcases h with h | h
    · rw [ihp h hs] at ht
      cases ht
    · exact ihq h (List.Subset.trans (ways_suffix ht).subset hs)
  | either p q ihp ihq =>
    rw [asksBeyond, Bool.and_eq_true] at h
    rw [ways, ihp h.1 hs, ihq h.2 hs, List.append_nil]
  | run accepts least most shortFirst =>
    rw [asksBeyond, Bool.and_eq_true, decide_eq_true_eq] at h
    have hrests := runRests_of_rejected (fun c hc => rejects_of_all h.2 (hs hc)) most
    have hdrop : [s.rest].drop least = [] := List.drop_eq_nil_of_le h.1
    rw [ways, hrests, hdrop]
    simp
  | oneOrMore p ih => rw [ways, iterate, ih h hs, List.flatMap_nil]
  | capture n p ih => rw [ways, ih h hs, List.map_nil]
  | again n => cases h
  | ahead p ih => rw [ways, ih h hs, List.take_nil, List.map_nil]
  | atEnd => cases h

theorem matchHere?_eq_none {s : List Char} (h : p.asksBeyond allowed = true) (hs : s ⊆ allowed) :
    p.matchHere? s = none := by
  rw [matchHere?, ways_eq_nil h hs]
  rfl

theorem search?_eq_none {s : List Char} (h : p.asksBeyond allowed = true) (hs : s ⊆ allowed) :
    p.search? s = none := by
  induction s with
  | nil => rw [search?, matchHere?_eq_none h hs, Option.map_none]
  | cons c s ih => rw [search?, matchHere?_eq_none h hs, ih (List.cons_subset.mp hs).2]

theorem findAll_eq_nil {s : List Char} (h : p.asksBeyond allowed = true) (hs : s ⊆ allowed) :
    p.findAll s = [] := by
  rw [findAll]
  induction s with
  | nil => rfl
  | cons c s ih => rw [findAllAfter, matchHere?_eq_none h hs, ih (List.cons_subset.mp hs).2]

end Text.Pattern

namespace Credential
open Pattern

variable {allowed line s : List Char} {shapes : List Pattern}

/-! ## Scanning -/

theorem allMatches_eq_nil (h : ∀ p ∈ shapes, p.asksBeyond allowed = true) (hline : line ⊆ allowed) :
    allMatches shapes line = [] := by
  rw [allMatches, List.flatMap_eq_nil_iff]
  intro p hp
  rw [findAll_eq_nil (h p hp) hline, List.map_nil]

theorem firstMatches_eq_nil (h : ∀ p ∈ shapes, p.asksBeyond allowed = true) (hline : line ⊆ allowed) :
    firstMatches shapes line = [] := by
  rw [firstMatches, List.filterMap_eq_nil_iff]
  intro p hp
  rw [search?_eq_none (h p hp) hline, Option.map_none]

theorem scan_eq_nil {d : Detector} (h : d.candidates line = []) : d.scan line = [] := by
  rw [Detector.scan, h]
  rfl

/-- The shapes that the detectors look for. -/
def detectedShapes : List Pattern :=
  [awsKeyId, awsSecretKey, basicAuth, gitHubToken, webToken, slackToken, slackHook, stripeKey] ++
    keywordShapes ++ privateKeyHeaders

/-- The shapes that are looked for besides. -/
def besideShapes : List Pattern := accessKeyId :: apiKeyShapes ++ connectionShapes

theorem scanLine_eq_nil (h : ∀ p ∈ detectedShapes, p.asksBeyond allowed = true)
    (hline : line ⊆ allowed) : scanLine line = [] := by
  have hmatches : ∀ shapes ⊆ detectedShapes, allMatches shapes line = [] := fun shapes hshapes =>
    allMatches_eq_nil (fun p hp => h p (hshapes hp)) hline
  have hkeywords : firstMatches keywordShapes line = [] :=
    firstMatches_eq_nil (fun p hp => h p (by simp [detectedShapes, hp])) hline
  rw [scanLine, List.flatMap_eq_nil_iff]
  intro d hd
  refine scan_eq_nil ?_
  simp only [detectors, List.mem_cons, List.not_mem_nil, or_false] at hd
  rcases hd with rfl | rfl | rfl | rfl | rfl | rfl | rfl | rfl
  · exact hmatches _ (by simp [detectedShapes])
  · exact hmatches _ (by simp [detectedShapes])
  · exact hmatches _ (by simp [detectedShapes])
  · dsimp only
    rw [hmatches [webToken] (by simp [detectedShapes]), List.filter_nil]
  · exact hkeywords
  · exact hmatches _ (List.subset_append_right _ _)
  · exact hmatches _ (by simp [detectedShapes])
  · exact hmatches _ (by simp [detectedShapes])

theorem scanLineBesides_eq_nil_iff :
    scanLineBesides line = [] ↔ ∀ p ∈ besideShapes, p.occursIn line = false := by
  simp [scanLineBesides, besideShapes, or_imp, forall_and]

theorem scanLineBesides_eq_nil (h : ∀ p ∈ besideShapes, p.asksBeyond allowed = true)
    (hline : line ⊆ allowed) : scanLineBesides line = [] := by
  rw [scanLineBesides_eq_nil_iff]
  intro p hp
  rw [occursIn, search?_eq_none (h p hp) hline]
  rfl

theorem inLines_eq_nil_iff {scan : List Char → List String} {first : Nat} {lines : List (List Char)} :
    inLines scan first lines = [] ↔ ∀ line ∈ lines, scan line = [] := by
  induction lines generalizing first with
  | nil => simp [inLines]
  | cons line rest ih =>
    rw [inLines, List.append_eq_nil_iff, List.map_eq_nil_iff, ih, List.forall_mem_cons]

/-- Nothing is found in a text where nothing is found in any line. -/
theorem findingsBy_eq_nil_iff {detect : List Char → List String} :
    findingsBy detect s = [] ↔
      ∀ line ∈ lines s, detect line = [] ∧ scanLineBesides line = [] := by
  rw [findingsBy, List.append_eq_nil_iff, inLines_eq_nil_iff, inLines_eq_nil_iff]
  constructor
  · rintro ⟨hdetect, hbesides⟩ line hline
    exact ⟨hdetect line hline, hbesides line hline⟩
  · intro h
    exact ⟨fun line hline => (h line hline).1, fun line hline => (h line hline).2⟩

/-! ## Digits and hyphens -/

/-- The characters of texts such as 2024-03. -/
def numericChars : List Char := "0123456789-".toList

theorem scanLine_of_numeric (h : line ⊆ numericChars) : scanLine line = [] :=
  scanLine_eq_nil (by decide +kernel) h

/-- A text of such characters is one line, so it holds a credential only if the line scanner says so. -/
theorem isPresentBy_of_numeric {detect : List Char → List String} (h : s ⊆ numericChars)
    (hdetect : detect s = []) : isPresentBy detect s = false := by
  have hline : lines s = [s] := cut_of_not_mem fun hbreak => absurd (h hbreak) (by decide)
  have hfindings : findingsBy detect s = [] := by
    rw [findingsBy_eq_nil_iff, hline, List.forall_mem_singleton]
    exact ⟨hdetect, scanLineBesides_eq_nil (by decide +kernel) h⟩
  rw [isPresentBy, hfindings]
  exact Bool.and_false _

end Credential

end ConsentGate
