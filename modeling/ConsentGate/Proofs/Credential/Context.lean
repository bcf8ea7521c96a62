import ConsentGate.Proofs.Credential.Lines

/-! What stands around a credential does not hide it.

A pattern that looks at nothing behind its own match can match at the same place in the same way
whatever follows (`ways_followedBy`), so it occurs in every text around one in which it occurs
(`occursIn_append`). The shapes that are looked for besides are such patterns. Whatever is put before and
behind a text, and wherever that breaks a line, each of its lines stays in one piece
(`exists_mem_cut_append`); so what is found in the line is found in the whole (`isPresentBy_append`). -/
namespace ConsentGate
open Text
set_option autoImplicit false

namespace Text

variable {mark : Char} {part : List Char} {s t : Scan} {y : List Char}

/-! ## Parts of a longer text -/

/-- Each part of a text stands in a part of any longer text. -/
theorem exists_mem_cut_append {s : List Char} (h : part ∈ cut mark s) (a b : List Char) :
    ∃ before behind, before ++ part ++ behind ∈ cut mark (a ++ s ++ b) := by
  obtain ⟨before, hbefore⟩ : ∃ before, before ++ part ∈ cut mark (a ++ s) := by
    obtain ⟨front, last, head, back, _, hs, has⟩ := exists_cut_append mark a s
    rw [hs] at h
    rw [has]
    rcases List.mem_cons.mp h with rfl | h
    · exact ⟨last, by simp⟩
    · exact ⟨[], by simp [h]⟩
  obtain ⟨front, last, head, back, has, _, hasb⟩ := exists_cut_append mark (a ++ s) b
  rw [has] at hbefore
  rw [hasb]
  rcases List.mem_append.mp hbefore with hfront | hlast
  · exact ⟨before, [], by simp [hfront]⟩
  · exact ⟨before, head, by simp [List.mem_singleton.mp hlast]⟩

/-- The same place in a text that goes on. -/
def Scan.followedBy (s : Scan) (y : List Char) : Scan := { s with rest := s.rest ++ y }

theorem dropText?_append {same : Char → Char → Bool} {t s rest : List Char}
    (h : dropText? same t s = some rest) (y : List Char) :
    dropText? same t (s ++ y) = some (rest ++ y) := by
  induction t generalizing s with
  | nil =>
    cases h
    rfl
  | cons c t ih =>
    cases s with
    | nil => cases h
    | cons d s =>
      rw [dropText?] at h
      rw [List.cons_append, dropText?]
      split at h
      · rename_i hsame
        rw [if_pos hsame, ih h]
      · cases h

namespace Pattern

variable {p : Pattern}

/-! ## Ways to match in a longer text -/

/-- Whether some part of a pattern looks at what stands behind its match. -/
def looksBehind : Pattern → Bool
  | .seq p q | .either p q => p.looksBehind || q.looksBehind
  | .oneOrMore p | .capture _ p => p.looksBehind
  | .ahead _ | .atEnd => true
  | .empty | .char _ | .text _ _ | .run _ _ _ _ | .again _ => false

theorem exists_runRests (accepts : Char → Bool) (most : Option Nat) (s : List Char) :
    ∃ back, runRests accepts most s = s :: back := by
  unfold runRests
  split
  · exact ⟨[], rfl⟩
  · exact ⟨[], rfl⟩
  · exact ⟨_, rfl⟩

/-- Behind the runs of a text there may be longer ones in a text that goes on. -/
theorem runRests_append (accepts : Char → Bool) (most : Option Nat) (s y : List Char) :
    (runRests accepts most s).map (· ++ y) <+: runRests accepts most (s ++ y) := by
  induction s generalizing most with
  | nil =>
    obtain ⟨back, hback⟩ := exists_runRests accepts most y
    rw [runRests_nil, List.nil_append, hback]
    exact ⟨back, rfl⟩
  | cons c s ih =>
    by_cases hmost : most = some 0
    · rw [hmost, List.cons_append, runRests, runRests]
      exact List.prefix_rfl
    · rw [List.cons_append, runRests_cons accepts hmost, runRests_cons accepts hmost, List.map_cons,
        List.cons_append]
      split
      · exact (List.prefix_cons_inj _).mpr (ih _)
      · exact (List.prefix_cons_inj _).mpr List.prefix_rfl

theorem iterate_followedBy {step : Scan → List Scan}
    (hstep : ∀ s t, t ∈ step s → t.followedBy y ∈ step (s.followedBy y)) {fuel more : Nat}
    (hfuel : fuel ≤ more) (h : t ∈ iterate step fuel s) :
    t.followedBy y ∈ iterate step more (s.followedBy y) := by
  induction fuel generalizing s more with
  | zero => cases h
  | succ fuel ih =>
    obtain ⟨more, rfl⟩ := Nat.exists_eq_succ_of_ne_zero (show more ≠ 0 by omega)
    obtain ⟨u, hu, ht⟩ := List.mem_flatMap.mp h
    refine List.mem_flatMap.mpr ⟨u.followedBy y, hstep s u hu, List.mem_append.mpr ?_⟩
    rcases List.mem_append.mp ht with ht | ht
    · split at ht
      · rename_i hshorter
        have hlonger : (u.followedBy y).rest.length < (s.followedBy y).rest.length := by
          simp only [Scan.followedBy, List.length_append]
          omega
        rw [if_pos hlonger]
        exact Or.inl (ih (by omega) ht)
      · cases ht
    · exact Or.inr (List.mem_singleton.mpr (congrArg (Scan.followedBy · y) (List.mem_singleton.mp ht)))

theorem taken_append {before after : List Char} : taken (before ++ y) (after ++ y) = taken before after := by
  have hlength : (before ++ y).length - (after ++ y).length = before.length - after.length := by
    rw [List.length_append, List.length_append]
    omega
  rw [taken, taken, hlength, List.take_append_of_le_length (by omega)]

theorem ways_followedBy (hp : p.looksBehind = false) (h : t ∈ p.ways s) (y : List Char) :
    t.followedBy y ∈ p.ways (s.followedBy y) := by
  induction p generalizing s t with
  | empty => exact List.mem_singleton.mpr (congrArg (Scan.followedBy · y) (List.mem_singleton.mp h))
  | char accepts =>
    obtain ⟨rest, captured⟩ := s
    cases rest with
    | nil => cases h
    | cons c rest =>
      change t ∈ (if accepts c then [_] else []) at h
      change _ ∈ (if accepts c then [_] else [])
      split at h
      · rename_i hc
        rw [if_pos hc, List.mem_singleton.mp h]
        exact List.mem_singleton_self _
      · cases h
  | text same u =>
    rw [ways] at h ⊢
    split at h
    · rename_i rest hrest
      have hlonger : dropText? same u (s.followedBy y).rest = some (rest ++ y) :=
        dropText?_append hrest y
      rw [List.mem_singleton.mp h, hlonger]
      exact List.mem_singleton_self _
    · cases h
  | seq p q ihp ihq =>
    obtain ⟨hnotp, hnotq⟩ := Bool.or_eq_false_iff.mp hp
    obtain ⟨u, hu, ht⟩ := List.mem_flatMap.mp h
    exact List.mem_flatMap.mpr ⟨u.followedBy y, ihp hnotp hu, ihq hnotq ht⟩
  | either p q ihp ihq =>
    obtain ⟨hnotp, hnotq⟩ := Bool.or_eq_false_iff.mp hp
    exact List.mem_append.mpr ((List.mem_append.mp h).imp (ihp hnotp) (ihq hnotq))
  | run accepts least most shortFirst =>
    obtain ⟨rest, hrest, rfl⟩ := mem_ways_run.mp h
    refine mem_ways_run.mpr ⟨rest ++ y, ?_, rfl⟩
    obtain ⟨more, hmore⟩ := runRests_append accepts most s.rest y
    rw [Scan.followedBy, ← hmore, List.drop_append, ← List.map_drop]
    exact List.mem_append_left _ (List.mem_map_of_mem hrest)
  | oneOrMore p ih =>
    refine iterate_followedBy (fun s t ht => ih hp ht) ?_ h
    rw [Scan.followedBy, List.length_append]
    omega
  | capture n p ih =>
    obtain ⟨u, hu, rfl⟩ := List.mem_map.mp h
    refine List.mem_map.mpr ⟨u.followedBy y, ih hp hu, ?_⟩
    simp only [Scan.followedBy, taken_append]
  | again n =>
    rw [ways] at h ⊢
    split at h
    · cases h
    · rename_i u hu
      have hcaptured : (s.followedBy y).captured.lookup n = some u := hu
      rw [hcaptured]
      dsimp only
      split at h
      · rename_i rest hrest
        have hlonger : dropText? sameChar u (s.followedBy y).rest = some (rest ++ y) :=
          dropText?_append hrest y
        rw [List.mem_singleton.mp h, hlonger]
        exact List.mem_singleton_self _
      · cases h
  | ahead p ih => cases hp
  | atEnd => cases hp

/-! ## Occurrences -/

theorem matchHere?_eq_none_iff {s : List Char} : p.matchHere? s = none ↔ p.ways ⟨s, []⟩ = [] := by
  rw [matchHere?, Option.map_eq_none_iff, List.head?_eq_none_iff]

/-- A pattern occurs in a text if it can match somewhere in it. -/
theorem occursIn_iff {s : List Char} :
    p.occursIn s = true ↔ ∃ rest, rest <:+ s ∧ p.ways ⟨rest, []⟩ ≠ [] := by
  induction s with
  | nil =>
    rw [occursIn, search?, Option.isSome_map, ← Option.ne_none_iff_isSome, ne_eq, matchHere?_eq_none_iff]
    constructor
    · intro h
      exact ⟨[], List.suffix_rfl, h⟩
    · rintro ⟨rest, hrest, h⟩
      rwa [List.suffix_nil.mp hrest] at h
  | cons c s ih =>
    rw [occursIn] at ih
    rw [occursIn, search?]
    split
    · rename_i found rest hmatch
      refine iff_of_true rfl ⟨c :: s, List.suffix_rfl, fun hnil => ?_⟩
      rw [matchHere?_eq_none_iff.mpr hnil] at hmatch
      cases hmatch
    · rename_i hnone
      rw [ih]
      constructor
      · rintro ⟨rest, hrest, h⟩
        exact ⟨rest, hrest.trans (List.suffix_cons c s), h⟩
      · rintro ⟨rest, hrest, h⟩
        rcases List.suffix_cons_iff.mp hrest with rfl | hrest
        · exact absurd (matchHere?_eq_none_iff.mp hnone) h
        · exact ⟨rest, hrest, h⟩

theorem occursIn_append {s : List Char} (hp : p.looksBehind = false) (h : p.occursIn s = true)
    (x y : List Char) : p.occursIn (x ++ s ++ y) = true := by
  obtain ⟨rest, ⟨front, rfl⟩, hways⟩ := occursIn_iff.mp h
  obtain ⟨t, ht⟩ := List.exists_mem_of_ne_nil _ hways
  refine occursIn_iff.mpr ⟨rest ++ y, ⟨x ++ front, by simp⟩, ?_⟩
  exact List.ne_nil_of_mem (ways_followedBy hp ht y)

end Pattern

end Text

namespace Credential
open Pattern

variable {line s : List Char}

/-! ## Shapes that are looked for besides -/

theorem scanLineBesides_append (h : scanLineBesides line ≠ []) (x y : List Char) :
    scanLineBesides (x ++ line ++ y) ≠ [] := by
  have hshapes : ∀ p ∈ besideShapes, p.looksBehind = false := by decide
  rw [ne_eq, scanLineBesides_eq_nil_iff] at h ⊢
  intro hnone
  refine h fun p hp => Bool.eq_false_iff.mpr fun hoccurs => ?_
  have hlonger := occursIn_append (hshapes p hp) hoccurs x y
  rw [hnone p hp] at hlonger
  cases hlonger

/-- What the shapes besides find in a line of a text makes every longer text one with a credential,
whatever the scanner finds or misses. -/
theorem isPresentBy_append (hline : line ∈ lines s) (hfound : scanLineBesides line ≠ [])
    (detect : List Char → List String) (a b : List Char) :
    isPresentBy detect (a ++ s ++ b) = true := by
  obtain ⟨x, y, hmem⟩ := exists_mem_cut_append hline a b
  have hlonger := scanLineBesides_append hfound x y
  have hfindings : findingsBy detect (a ++ s ++ b) ≠ [] := fun hnil =>
    hlonger (findingsBy_eq_nil_iff.mp hnil _ hmem).2
  have hblank : allBlank (a ++ s ++ b) = false := by
    refine Bool.eq_false_iff.mpr fun hblank => ?_
    exact hlonger (scanLineBesides_of_blank (allBlank_of_mem_lines hblank hmem))
  rw [isPresentBy, hblank, List.isEmpty_eq_false_iff.mpr hfindings]
  rfl

end Credential

end ConsentGate
