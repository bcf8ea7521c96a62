import ConsentGate.Failure
import ConsentGate.Sorting.Basic

/-! Sorting loses no item.

Whatever the comparison answers, and even if it is no order: a list that has been sorted holds the items
it held before, each as often (`sort_perm`). Every step is followed by counting an item. -/
namespace ConsentGate.Sorting
set_option autoImplicit false

variable {α ε : Type} {lt : α → α → Except ε Bool}

/-! ## Runs -/

theorem falling_perm {last : α} {done items taken rest : List α}
    (h : falling lt last done items = .ok (taken, rest)) :
    (taken ++ rest).Perm (last :: (done ++ items)) := by
  induction items generalizing last done with
  | nil =>
    cases h
    exact .refl _
  | cons x items ih =>
    obtain ⟨before, _, h⟩ := bind_eq_ok.mp h
    split at h
    · exact (ih h).trans (@List.perm_middle _ x (last :: done) items).symm
    · cases h
      exact .refl _

theorem rising_perm {last : α} {done items taken rest : List α}
    (h : rising lt last done items = .ok (taken, rest)) :
    (taken ++ rest).Perm (last :: (done ++ items)) := by
  induction items generalizing last done with
  | nil =>
    cases h
    exact (List.reverse_perm _).append_right []
  | cons x items ih =>
    obtain ⟨before, _, h⟩ := bind_eq_ok.mp h
    split at h
    · cases h
      exact (List.reverse_perm _).append_right _
    · exact (ih h).trans (@List.perm_middle _ x (last :: done) items).symm

theorem run_perm {items taken rest : List α} (h : run lt items = .ok (taken, rest)) :
    (taken ++ rest).Perm items := by
  match items with
  | [] =>
    cases h
    exact .refl _
  | [x] =>
    cases h
    exact .refl _
  | x :: y :: items =>
    obtain ⟨before, _, h⟩ := bind_eq_ok.mp h
    split at h
    · exact (falling_perm h).trans (.swap x y items)
    · exact (rising_perm h).trans (.swap x y items)

theorem place_perm {x : α} {sorted placed : List α} (h : place lt x sorted = .ok placed) :
    placed.Perm (x :: sorted) := by
  generalize hn : sorted.length = n
  induction n using Nat.strongRecOn generalizing sorted placed with
  | ind n ih =>
    have hhalves := List.take_append_drop (sorted.length / 2) sorted
    rw [place] at h
    split at h
    · rename_i hdrop
      cases h
      have hlength := List.drop_eq_nil_iff.mp hdrop
      have hnil : sorted = [] := List.length_eq_zero_iff.mp (by omega)
      rw [hnil]
    · rename_i y after hdrop
      have hlength := congrArg List.length hdrop
      rw [List.length_drop, List.length_cons] at hlength
      rw [hdrop] at hhalves
      obtain ⟨before, _, h⟩ := bind_eq_ok.mp h
      split at h
      · obtain ⟨front, hfront, h⟩ := bind_eq_ok.mp h
        cases h
        have hperm := ih _ (by rw [List.length_take]; omega) hfront rfl
        refine (hperm.append_right _).trans ?_
        rw [List.cons_append, hhalves]
      · obtain ⟨back, hback, h⟩ := bind_eq_ok.mp h
        cases h
        have hperm := ih _ (by omega) hback rfl
        refine ((hperm.cons y).append_left _).trans ?_
        refine (List.Perm.append_left _ (.swap x y after)).trans ?_
        refine List.perm_middle.trans ?_
        rw [hhalves]

theorem foldlM_place_perm {items sorted placed : List α}
    (h : items.foldlM (fun sorted x => place lt x sorted) sorted = .ok placed) :
    placed.Perm (sorted ++ items) := by
  induction items generalizing sorted with
  | nil =>
    cases h
    rw [List.append_nil]
  | cons x items ih =>
    rw [List.foldlM_cons] at h
    obtain ⟨next, hnext, h⟩ := bind_eq_ok.mp h
    exact (ih h).trans (((place_perm hnext).append_right items).trans List.perm_middle.symm)

theorem falling_ne_nil {last : α} {done items taken rest : List α}
    (h : falling lt last done items = .ok (taken, rest)) : taken ≠ [] := by
  induction items generalizing last done with
  | nil =>
    cases h
    exact List.cons_ne_nil _ _
  | cons x items ih =>
    obtain ⟨before, _, h⟩ := bind_eq_ok.mp h
    split at h
    · exact ih h
    · cases h
      exact List.cons_ne_nil _ _

theorem rising_ne_nil {last : α} {done items taken rest : List α}
    (h : rising lt last done items = .ok (taken, rest)) : taken ≠ [] := by
  induction items generalizing last done with
  | nil =>
    cases h
    simp
  | cons x items ih =>
    obtain ⟨before, _, h⟩ := bind_eq_ok.mp h
    split at h
    · cases h
      simp
    · exact ih h

/-- A run takes one item at least. -/
theorem run_ne_nil {items taken rest : List α} (h : run lt items = .ok (taken, rest))
    (hne : items ≠ []) : taken ≠ [] := by
  match items with
  | [] => exact absurd rfl hne
  | [x] =>
    cases h
    exact List.cons_ne_nil _ _
  | x :: y :: items =>
    obtain ⟨before, _, h⟩ := bind_eq_ok.mp h
    split at h
    · exact falling_ne_nil h
    · exact rising_ne_nil h

theorem longRun_perm {least : Nat} {items taken rest : List α}
    (h : longRun lt least items = .ok (taken, rest)) : (taken ++ rest).Perm items := by
  obtain ⟨⟨sorted, others⟩, hrun, h⟩ := bind_eq_ok.mp h
  obtain ⟨grown, hgrown, h⟩ := bind_eq_ok.mp h
  cases h
  refine ((foldlM_place_perm hgrown).append_right _).trans ?_
  rw [List.append_assoc, List.take_append_drop]
  exact run_perm hrun

theorem longRun_length_lt {least : Nat} {items taken rest : List α}
    (h : longRun lt least items = .ok (taken, rest)) (hne : items ≠ []) :
    rest.length < items.length := by
  have hlength := (longRun_perm h).length_eq
  obtain ⟨⟨sorted, others⟩, hrun, h⟩ := bind_eq_ok.mp h
  obtain ⟨grown, hgrown, h⟩ := bind_eq_ok.mp h
  cases h
  have hsorted := List.length_pos_iff.mpr (run_ne_nil hrun hne)
  have htaken := (foldlM_place_perm hgrown).length_eq
  rw [List.length_append] at hlength htaken
  omega

/-! ## Merges -/

section Counting

variable [BEq α]

theorem count_take_add_count_drop (x : α) (k : Nat) (items : List α) :
    (items.take k).count x + (items.drop k).count x = items.count x := by
  rw [← List.count_append, List.take_append_drop]

theorem mergeFront_count {pace : Pace} {threshold threshold' : Nat} {a b out merged : List α}
    (h : mergeFront lt pace threshold a b out = .ok (merged, threshold')) (c : α) :
    merged.count c = out.count c + a.count c + b.count c := by
  generalize hn : a.length + b.length = n
  induction n using Nat.strongRecOn generalizing pace threshold a b out with
  | ind n ih =>
    unfold mergeFront at h
    split at h
    · cases h
      simp only [List.count_append, List.count_reverse, List.count_nil, Nat.add_zero]
    · cases h
      simp only [List.count_append, List.count_reverse, List.count_nil, Nat.add_zero]
    · cases h
      simp only [List.count_append, List.count_reverse]
      omega
    · rename_i x y a z b
      split at h
      · obtain ⟨before, _, h⟩ := bind_eq_ok.mp h
        split at h
        · have hrest := ih _ (by simp only [List.length_cons] at hn ⊢; omega) h rfl
          simp only [List.count_cons] at hrest ⊢
          omega
        · have hrest := ih _ (by simp only [List.length_cons] at hn ⊢; omega) h rfl
          simp only [List.count_cons] at hrest ⊢
          omega
      · obtain ⟨k, _, h⟩ := bind_eq_ok.mp h
        have hk := count_take_add_count_drop c k (x :: y :: a)
        dsimp only at h
        split at h
        · rename_i hdrop
          cases h
          rw [hdrop] at hk
          simp only [List.count_append, List.count_reverse, List.count_nil] at hk ⊢
          omega
        · rename_i w hdrop
          cases h
          rw [hdrop] at hk
          simp only [List.count_append, List.count_reverse] at hk ⊢
          omega
        · rename_i w v rest hdrop
          obtain ⟨m, _, h⟩ := bind_eq_ok.mp h
          have hm := count_take_add_count_drop c m b
          have hfront := drop_length_lt hdrop
          rw [hdrop] at hk
          split at h
          · rename_i hdrop'
            cases h
            rw [hdrop'] at hm
            simp only [List.count_append, List.count_reverse, List.count_cons, List.count_nil] at *
            omega
          · rename_i u others hdrop'
            have hback := drop_length_le hdrop'
            rw [hdrop'] at hm
            split at h
            · rename_i hempty
              cases h
              rw [List.isEmpty_iff.mp hempty] at hk
              simp only [List.count_append, List.count_reverse, List.count_cons, List.count_nil] at *
              omega
            · have hrest := ih _ (by simp only [List.length_cons] at *; omega) h rfl
              simp only [List.count_append, List.count_reverse, List.count_cons] at *
              omega

theorem mergeBack_count {pace : Pace} {threshold threshold' : Nat} {a b out merged : List α}
    (h : mergeBack lt pace threshold a b out = .ok (merged, threshold')) (c : α) :
    merged.count c = out.count c + a.count c + b.count c := by
  generalize hn : a.length + b.length = n
  induction n using Nat.strongRecOn generalizing pace threshold a b out with
  | ind n ih =>
    unfold mergeBack at h
    split at h
    · cases h
      simp only [List.count_append, List.count_reverse, List.count_nil]
      omega
    · cases h
      simp only [List.count_append, List.count_reverse, List.count_nil]
      omega
    · cases h
      simp only [List.count_append, List.count_reverse, List.count_cons, List.count_nil]
      omega
    · rename_i x a z y b
      split at h
      · obtain ⟨before, _, h⟩ := bind_eq_ok.mp h
        split at h
        · have hrest := ih _ (by simp only [List.length_cons] at hn ⊢; omega) h rfl
          simp only [List.count_cons] at hrest ⊢
          omega
        · have hrest := ih _ (by simp only [List.length_cons] at hn ⊢; omega) h rfl
          simp only [List.count_cons] at hrest ⊢
          omega
      · obtain ⟨k, _, h⟩ := bind_eq_ok.mp h
        have hk := count_take_add_count_drop c (a.length + 1 - k) (x :: a)
        dsimp only at h
        split at h
        · rename_i hdrop
          cases h
          rw [hdrop] at hk
          simp only [List.count_append, List.count_reverse, List.count_cons, List.count_nil] at hk ⊢
          omega
        · rename_i w rest hdrop
          have hfront := drop_length_lt hdrop
          rw [hdrop] at hk
          split at h
          · rename_i hempty
            cases h
            rw [List.isEmpty_iff.mp hempty]
            simp only [List.count_append, List.count_reverse, List.count_cons, List.count_nil] at hk ⊢
            omega
          · obtain ⟨m, _, h⟩ := bind_eq_ok.mp h
            have hm := count_take_add_count_drop c (b.length + 1 - m) (y :: b)
            split at h
            · rename_i hdrop'
              cases h
              rw [hdrop'] at hm
              simp only [List.count_append, List.count_reverse, List.count_cons, List.count_nil] at *
              omega
            · rename_i u hdrop'
              cases h
              rw [hdrop'] at hm
              simp only [List.count_append, List.count_reverse, List.count_cons, List.count_nil] at *
              omega
            · rename_i u v others hdrop'
              have hback := drop_length_le hdrop'
              rw [hdrop'] at hm
              split at h
              · rename_i hempty
                cases h
                rw [List.isEmpty_iff.mp hempty] at hk
                simp only [List.count_append, List.count_reverse, List.count_cons, List.count_nil] at *
                omega
              · have hrest := ih _ (by simp only [List.length_cons] at *; omega) h rfl
                simp only [List.count_append, List.count_reverse, List.count_cons] at *
                omega

theorem merge_count {threshold threshold' : Nat} {a b merged : List α}
    (h : merge lt threshold a b = .ok (merged, threshold')) (c : α) :
    merged.count c = a.count c + b.count c := by
  unfold merge at h
  split at h
  · cases h
    rw [List.count_nil, Nat.add_zero]
  · rename_i z rest
    obtain ⟨k, _, h⟩ := bind_eq_ok.mp h
    have hk := count_take_add_count_drop c k a
    split at h
    · cases h
      exact List.count_append
    · rename_i last before hbefore
      have hend : (a.drop k).count c = [last].count c + before.count c := by
        rw [← List.count_reverse, hbefore, ← List.count_append, List.singleton_append]
      obtain ⟨m, _, h⟩ := bind_eq_ok.mp h
      have hm := count_take_add_count_drop c m (z :: rest)
      split at h
      · cases h
        exact List.count_append
      · rename_i first others hfirst
        have hstart : ((z :: rest).take m).count c = [first].count c + others.count c := by
          rw [hfirst, ← List.count_append, List.singleton_append]
        split at h
        · obtain ⟨⟨middle, _⟩, hmiddle, h⟩ := bind_eq_ok.mp h
          cases h
          have hfront := mergeFront_count hmiddle c
          simp only [List.count_append]
          omega
        · obtain ⟨⟨middle, _⟩, hmiddle, h⟩ := bind_eq_ok.mp h
          cases h
          have hback := mergeBack_count hmiddle c
          rw [List.count_reverse, ← hfirst] at hback
          simp only [List.count_append]
          omega

end Counting

theorem merge_perm {threshold threshold' : Nat} {a b merged : List α}
    (h : merge lt threshold a b = .ok (merged, threshold')) : merged.Perm (a ++ b) := by
  classical
  refine List.perm_iff_count.mpr fun c => ?_
  rw [merge_count h c, List.count_append]

/-! ## The whole list -/

/-- The items of runs that wait to be merged. -/
def Pending.items (runs : List (Pending α)) : List α := runs.flatMap (·.run)

theorem Pending.items_cons (p : Pending α) (runs : List (Pending α)) :
    Pending.items (p :: runs) = p.run ++ Pending.items runs := List.flatMap_cons

theorem Pending.items_merge {threshold threshold' p : Nat} {top below : Pending α}
    {merged : List α} (h : merge lt threshold below.run top.run = .ok (merged, threshold'))
    (rest : List (Pending α)) :
    (Pending.items (⟨merged, p⟩ :: rest)).Perm (Pending.items (top :: below :: rest)) := by
  rw [items_cons, items_cons, items_cons, ← List.append_assoc]
  exact ((merge_perm h).trans List.perm_append_comm).append_right _

theorem collapse_perm {depth threshold threshold' : Nat} {runs collapsed : List (Pending α)}
    (h : collapse lt depth threshold runs = .ok (collapsed, threshold')) :
    (Pending.items collapsed).Perm (Pending.items runs) := by
  generalize hn : runs.length = n
  induction n using Nat.strongRecOn generalizing threshold runs with
  | ind n ih =>
    unfold collapse at h
    split at h
    · split at h
      · obtain ⟨⟨merged, threshold⟩, hmerged, h⟩ := bind_eq_ok.mp h
        have hrest := ih _ (by simp only [List.length_cons] at hn ⊢; omega) h rfl
        exact hrest.trans (Pending.items_merge hmerged _)
      · cases h
        exact .refl _
    · cases h
      exact .refl _

theorem finish_perm {threshold : Nat} {runs : List (Pending α)} {sorted : List α}
    (h : finish lt threshold runs = .ok sorted) : sorted.Perm (Pending.items runs) := by
  generalize hn : runs.length = n
  induction n using Nat.strongRecOn generalizing threshold runs with
  | ind n ih =>
    unfold finish at h
    split at h
    · cases h
      exact .refl _
    · cases h
      rw [Pending.items_cons]
      exact (List.append_nil _).symm ▸ .refl _
    · obtain ⟨⟨merged, _⟩, hmerged, h⟩ := bind_eq_ok.mp h
      cases h
      have hitems := Pending.items_merge (p := 0) hmerged []
      rwa [Pending.items_cons, Pending.items, List.flatMap_nil, List.append_nil] at hitems
    · split at h
      · obtain ⟨⟨merged, threshold⟩, hmerged, h⟩ := bind_eq_ok.mp h
        have hrest := ih _ (by simp only [List.length_cons] at hn ⊢; omega) h rfl
        rw [Pending.items_cons] at hrest ⊢
        exact hrest.trans ((Pending.items_merge hmerged _).append_left _)
      · obtain ⟨⟨merged, threshold⟩, hmerged, h⟩ := bind_eq_ok.mp h
        have hrest := ih _ (by simp only [List.length_cons] at hn ⊢; omega) h rfl
        exact hrest.trans (Pending.items_merge hmerged _)

theorem sortRuns_perm {n fuel threshold : Nat} {runs : List (Pending α)} {items sorted : List α}
    (h : sortRuns lt n fuel threshold runs items = .ok sorted) (hfuel : items.length ≤ fuel) :
    sorted.Perm (Pending.items runs ++ items) := by
  induction fuel generalizing threshold runs items with
  | zero =>
    have hnil : items = [] := List.length_eq_zero_iff.mp (by omega)
    rw [hnil, List.append_nil]
    exact finish_perm h
  | succ fuel ih =>
    cases items with
    | nil =>
      rw [List.append_nil]
      exact finish_perm h
    | cons x items =>
      obtain ⟨⟨next, rest⟩, hnext, h⟩ := bind_eq_ok.mp h
      have hshorter := longRun_length_lt hnext (List.cons_ne_nil x items)
      -- The next run goes on top of those that wait, and what waits is merged or left alone.
      have hmoved : ∀ waiting p, (Pending.items (⟨next, p⟩ :: waiting) ++ rest).Perm
          (Pending.items waiting ++ x :: items) := by
        intro waiting p
        rw [Pending.items_cons, List.append_assoc]
        refine List.perm_append_comm_assoc _ _ _ |>.trans ?_
        exact (longRun_perm hnext).append_left _
      dsimp only at h
      split at h
      · exact (ih h (by omega)).trans (hmoved [] 0)
      · rename_i top below
        obtain ⟨⟨collapsed, threshold⟩, hcollapsed, h⟩ := bind_eq_ok.mp h
        have hsame := (collapse_perm hcollapsed).append_right (x :: items)
        dsimp only at h
        split at h
        · exact (ih h (by omega)).trans ((hmoved [] 0).trans hsame)
        · exact (ih h (by omega)).trans ((hmoved _ 0).trans hsame)

/-- What has been sorted holds the items it held before. -/
theorem sort_perm {items sorted : List α} (h : sort lt items = .ok sorted) : sorted.Perm items :=
  sortRuns_perm h (Nat.le_refl _)

end ConsentGate.Sorting
