import ConsentGate.Sorting.Search

/-! Merging of two neighbouring runs.

Items are taken one by one until one run has won several times in a row; then that run is searched for
how far it goes on winning, and the whole stretch is taken at once. How many wins it takes is the
`threshold`: it falls while searching pays and rises when it does not, and one merge hands it on to
the next. The merge goes from the end at which the shorter run lies. -/
namespace ConsentGate.Sorting
set_option autoImplicit false

variable {α ε : Type}

/-! ## The pace of a merge -/

/-- How items are taken: singly, with the wins in a row of the first and of the second run, or in
stretches. -/
inductive Pace where
  | single (first second : Nat)
  | stretches

/-- How long a stretch must be for another search to pay; also the threshold of a first merge. -/
def leastStretch : Nat := 7

/-- The pace once a run has won so many times in a row. -/
def Pace.ofWins (threshold wins : Nat) (otherwise : Pace) : Pace :=
  if threshold ≤ wins then .stretches else otherwise

/-- The pace and the threshold after stretches of two lengths. -/
def Pace.ofStretches (threshold k m : Nat) : Pace × Nat :=
  if leastStretch ≤ k ∨ leastStretch ≤ m then
    (.stretches, if 1 < threshold then threshold - 1 else threshold)
  else (.single 0 0, threshold + 1)

/-! ## The two directions -/

theorem drop_length_le {a rest : List α} {n : Nat} (h : a.drop n = rest) :
    rest.length ≤ a.length := by
  rw [← h, List.length_drop]
  omega

theorem drop_length_lt {a rest : List α} {n : Nat} {w : α} (h : a.drop n = w :: rest) :
    rest.length < a.length := by
  have e := drop_length_le h
  rw [List.length_cons] at e
  omega

/-- Merges from the start; `out` holds what has been taken, the latest first. -/
def mergeFront (lt : α → α → Except ε Bool) (pace : Pace) (threshold : Nat) (a b out : List α) :
    Except ε (List α × Nat) :=
  match a, b with
  | [], b => .ok (out.reverse ++ b, threshold)
  | a, [] => .ok (out.reverse ++ a, threshold)
  | [x], b => .ok (out.reverse ++ b ++ [x], threshold)
  | x :: y :: a, z :: b =>
    match pace with
    | .single first second => do
      if ← lt z x then
        mergeFront lt (.ofWins threshold (second + 1) (.single 0 (second + 1))) threshold
          (x :: y :: a) b (z :: out)
      else
        mergeFront lt (.ofWins threshold (first + 1) (.single (first + 1) 0)) threshold
          (y :: a) (z :: b) (x :: out)
    | .stretches => do
      let k ← countUpTo lt z (x :: y :: a) 0
      let out := ((x :: y :: a).take k).reverse ++ out
      match ha : (x :: y :: a).drop k with
      | [] => return (out.reverse ++ z :: b, threshold)
      | [w] => return (out.reverse ++ z :: b ++ [w], threshold)
      | w :: v :: rest =>
        let m ← countBefore lt w b 0
        let out := (b.take m).reverse ++ z :: out
        match hb : b.drop m with
        | [] => return (out.reverse ++ w :: v :: rest, threshold)
        | u :: others =>
          if rest.isEmpty then return (out.reverse ++ w :: u :: others ++ [v], threshold)
          else
            have := drop_length_lt ha
            have := drop_length_le hb
            let (pace, threshold) := Pace.ofStretches threshold k m
            mergeFront lt pace threshold (v :: rest) (u :: others) (w :: out)
termination_by a.length + b.length
decreasing_by
  all_goals simp only [List.length_cons] at *
  all_goals omega

/-- Merges from the end; both runs have their last item first. `out` holds what has been taken, in
order. -/
def mergeBack (lt : α → α → Except ε Bool) (pace : Pace) (threshold : Nat) (a b out : List α) :
    Except ε (List α × Nat) :=
  match a, b with
  | [], b => .ok (b.reverse ++ out, threshold)
  | a, [] => .ok (a.reverse ++ out, threshold)
  | a, [z] => .ok (z :: (a.reverse ++ out), threshold)
  | x :: a, z :: y :: b =>
    match pace with
    | .single first second => do
      if ← lt z x then
        mergeBack lt (.ofWins threshold (first + 1) (.single (first + 1) 0)) threshold
          a (z :: y :: b) (x :: out)
      else
        mergeBack lt (.ofWins threshold (second + 1) (.single 0 (second + 1))) threshold
          (x :: a) (y :: b) (z :: out)
    | .stretches => do
      let k := a.length + 1 - (← countUpTo lt z (x :: a).reverse a.length)
      let out := ((x :: a).take k).reverse ++ out
      match ha : (x :: a).drop k with
      | [] => return (b.reverse ++ y :: z :: out, threshold)
      | w :: rest =>
        if b.isEmpty then return (y :: (rest.reverse ++ w :: z :: out), threshold)
        else
          let m := b.length + 1 - (← countBefore lt w (y :: b).reverse b.length)
          let out := ((y :: b).take m).reverse ++ z :: out
          match hb : (y :: b).drop m with
          | [] => return (rest.reverse ++ w :: out, threshold)
          | [u] => return (u :: (rest.reverse ++ w :: out), threshold)
          | u :: v :: others =>
            if rest.isEmpty then return (others.reverse ++ v :: u :: w :: out, threshold)
            else
              have := drop_length_lt ha
              have := drop_length_le hb
              let (pace, threshold) := Pace.ofStretches threshold k m
              mergeBack lt pace threshold rest (u :: v :: others) (w :: out)
termination_by a.length + b.length
decreasing_by
  all_goals simp only [List.length_cons] at *
  all_goals omega

/-! ## Two runs -/

/-- Merges two runs that are not empty, which leaves their ends where they are as far as these are in
place already. -/
def merge (lt : α → α → Except ε Bool) (threshold : Nat) (a b : List α) :
    Except ε (List α × Nat) :=
  match b with
  | [] => .ok (a, threshold)
  | z :: _ => do
    let k ← countUpTo lt z a 0
    match (a.drop k).reverse with
    | [] => return (a ++ b, threshold)
    | last :: before => do
      let m ← countBefore lt last b (b.length - 1)
      match b.take m with
      | [] => return (a ++ b, threshold)
      | first :: others => do
        let (merged, threshold) ←
          if before.length ≤ others.length then
            mergeFront lt (.single 0 0) threshold (a.drop k) others [first]
          else mergeBack lt (.single 0 0) threshold before (first :: others).reverse [last]
        return (a.take k ++ merged ++ b.drop m, threshold)

end ConsentGate.Sorting
