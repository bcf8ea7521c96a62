import ConsentGate.Text.Quoted

/-! Conditions that rows are asked for by.

A condition is a text: a column, a relation, and a literal between apostrophes. An apostrophe that
belongs to the literal is written twice, so no identifier ends its literal early: whatever it is made
of, the condition asks for this identifier and for nothing else (`askedId?_idCondition`). -/
namespace ConsentGate.Ledger
open Text
set_option autoImplicit false

/-- A text as it stands inside a literal. -/
def doubled (s : List Char) : List Char :=
  s.flatMap fun c => if c = apostrophe then [c, c] else [c]

/-- What stands before the literal in a condition on identifiers. -/
def idEquals : List Char := "id = ".toList

/-- The condition that a row has an identifier. -/
def idCondition (id : String) : List Char :=
  idEquals ++ apostrophe :: (doubled id.toList ++ [apostrophe])

/-- The text of a literal, up to the apostrophe that ends it, and what follows. -/
def takeLiteral? : List Char → Option (List Char × List Char)
  | [] => none
  | [c] => if c = apostrophe then some ([], []) else none
  | c :: d :: rest =>
    if c = apostrophe then
      if d = apostrophe then (takeLiteral? rest).map fun (s, rest) => (c :: s, rest)
      else some ([], d :: rest)
    else (takeLiteral? (d :: rest)).map fun (s, rest) => (c :: s, rest)

/-- The identifier that a condition asks for, if it is such a condition. -/
def askedId? (condition : List Char) : Option String :=
  if idEquals.isPrefixOf condition then
    match condition.drop idEquals.length with
    | [] => none
    | c :: rest =>
      match takeLiteral? rest with
      | some (s, []) => if c = apostrophe then some (String.ofList s) else none
      | _ => none
  else none

theorem takeLiteral?_doubled (s : List Char) :
    takeLiteral? (doubled s ++ [apostrophe]) = some (s, []) := by
  induction s with
  | nil => rfl
  | cons c rest ih =>
    by_cases hc : c = apostrophe
    · have hdoubled : doubled (c :: rest) ++ [apostrophe] =
          c :: c :: (doubled rest ++ [apostrophe]) := by
        rw [doubled, List.flatMap_cons, if_pos hc]
        rfl
      rw [hdoubled, takeLiteral?, if_pos hc, if_pos hc, ih]
      rfl
    · have hdoubled : doubled (c :: rest) ++ [apostrophe] = c :: (doubled rest ++ [apostrophe]) := by
        rw [doubled, List.flatMap_cons, if_neg hc]
        rfl
      obtain ⟨d, more, hmore⟩ : ∃ d more, doubled rest ++ [apostrophe] = d :: more :=
        List.exists_cons_of_ne_nil (by simp)
      rw [hmore] at ih
      rw [hdoubled, hmore, takeLiteral?, if_neg hc, ih]
      rfl

/-- Every identifier is asked for as it is. -/
theorem askedId?_idCondition (id : String) : askedId? (idCondition id) = some id := by
  unfold askedId? idCondition
  rw [if_pos (List.isPrefixOf_iff_prefix.mpr (List.prefix_append _ _)), List.drop_left]
  dsimp only
  rw [takeLiteral?_doubled]
  dsimp only
  rw [if_pos rfl, String.ofList_toList]

end ConsentGate.Ledger
