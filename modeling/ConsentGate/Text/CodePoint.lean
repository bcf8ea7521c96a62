/-! Texts as sequences of code points.

Other systems know texts in which a surrogate, one half of a pair, stands alone. Texts here are made of
characters, and surrogates are none; but an escape can name one. A higher half with a lower one right
behind it is the character of the pair (`joined`), so two such halves cannot be kept apart from it. -/
namespace ConsentGate.Text
set_option autoImplicit false

/-- A character, or the higher or the lower half of a surrogate pair. -/
inductive CodePoint where
  | char (c : Char)
  | high (n : Fin 1024)
  | low (n : Fin 1024)
  deriving DecidableEq, Repr

namespace CodePoint

/-- The code point of a UTF-16 unit. -/
def ofUnit (n : Nat) : CodePoint :=
  if n < 55296 ∨ 57344 ≤ n then .char (Char.ofNat n)
  else if n < 56320 then .high (Fin.ofNat 1024 (n - 55296))
  else .low (Fin.ofNat 1024 (n - 56320))

/-- The character of a pair. -/
def pair (n m : Fin 1024) : Char := Char.ofNat (65536 + n * 1024 + m)

/-- The character itself, or the replacement character where there is none. -/
def shown : CodePoint → Char
  | .char c => c
  | .high _ | .low _ => Char.ofNat 65533

def char? : CodePoint → Option Char
  | .char c => some c
  | .high _ | .low _ => none

end CodePoint

/-- The code points with each pair as one character. -/
def joined : List CodePoint → List CodePoint
  | .high n :: .low m :: rest => .char (CodePoint.pair n m) :: joined rest
  | p :: rest => p :: joined rest
  | [] => []

/-- The text of the code points, with the replacement character for each surrogate. -/
def ofCodes (t : List CodePoint) : String := String.ofList (t.map CodePoint.shown)

/-- The characters of a text without surrogates. -/
def characters? (t : List CodePoint) : Option (List Char) := t.mapM CodePoint.char?

def HasSurrogate (t : List CodePoint) : Prop := ∃ p ∈ t, p.char? = none

@[simp] theorem characters?_map_char (s : List Char) : characters? (s.map .char) = some s := by
  induction s with
  | nil => rfl
  | cons c s ih =>
    unfold characters? at ih ⊢
    rw [List.map_cons, List.mapM_cons, ih]
    rfl

/-- A text has its characters exactly if there is no surrogate in it. -/
theorem characters?_eq_none {t : List CodePoint} : characters? t = none ↔ HasSurrogate t := by
  induction t with
  | nil => exact iff_of_false nofun fun ⟨_, hp, _⟩ => List.not_mem_nil hp
  | cons p t ih =>
    unfold characters? at ih ⊢
    rw [List.mapM_cons]
    cases p with
    | char c =>
      have hrest : HasSurrogate (.char c :: t) ↔ HasSurrogate t := by
        simp only [HasSurrogate, List.mem_cons, exists_eq_or_imp]
        exact or_iff_right nofun
      rw [hrest, ← ih]
      cases t.mapM CodePoint.char? <;> simp [CodePoint.char?]
    | _ => exact iff_of_true rfl ⟨_, List.mem_cons_self, rfl⟩

@[simp] theorem ofCodes_map_char (s : List Char) : ofCodes (s.map .char) = String.ofList s := by
  rw [ofCodes, List.map_map]
  exact congrArg String.ofList (List.map_id s)

end ConsentGate.Text
