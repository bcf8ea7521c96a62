import ConsentGate.Value.Json
import ConsentGate.Value.JsonReader
import Mathlib.Data.List.Chain

/-! The JSON text of a text.

Whatever code points a text has, it can be written, and what is written is read as the text with each pair
of halves as the one character that they stand for (`readsAsText_joined`). So texts have the same JSON text
exactly if they agree once their pairs are joined (`jsonCodes_eq_iff`), and a text comes back as it was
exactly if no higher half in it has a lower one right behind it (`joined_eq_self_iff`). A text of characters
always does. -/
namespace ConsentGate
open Text
set_option autoImplicit false

/-! ## Pairs -/

namespace Text.CodePoint

theorem toNat_lt (c : Char) : c.toNat < 1114112 := by
  have hvalid := c.valid
  simp only [UInt32.isValidChar, Nat.isValidChar] at hvalid
  have heq : c.val.toNat = c.toNat := rfl
  omega

/-- No character has the number of a surrogate. -/
theorem toNat_bounds (c : Char) : c.toNat < 55296 ∨ 57344 ≤ c.toNat := by
  have hvalid := c.valid
  simp only [UInt32.isValidChar, Nat.isValidChar] at hvalid
  have heq : c.val.toNat = c.toNat := rfl
  omega

theorem ofUnit_toNat (c : Char) : ofUnit c.toNat = .char c := by
  rw [ofUnit, if_pos (toNat_bounds c), Char.ofNat_toNat]

theorem ofUnit_high (n : Fin 1024) : ofUnit (55296 + n) = .high n := by
  have hn := n.isLt
  rw [ofUnit, if_neg (by omega), if_pos (by omega), Nat.add_sub_cancel_left]
  exact congrArg CodePoint.high (Fin.ext (Nat.mod_eq_of_lt hn))

theorem ofUnit_low (n : Fin 1024) : ofUnit (56320 + n) = .low n := by
  have hn := n.isLt
  rw [ofUnit, if_neg (by omega), if_neg (by omega), Nat.add_sub_cancel_left]
  exact congrArg CodePoint.low (Fin.ext (Nat.mod_eq_of_lt hn))

theorem toNat_pair (n m : Fin 1024) : (pair n m).toNat = 65536 + n * 1024 + m := by
  have hn := n.isLt
  have hm := m.isLt
  have hvalid : (65536 + n.val * 1024 + m.val).isValidChar := Or.inr ⟨by omega, by omega⟩
  rw [pair, Char.ofNat, dif_pos hvalid]
  rfl

/-- Each character beyond the units is that of a pair. -/
theorem exists_pair {c : Char} (h : 65536 ≤ c.toNat) : ∃ n m : Fin 1024, c = pair n m := by
  have hmax := toNat_lt c
  refine ⟨⟨(c.toNat - 65536) / 1024, by omega⟩, ⟨(c.toNat - 65536) % 1024, by omega⟩, ?_⟩
  have hvalue : 65536 + (c.toNat - 65536) / 1024 * 1024 + (c.toNat - 65536) % 1024 = c.toNat := by
    omega
  rw [pair, hvalue, Char.ofNat_toNat]

/-- The two code points are no pair. -/
def Apart (p q : CodePoint) : Prop := ∀ n m, p = .high n → q ≠ .low m

end Text.CodePoint

namespace Text

variable {t u : List CodePoint}

/-- What comes first is joined with what follows only if the two are a pair. -/
theorem joined_cons {p : CodePoint} {rest : List CodePoint}
    (h : ∀ q ∈ rest.head?, p.Apart q) : joined (p :: rest) = p :: joined rest := by
  rw [joined]
  rintro n m more rfl rfl
  exact h _ rfl n m rfl rfl

theorem joined_map_char (s : List Char) : joined (s.map .char) = s.map .char := by
  induction s with
  | nil => rfl
  | cons c s ih =>
    have happart : ∀ q ∈ (s.map CodePoint.char).head?, (CodePoint.char c).Apart q :=
      fun _ _ _ _ h => nomatch h
    rw [List.map_cons, joined_cons happart, ih]

/-- Joining leaves a text alone exactly if there is no pair in it. -/
theorem joined_eq_self_iff : joined t = t ↔ t.IsChain CodePoint.Apart := by
  induction t using joined.induct with
  | case1 n m rest _ =>
    rw [joined]
    refine iff_of_false (fun h => ?_) fun h => ?_
    · cases (List.cons.inj h).1
    · exact (List.isChain_cons_cons.mp h).1 n m rfl rfl
  | case2 p rest hpair ih =>
    have happart : ∀ q ∈ rest.head?, p.Apart q := by
      rintro q hq n m rfl rfl
      obtain ⟨more, rfl⟩ := List.head?_eq_some_iff.mp hq
      exact hpair n m more rfl rfl
    rw [joined_cons happart, List.isChain_cons, ← ih]
    constructor
    · intro h
      exact ⟨happart, (List.cons.inj h).2⟩
    · rintro ⟨_, h⟩
      rw [h]
  | case3 => exact iff_of_true rfl List.isChain_nil

end Text

namespace Value

/-! ## Units -/

theorem hexValue?_digitChar {d : Nat} (h : d < 16) : hexValue? (Nat.digitChar d) = some d := by
  have hall : ∀ d, d < 16 → hexValue? (Nat.digitChar d) = some d := by decide
  exact hall d h

/-- The four digits of a unit. -/
theorem hexDigits_four {n : Nat} (h : n < 65536) :
    hexDigits 4 n = [Nat.digitChar (n / 4096), Nat.digitChar (n / 256 % 16),
      Nat.digitChar (n / 16 % 16), Nat.digitChar (n % 16)] := by
  have hdigits : ∀ m, m < 16 → Nat.toDigits 16 m = [Nat.digitChar m] := fun m hm =>
    Nat.toDigits_of_lt_base hm
  unfold hexDigits
  by_cases h1 : n < 16
  · have ha : n / 4096 = 0 := by omega
    have hb : n / 256 % 16 = 0 := by omega
    have hc : n / 16 % 16 = 0 := by omega
    have hd : n % 16 = n := by omega
    rw [hdigits n h1, ha, hb, hc, hd]
    rfl
  rw [Nat.toDigits_eq_if (by omega), if_neg h1]
  by_cases h2 : n / 16 < 16
  · have ha : n / 4096 = 0 := by omega
    have hb : n / 256 % 16 = 0 := by omega
    have hc : n / 16 % 16 = n / 16 := by omega
    rw [hdigits _ h2, ha, hb, hc]
    rfl
  rw [Nat.toDigits_eq_if (by omega), if_neg h2]
  by_cases h3 : n / 16 / 16 < 16
  · have ha : n / 4096 = 0 := by omega
    have hb : n / 256 % 16 = n / 16 / 16 := by omega
    rw [hdigits _ h3, ha, hb]
    rfl
  have ha : n / 16 / 16 / 16 < 16 := by omega
  have hb : n / 4096 = n / 16 / 16 / 16 := by omega
  have hc : n / 256 % 16 = n / 16 / 16 % 16 := by omega
  rw [Nat.toDigits_eq_if (by omega), if_neg h3, hdigits _ ha, hb, hc]
  rfl

theorem takeUnit?_hexDigits {n : Nat} (h : n < 65536) (rest : List Char) :
    takeUnit? (hexDigits 4 n ++ rest) = some (n, rest) := by
  have ha := hexValue?_digitChar (d := n / 4096) (by omega)
  have hb := hexValue?_digitChar (d := n / 256 % 16) (by omega)
  have hc := hexValue?_digitChar (d := n / 16 % 16) (by omega)
  have hd := hexValue?_digitChar (d := n % 16) (by omega)
  have hvalue : ((n / 4096 * 16 + n / 256 % 16) * 16 + n / 16 % 16) * 16 + n % 16 = n := by omega
  rw [hexDigits_four h]
  simp only [List.cons_append, List.nil_append, takeUnit?, ha, hb, hc, hd]
  show some _ = _
  rw [hvalue]

/-- Nothing that follows is taken for the lower half of a pair. -/
def SparesHigh (rest : List Char) : Prop :=
  ∀ more, rest = '\\' :: 'u' :: more →
    ∃ n rest', takeUnit? more = some (n, rest') ∧ ∀ m, CodePoint.ofUnit n ≠ .low m

theorem takeEscapedUnit?_of_ne {n : Nat} {p : CodePoint} (hn : n < 65536)
    (hp : CodePoint.ofUnit n = p) (hhigh : ∀ m, p ≠ .high m) (rest : List Char) :
    takeEscapedUnit? (hexDigits 4 n ++ rest) = some (p, rest) := by
  rw [takeEscapedUnit?, takeUnit?_hexDigits hn]
  cases p with
  | high m => exact absurd rfl (hhigh m)
  | _ => simp only [Option.bind_eq_bind, Option.bind_some, hp]; rfl

theorem takeEscapedUnit?_high (n : Fin 1024) {rest : List Char} (h : SparesHigh rest) :
    takeEscapedUnit? (hexDigits 4 (55296 + n) ++ rest) = some (.high n, rest) := by
  have hn := n.isLt
  rw [takeEscapedUnit?, takeUnit?_hexDigits (by omega)]
  simp only [Option.bind_eq_bind, Option.bind_some, CodePoint.ofUnit_high]
  split
  · rename_i a more hcode
    cases hcode
    obtain ⟨k, rest', htake, hlow⟩ := h more rfl
    rw [htake]
    simp only [Option.bind_some]
    rfl
  · rfl

theorem takeEscapedUnit?_pair (n m : Fin 1024) (rest : List Char) :
    takeEscapedUnit? (hexDigits 4 (55296 + n) ++ (unitEscape (56320 + m) ++ rest)) =
      some (.char (CodePoint.pair n m), rest) := by
  have hn := n.isLt
  have hm := m.isLt
  have hlow := takeUnit?_hexDigits (n := 56320 + m) (by omega) rest
  rw [takeEscapedUnit?, takeUnit?_hexDigits (by omega), unitEscape, List.cons_append,
    List.cons_append]
  simp only [Option.bind_eq_bind, Option.bind_some, CodePoint.ofUnit_high, hlow, CodePoint.ofUnit_low]
  rfl

/-! ## Code points -/

/-- The forms in which a character is written: by a letter behind a backslash, as it is, by its unit, or by
the two halves of its pair. -/
theorem jsonChar_cases (c : Char) :
    (∃ e, simpleEscape? e = some c ∧ e ≠ 'u' ∧ jsonChar c = ['\\', e]) ∨
      (c ≠ doubleQuote ∧ c ≠ '\\' ∧ 32 ≤ c.toNat ∧ jsonChar c = [c]) ∨
      (c.toNat < 65536 ∧ jsonChar c = unitEscape c.toNat) ∨
      65536 ≤ c.toNat ∧
        jsonChar c = unitEscape (55296 + (c.toNat - 65536) / 1024) ++
          unitEscape (56320 + (c.toNat - 65536) % 1024) := by
  have hchar : ∀ k, c.toNat = k → c = Char.ofNat k := by
    intro k hk
    rw [← hk, Char.ofNat_toNat]
  unfold jsonChar
  dsimp only
  split
  · rename_i h
    rw [h]
    exact Or.inl ⟨doubleQuote, by decide, by decide, rfl⟩
  split
  · rename_i h
    rw [h]
    exact Or.inl ⟨'\\', by decide, by decide, rfl⟩
  split
  · rename_i h
    exact Or.inl ⟨'n', hchar 10 h ▸ by decide, by decide, rfl⟩
  split
  · rename_i h
    exact Or.inl ⟨'r', hchar 13 h ▸ by decide, by decide, rfl⟩
  split
  · rename_i h
    exact Or.inl ⟨'t', hchar 9 h ▸ by decide, by decide, rfl⟩
  split
  · rename_i h
    exact Or.inl ⟨'f', hchar 12 h ▸ by decide, by decide, rfl⟩
  split
  · rename_i h
    exact Or.inl ⟨'b', hchar 8 h ▸ by decide, by decide, rfl⟩
  split
  · rename_i hquote hbackslash _ _ _ _ _ h
    exact Or.inr (Or.inl ⟨hquote, hbackslash, h.1, rfl⟩)
  split
  · rename_i h
    exact Or.inr (Or.inr (Or.inl ⟨h, rfl⟩))
  · rename_i h
    exact Or.inr (Or.inr (Or.inr ⟨Nat.not_lt.mp h, rfl⟩))

/-- A character of a pair is written like the halves of it. -/
theorem jsonChar_pair (n m : Fin 1024) :
    jsonChar (CodePoint.pair n m) = jsonCode (.high n) ++ jsonCode (.low m) := by
  have hn := n.isLt
  have hm := m.isLt
  have hvalue := CodePoint.toNat_pair n m
  have hhigh : 55296 + (65536 + n * 1024 + m - 65536) / 1024 = 55296 + n.val := by omega
  have hlow : 56320 + (65536 + n * 1024 + m - 65536) % 1024 = 56320 + m.val := by omega
  have hlarge : ∀ c : Char, c.toNat < 65536 → CodePoint.pair n m ≠ c := by
    rintro c hc rfl
    omega
  unfold jsonChar
  dsimp only
  rw [if_neg (hlarge doubleQuote (by decide)), if_neg (hlarge '\\' (by decide)), hvalue, if_neg (by omega),
    if_neg (by omega), if_neg (by omega), if_neg (by omega), if_neg (by omega), if_neg (by omega),
    if_neg (by omega), hhigh, hlow]
  rfl

theorem takeTextChar?_unitEscape (n : Nat) (rest : List Char) :
    takeTextChar? (unitEscape n ++ rest) =
      (takeEscapedUnit? (hexDigits 4 n ++ rest)).map fun taken => (some taken.1, taken.2) := rfl

theorem takeTextChar?_pair (n m : Fin 1024) (rest : List Char) :
    takeTextChar? (jsonCode (.high n) ++ (jsonCode (.low m) ++ rest)) =
      some (some (.char (CodePoint.pair n m)), rest) := by
  rw [jsonCode, takeTextChar?_unitEscape, jsonCode, takeEscapedUnit?_pair]
  rfl

theorem takeTextChar?_jsonChar (c : Char) (rest : List Char) :
    takeTextChar? (jsonChar c ++ rest) = some (some (.char c), rest) := by
  rcases jsonChar_cases c with ⟨e, he, hu, hc⟩ | ⟨hquote, hbackslash, hlow, hc⟩ | ⟨hunit, hc⟩ | ⟨hpair, _⟩
  · have hescape : takeTextChar? ('\\' :: e :: rest) =
        if e = 'u' then (takeEscapedUnit? rest).map fun taken => (some taken.1, taken.2)
        else (simpleEscape? e).map fun c => (some (.char c), rest) := rfl
    rw [hc, List.cons_append, List.cons_append, List.nil_append, hescape, if_neg hu, he]
    rfl
  · simp only [hc, List.cons_append, List.nil_append, takeTextChar?, if_neg hquote, if_neg hbackslash,
      if_neg (Nat.not_lt.mpr hlow)]
  · rw [hc, takeTextChar?_unitEscape,
      takeEscapedUnit?_of_ne hunit (CodePoint.ofUnit_toNat c) (fun m => nofun)]
    rfl
  · obtain ⟨n, m, rfl⟩ := CodePoint.exists_pair hpair
    rw [jsonChar_pair, List.append_assoc, takeTextChar?_pair]

/-- Only a lower half is written like a lower half. -/
theorem sparesHigh_jsonCode {p : CodePoint} (h : ∀ m, p ≠ .low m) (rest : List Char) :
    SparesHigh (jsonCode p ++ rest) := by
  have hunit : ∀ (n : Nat) (rest : List Char), n < 65536 → (∀ m, CodePoint.ofUnit n ≠ .low m) →
      SparesHigh (unitEscape n ++ rest) := by
    rintro n rest hn hlow more hmore
    obtain rfl : hexDigits 4 n ++ rest = more := (List.cons.inj (List.cons.inj hmore).2).2
    exact ⟨n, rest, takeUnit?_hexDigits hn rest, hlow⟩
  have hhigh : ∀ (n : Fin 1024) (rest : List Char), SparesHigh (unitEscape (55296 + n) ++ rest) := by
    intro n rest
    have hn := n.isLt
    exact hunit _ rest (by omega) fun m => by rw [CodePoint.ofUnit_high]; exact nofun
  cases p with
  | low m => exact absurd rfl (h m)
  | high n => exact hhigh n rest
  | char c =>
    rw [jsonCode]
    rcases jsonChar_cases c with ⟨e, _, hu, hc⟩ | ⟨_, hbackslash, _, hc⟩ | ⟨hsmall, hc⟩ | ⟨hpair, _⟩
    · rw [hc]
      intro more hmore
      exact absurd (List.cons.inj (List.cons.inj hmore).2).1 hu
    · rw [hc]
      intro more hmore
      exact absurd (List.cons.inj hmore).1 hbackslash
    · rw [hc]
      exact hunit _ rest hsmall fun m => by rw [CodePoint.ofUnit_toNat]; exact nofun
    · obtain ⟨n, m, rfl⟩ := CodePoint.exists_pair hpair
      rw [jsonChar_pair, List.append_assoc]
      exact hhigh n _

/-! ## Texts -/

variable {t u : List CodePoint}

/-- The JSON text of `t`, without the quote that opens it, is read as the text `u` up to its closing
quote. -/
def ReadsAsText (t u : List CodePoint) : Prop :=
  ∀ rest fuel, t.length < fuel →
    takeText? fuel (t.flatMap jsonCode ++ doubleQuote :: rest) = some (u, rest)

theorem exists_eq_succ_of_lt {m fuel : Nat} (h : m < fuel) : ∃ k, fuel = k + 1 :=
  ⟨fuel - 1, by omega⟩

theorem takeText?_of_takeTextChar? {s rest : List Char} {p : CodePoint}
    (h : takeTextChar? s = some (some p, rest)) (fuel : Nat) :
    takeText? (fuel + 1) s = (takeText? fuel rest).map fun taken => (p :: taken.1, taken.2) := by
  rw [takeText?, h]
  simp only [Option.bind_eq_bind, Option.bind_some]
  cases takeText? fuel rest <;> rfl

theorem sparesHigh_flatMap (h : ∀ q ∈ t.head?, ∀ m, q ≠ .low m) (rest : List Char) :
    SparesHigh (t.flatMap jsonCode ++ doubleQuote :: rest) := by
  cases t with
  | nil =>
    intro more hmore
    exact absurd (List.cons.inj hmore).1 (by decide)
  | cons q t =>
    rw [List.flatMap_cons, List.append_assoc]
    exact sparesHigh_jsonCode (h q rfl) _

/-- A code point is taken alone unless it is the first half of a pair. -/
theorem takeTextChar?_jsonCode (p : CodePoint) {rest : List Char}
    (h : ∀ n, p = .high n → SparesHigh rest) :
    takeTextChar? (jsonCode p ++ rest) = some (some p, rest) := by
  cases p with
  | char c => exact takeTextChar?_jsonChar c rest
  | high n =>
    rw [jsonCode, takeTextChar?_unitEscape, takeEscapedUnit?_high n (h n rfl)]
    rfl
  | low n =>
    have hn := n.isLt
    rw [jsonCode, takeTextChar?_unitEscape,
      takeEscapedUnit?_of_ne (by omega) (CodePoint.ofUnit_low n) (fun m => nofun)]
    rfl

/-- A text is read with its pairs joined. -/
theorem readsAsText_joined (t : List CodePoint) : ReadsAsText t (joined t) := by
  intro rest fuel hfuel
  obtain ⟨fuel, rfl⟩ := exists_eq_succ_of_lt hfuel
  induction t using joined.induct generalizing fuel with
  | case1 n m t ih =>
    simp only [List.length_cons] at hfuel
    have hpos : 0 < fuel := by omega
    obtain ⟨fuel, rfl⟩ := exists_eq_succ_of_lt hpos
    rw [List.flatMap_cons, List.flatMap_cons, List.append_assoc, List.append_assoc,
      takeText?_of_takeTextChar? (takeTextChar?_pair n m _), ih fuel (by omega), joined]
    rfl
  | case2 p t hpair ih =>
    simp only [List.length_cons] at hfuel
    have hpos : 0 < fuel := by omega
    obtain ⟨fuel, rfl⟩ := exists_eq_succ_of_lt hpos
    have happart : ∀ q ∈ t.head?, p.Apart q := by
      rintro q hq n m rfl rfl
      obtain ⟨more, rfl⟩ := List.head?_eq_some_iff.mp hq
      exact hpair n m more rfl rfl
    have hspares : ∀ n, p = .high n → SparesHigh (t.flatMap jsonCode ++ doubleQuote :: rest) :=
      fun n hn => sparesHigh_flatMap (fun q hq m => happart q hq n m hn) rest
    have htake := takeTextChar?_jsonCode p hspares
    rw [List.flatMap_cons, List.append_assoc, takeText?_of_takeTextChar? htake, ih fuel (by omega),
      joined_cons happart]
    rfl
  | case3 => rfl

/-- The halves of a pair are read as its character. -/
theorem readsAsText_pair (n m : Fin 1024) :
    ReadsAsText [.high n, .low m] [.char (CodePoint.pair n m)] := readsAsText_joined _

theorem jsonCodes_joined (t : List CodePoint) : jsonCodes (joined t) = jsonCodes t := by
  have hflat : (joined t).flatMap jsonCode = t.flatMap jsonCode := by
    induction t using joined.induct with
    | case1 n m t ih =>
      rw [joined, List.flatMap_cons, List.flatMap_cons, List.flatMap_cons, ih, jsonCode, jsonChar_pair,
        List.append_assoc]
    | case2 p t hpair ih =>
      rw [joined, List.flatMap_cons, List.flatMap_cons, ih]
      exact hpair
    | case3 => rfl
  rw [jsonCodes, jsonCodes, hflat]

/-- Texts have the same JSON text exactly if they are the same with their pairs joined. -/
theorem jsonCodes_eq_iff : jsonCodes t = jsonCodes u ↔ joined t = joined u := by
  constructor
  · intro h
    have hflat : t.flatMap jsonCode ++ doubleQuote :: [] = u.flatMap jsonCode ++ doubleQuote :: [] :=
      (List.cons.inj h).2
    have ht := readsAsText_joined t [] (t.length + u.length + 1) (by omega)
    have hu := readsAsText_joined u [] (t.length + u.length + 1) (by omega)
    rw [hflat, hu] at ht
    exact (Prod.mk.inj (Option.some.inj ht)).1.symm
  · intro h
    rw [← jsonCodes_joined t, h, jsonCodes_joined]

/-! ## Texts of characters -/

theorem jsonChar_ne_nil (c : Char) : jsonChar c ≠ [] := by
  unfold jsonChar unitEscape
  dsimp only
  repeat' split
  all_goals exact List.cons_ne_nil _ _

theorem length_le_flatMap_jsonChar (s : List Char) : s.length ≤ (s.flatMap jsonChar).length := by
  induction s with
  | nil => exact Nat.le_refl 0
  | cons c s ih =>
    have hc := List.length_pos_of_ne_nil (jsonChar_ne_nil c)
    rw [List.flatMap_cons, List.length_append, List.length_cons]
    omega

theorem flatMap_jsonCode_map_char (s : List Char) :
    (s.map .char).flatMap jsonCode = s.flatMap jsonChar := by
  rw [List.flatMap_map]
  rfl

theorem jsonCodes_map_char (s : List Char) : jsonCodes (s.map .char) = jsonText s := by
  rw [jsonCodes, flatMap_jsonCode_map_char, jsonText]

theorem takeText?_flatMap (s rest : List Char) (fuel : Nat) (h : s.length < fuel) :
    takeText? fuel (s.flatMap jsonChar ++ doubleQuote :: rest) = some (s.map .char, rest) := by
  have hread := readsAsText_joined (s.map .char) rest fuel (by rwa [List.length_map])
  rwa [flatMap_jsonCode_map_char, joined_map_char] at hread

end Value

end ConsentGate
