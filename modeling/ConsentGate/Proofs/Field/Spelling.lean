import ConsentGate.Field.Rules
import ConsentGate.Proofs.Field.NormalForm
import Mathlib.Data.List.Chain

/-! Spellings of one key.

A `Spelling` writes the words of a key one after the other, each in lower case, with a capital in front or
all in capitals, and puts separators between them wherever the letters do not show where a word begins
(`Style.joins`). Reading it from left to right, each word comes out in lower case behind a single
underscore (`joinSplit_pieces`), so the normal form tells nothing but the words, and the rules take all
spellings of the same words for the same key (`normalize_spelling`). -/
namespace ConsentGate.Field
open Text
set_option autoImplicit false

/-! ## Styles -/

/-- How a word is written. -/
inductive Style where
  | small
  | title
  | capitals
  deriving DecidableEq, Repr

namespace Style

/-- A word in lower case, as the style writes it. -/
def write : Style → List Char → List Char
  | .small, word => word
  | .title, [] => []
  | .title, c :: rest => c.toUpper :: rest
  | .capitals, word => word.map Char.toUpper

/-- Whether a word in the second style may stand right behind a word in the first one. -/
def joins : Style → Style → Bool
  | .small, .title | .small, .capitals => true
  | .title, .title | .title, .capitals => true
  | .capitals, .title => true
  | _, _ => false

end Style

/-- A word of a key, with the separators in front of it. -/
structure Piece where
  gap : List Char
  style : Style
  word : List Char

namespace Piece

def text (p : Piece) : List Char := p.gap ++ p.style.write p.word

/-- The first piece may stand in front of the second: there are separators between them, or the letters
show where the second begins. -/
def Precedes (p q : Piece) : Prop := q.gap = [] → p.style.joins q.style = true

/-- A word of at least two letters, written in lower case, and separators. -/
structure IsProper (p : Piece) : Prop where
  length : 2 ≤ p.word.length
  small : ∀ c ∈ p.word, isSmall c = true
  gap : ∀ c ∈ p.gap, isSeparator c = true

end Piece

/-- A key as it is spelled; `pad` are the separators at its end. -/
structure Spelling where
  first : Piece
  rest : List Piece
  pad : List Char
  proper : ∀ p ∈ first :: rest, p.IsProper
  chain : (first :: rest).IsChain Piece.Precedes
  isPad : ∀ c ∈ pad, isSeparator c = true

namespace Spelling

def pieces (k : Spelling) : List Piece := k.first :: k.rest

def words (k : Spelling) : List (List Char) := k.pieces.map (·.word)

def text (k : Spelling) : List Char := k.pieces.flatMap Piece.text ++ k.pad

end Spelling

/-! ## Letters -/

theorem of_isSmall {p : Char → Bool}
    (h : ((List.range 128).all fun n => !isSmall (Char.ofNat n) || p (Char.ofNat n)) = true)
    {c : Char} (hc : isSmall c = true) : p c = true :=
  of_isAlnum (fun c hc => by simp [isAlnum, isSmallOrDigit, hc]) h hc

section Small

variable {c : Char} (hc : isSmall c = true)
include hc

theorem isAlnum_of_isSmall : isAlnum c = true := of_isSmall (by decide) hc

theorem isAlnum_toUpper : isAlnum c.toUpper = true :=
  of_isSmall (p := fun c => isAlnum c.toUpper) (by decide) hc

theorem isCapital_toUpper : isCapital c.toUpper = true :=
  of_isSmall (p := fun c => isCapital c.toUpper) (by decide) hc

theorem not_isCapital_of_isSmall : isCapital c = false := by
  simpa using of_isSmall (p := fun c => !isCapital c) (by decide) hc

theorem toLower_of_isSmall : c.toLower = c :=
  eq_of_beq (of_isSmall (p := fun c => c.toLower == c) (by decide) hc)

theorem toLower_toUpper : c.toUpper.toLower = c :=
  eq_of_beq (of_isSmall (p := fun c => c.toUpper.toLower == c) (by decide) hc)

end Small

theorem of_isCapital {p : Char → Bool}
    (h : ((List.range 128).all fun n => !isCapital (Char.ofNat n) || p (Char.ofNat n)) = true)
    {c : Char} (hc : isCapital c = true) : p c = true :=
  of_isAlnum (fun _ => isAlnum_of_isCapital) h hc

theorem not_isSmall_of_isCapital {c : Char} (hc : isCapital c = true) : isSmall c = false := by
  simpa using of_isCapital (p := fun c => !isSmall c) (by decide) hc

theorem not_isSmallOrDigit_of_isCapital {c : Char} (hc : isCapital c = true) :
    isSmallOrDigit c = false := by
  simpa using of_isCapital (p := fun c => !isSmallOrDigit c) (by decide) hc

theorem not_isAlnum_of_isSeparator {c : Char} (h : isSeparator c = true) : isAlnum c = false := by
  cases hc : isAlnum c with
  | false => rfl
  | true => rw [not_isSeparator_of_isAlnum hc] at h; cases h

theorem isSeparator_toLower (c : Char) : isSeparator c.toLower = isSeparator c :=
  apply_toLower (by decide) c

/-! ## Splitting and joining at once -/

/-- What becomes of the part of a key behind the given character. -/
def joinSplit (started pending : Bool) (before : Char) (s : List Char) : List Char :=
  joinWords started pending ((splitAfter before s).map Char.toLower)

theorem joinSplit_cons_of_isSeparator {c : Char} (hc : isSeparator c = true)
    (started pending : Bool) (before : Char) (s : List Char) :
    joinSplit started pending before (c :: s) = joinSplit started true c s := by
  have halnum := not_isAlnum_of_isSeparator hc
  rw [joinSplit, splitAfter_cons_of_not_isAlnum halnum, ← splitAfter_of_not_isAlnum halnum,
    List.map_cons, joinWords_cons_of_isSeparator ((isSeparator_toLower c).trans hc)]
  rfl

theorem joinSplit_separators_append {separators : List Char}
    (h : ∀ c ∈ separators, isSeparator c = true) (started pending : Bool) (before : Char)
    (s : List Char) : joinSplit started pending before (separators ++ s) =
      joinSplit started (pending || !separators.isEmpty) (separators.getLastD before) s := by
  induction separators generalizing pending before with
  | nil => simp
  | cons c separators ih =>
    obtain ⟨hc, hseparators⟩ := List.forall_mem_cons.mp h
    rw [List.cons_append, joinSplit_cons_of_isSeparator hc, ih hseparators, List.getLastD_cons]
    simp

/-- A letter or digit stands behind an underscore if a word begins there or separators were skipped,
unless it is the first one. -/
theorem joinSplit_cons_of_isAlnum {c : Char} (hc : isAlnum c = true) (started pending : Bool)
    (before : Char) (s : List Char) : joinSplit started pending before (c :: s) =
      (if started && (pending || (isCapital c && beginsWord before s.head?)) then ['_'] else []) ++
        c.toLower :: joinSplit true false c s := by
  have hlower : isSeparator c.toLower = false :=
    (isSeparator_toLower c).trans (not_isSeparator_of_isAlnum hc)
  unfold joinSplit
  rw [splitAfter]
  cases hbegins : isCapital c && beginsWord before s.head? with
  | false =>
    rw [if_neg Bool.false_ne_true, List.singleton_append, List.map_cons,
      joinWords_cons_of_not_isSeparator hlower, Bool.or_false]
    cases started && pending <;> rfl
  | true =>
    -- The underscore that marks the beginning is itself a separator.
    rw [if_pos rfl, List.cons_append, List.singleton_append, List.map_cons, List.map_cons,
      joinWords_cons_of_isSeparator (by decide), joinWords_cons_of_not_isSeparator hlower, Bool.or_true]
    cases started && true <;> rfl

/-! ## One word -/

theorem joinSplit_small {word : List Char} (h : ∀ c ∈ word, isSmall c = true) (before : Char)
    (s : List Char) : joinSplit true false before (word ++ s) =
      word ++ joinSplit true false (word.getLastD before) s := by
  induction word generalizing before with
  | nil => rfl
  | cons c word ih =>
    obtain ⟨hc, hword⟩ := List.forall_mem_cons.mp h
    rw [List.cons_append, joinSplit_cons_of_isAlnum (isAlnum_of_isSmall hc), ih hword,
      toLower_of_isSmall hc, not_isCapital_of_isSmall hc, List.getLastD_cons]
    rfl

/-- Within capitals no word begins, if no small letter follows them. -/
theorem joinSplit_capitals {word s : List Char} (h : ∀ c ∈ word, isSmall c = true)
    (hs : s.head?.any isSmall = false) {before : Char} (hbefore : isCapital before = true) :
    joinSplit true false before (word.map Char.toUpper ++ s) =
      word ++ joinSplit true false ((word.map Char.toUpper).getLastD before) s := by
  induction word generalizing before with
  | nil => rfl
  | cons c word ih =>
    obtain ⟨hc, hword⟩ := List.forall_mem_cons.mp h
    have hnext : (word.map Char.toUpper ++ s).head?.any isSmall = false := by
      cases word with
      | nil => exact hs
      | cons d word =>
        exact not_isSmall_of_isCapital (isCapital_toUpper (hword d List.mem_cons_self))
    rw [List.map_cons, List.cons_append, joinSplit_cons_of_isAlnum (isAlnum_toUpper hc),
      ih hword (isCapital_toUpper hc), toLower_toUpper hc, List.getLastD_cons, beginsWord, hnext,
      not_isSmallOrDigit_of_isCapital hbefore]
    simp

namespace Style

/-- Whether the letters show the beginning of a word in the style behind the given character. -/
def shows : Style → Char → Bool
  | .small, _ => false
  | .title, before => isAlnum before
  | .capitals, before => isSmallOrDigit before

/-- A word in the style may end in the character. -/
def EndsIn : Style → Char → Prop
  | .small, c | .title, c => isSmall c = true
  | .capitals, c => isCapital c = true

theorem shows_of_joins {s t : Style} {c : Char} (hc : s.EndsIn c) (h : s.joins t = true) :
    t.shows c = true := by
  cases s <;> cases t <;> simp_all [joins, EndsIn, shows, isAlnum, isSmallOrDigit]

end Style

theorem getLastD_of_all {p : Char → Bool} {word : List Char} (h : ∀ c ∈ word, p c = true)
    (hne : word ≠ []) (before : Char) : p (word.getLastD before) = true := by
  obtain ⟨init, c, rfl⟩ := List.eq_nil_or_concat word |>.resolve_left hne
  simpa using h c (by simp)

/-- A word comes out in lower case, behind an underscore if its beginning is to be seen. -/
theorem joinSplit_write {style : Style} {word s : List Char} (hlength : 2 ≤ word.length)
    (hword : ∀ c ∈ word, isSmall c = true)
    (hs : style = .capitals → s.head?.any isSmall = false) (started pending : Bool) (before : Char) :
    ∃ last, style.EndsIn last ∧ joinSplit started pending before (style.write word ++ s) =
      (if started && (pending || style.shows before) then ['_'] else []) ++
        word ++ joinSplit true false last s := by
  obtain ⟨a, b, word, rfl⟩ : ∃ a b rest, word = a :: b :: rest := by
    match word, hlength with
    | a :: b :: rest, _ => exact ⟨a, b, rest, rfl⟩
  obtain ⟨ha, htail⟩ := List.forall_mem_cons.mp hword
  have hb := htail b List.mem_cons_self
  cases style with
  | small =>
    refine ⟨(b :: word).getLastD a, getLastD_of_all htail (by simp) a, ?_⟩
    rw [Style.write, List.cons_append, joinSplit_cons_of_isAlnum (isAlnum_of_isSmall ha),
      joinSplit_small htail, toLower_of_isSmall ha, not_isCapital_of_isSmall ha]
    simp [Style.shows]
  | title =>
    refine ⟨(b :: word).getLastD a.toUpper, getLastD_of_all htail (by simp) _, ?_⟩
    rw [Style.write, List.cons_append, joinSplit_cons_of_isAlnum (isAlnum_toUpper ha),
      joinSplit_small htail, toLower_toUpper ha, isCapital_toUpper ha]
    simp [Style.shows, beginsWord, isAlnum, hb]
  | capitals =>
    have hupper : ∀ c ∈ (b :: word).map Char.toUpper, isCapital c = true := by
      intro c hc
      obtain ⟨d, hd, rfl⟩ := List.mem_map.mp hc
      exact isCapital_toUpper (htail d hd)
    refine ⟨((b :: word).map Char.toUpper).getLastD a.toUpper, getLastD_of_all hupper (by simp) _, ?_⟩
    have hb' := not_isSmall_of_isCapital (isCapital_toUpper hb)
    rw [Style.write, List.map_cons, List.cons_append, joinSplit_cons_of_isAlnum (isAlnum_toUpper ha),
      joinSplit_capitals htail (hs rfl) (isCapital_toUpper ha), toLower_toUpper ha, isCapital_toUpper ha]
    simp [Style.shows, beginsWord, hb']

/-! ## All words -/

/-- What follows a word in capitals does not begin with a small letter. -/
theorem head_not_isSmall {p : Piece} {ps : List Piece} {pad : List Char}
    (hproper : ∀ q ∈ ps, q.IsProper) (hchain : (p :: ps).IsChain Piece.Precedes)
    (hpad : ∀ c ∈ pad, isSeparator c = true) (hp : p.style = .capitals) :
    (ps.flatMap Piece.text ++ pad).head?.any isSmall = false := by
  have hseparator : ∀ {c}, isSeparator c = true → isSmall c = false :=
    fun hc => not_isSmall_of_not_isAlnum (not_isAlnum_of_isSeparator hc)
  cases ps with
  | nil =>
    cases pad with
    | nil => rfl
    | cons c pad => exact hseparator (hpad c List.mem_cons_self)
  | cons q ps =>
    have hq := hproper q List.mem_cons_self
    have hprecedes := (List.isChain_cons_cons.mp hchain).1
    rw [List.flatMap_cons, Piece.text]
    cases hgap : q.gap with
    | cons c gap => exact hseparator (hq.gap c (by rw [hgap]; exact List.mem_cons_self))
    | nil =>
      -- Only a word with a capital in front may stand right behind capitals.
      have hstyle : q.style = .title := by
        have hjoins := hprecedes hgap
        rw [hp] at hjoins
        cases hq' : q.style <;> simp_all [Style.joins]
      have hlength := hq.length
      cases hword : q.word with
      | nil => simp [hword] at hlength
      | cons a word =>
        rw [hstyle]
        have ha : a ∈ q.word := hword ▸ List.mem_cons_self
        exact not_isSmall_of_isCapital (isCapital_toUpper (hq.small a ha))

theorem joinSplit_pieces {p : Piece} {ps : List Piece} {pad : List Char}
    (hproper : ∀ q ∈ ps, q.IsProper) (hchain : (p :: ps).IsChain Piece.Precedes)
    (hpad : ∀ c ∈ pad, isSeparator c = true) {last : Char} (hlast : p.style.EndsIn last) :
    joinSplit true false last (ps.flatMap Piece.text ++ pad) = ps.flatMap fun q => '_' :: q.word := by
  induction ps generalizing p last with
  | nil => simpa [joinSplit, splitAfter, joinWords] using joinSplit_separators_append hpad true false last []
  | cons q ps ih =>
    obtain ⟨hq, hproper⟩ := List.forall_mem_cons.mp hproper
    obtain ⟨hprecedes, hchain⟩ := List.isChain_cons_cons.mp hchain
    obtain ⟨last', hlast', hwrite⟩ := joinSplit_write hq.length hq.small
      (head_not_isSmall hproper hchain hpad) true (!q.gap.isEmpty) (q.gap.getLastD last)
    have hseen : (!q.gap.isEmpty || q.style.shows (q.gap.getLastD last)) = true := by
      cases hgap : q.gap with
      | nil => exact Style.shows_of_joins hlast (hprecedes hgap)
      | cons c gap => rfl
    rw [List.flatMap_cons, Piece.text, List.append_assoc, List.append_assoc,
      joinSplit_separators_append hq.gap, Bool.false_or, hwrite, hseen, ih hproper hchain hlast']
    rfl

theorem intercalate_cons (w : List Char) (ws : List (List Char)) :
    ['_'].intercalate (w :: ws) = w ++ ws.flatMap ('_' :: ·) := by
  induction ws generalizing w with
  | nil => simp [List.intercalate]
  | cons v ws ih => rw [List.intercalate_cons_cons, ih]; simp

namespace Spelling

theorem joinSplit_text (k : Spelling) :
    joinSplit false false ' ' k.text = ['_'].intercalate k.words := by
  obtain ⟨hfirst, hrest⟩ := List.forall_mem_cons.mp k.proper
  obtain ⟨last, hlast, hwrite⟩ := joinSplit_write hfirst.length hfirst.small
    (head_not_isSmall hrest k.chain k.isPad) false (!k.first.gap.isEmpty) (k.first.gap.getLastD ' ')
  rw [text, pieces, List.flatMap_cons, Piece.text, List.append_assoc, List.append_assoc,
    joinSplit_separators_append hfirst.gap, Bool.false_or, hwrite,
    joinSplit_pieces hrest k.chain k.isPad hlast, words, pieces, List.map_cons, intercalate_cons,
    List.flatMap_map]
  rfl

/-! ## Keys -/

theorem isAlnum_of_mem_write {style : Style} {word : List Char} (h : ∀ c ∈ word, isSmall c = true)
    {c : Char} (hc : c ∈ style.write word) : isAlnum c = true := by
  have hcapitals : ∀ {word : List Char}, (∀ c ∈ word, isSmall c = true) →
      c ∈ word.map Char.toUpper → isAlnum c = true := by
    intro word h hc
    obtain ⟨d, hd, rfl⟩ := List.mem_map.mp hc
    exact isAlnum_toUpper (h d hd)
  cases style with
  | small => exact isAlnum_of_isSmall (h c hc)
  | capitals => exact hcapitals h hc
  | title =>
    cases word with
    | nil => cases hc
    | cons a word =>
      obtain ⟨ha, hword⟩ := List.forall_mem_cons.mp h
      rcases List.mem_cons.mp hc with rfl | hc
      · exact isAlnum_toUpper ha
      · exact isAlnum_of_isSmall (hword c hc)

/-- A spelled key has ASCII characters and blanks only, which need no other character to be lowered. -/
theorem ascii_or_blank (k : Spelling) {c : Char} (hc : c ∈ k.text) : c.toNat < 128 ∨ isBlank c = true := by
  have hseparator : isSeparator c = true → c.toNat < 128 ∨ isBlank c = true := by
    intro h
    simp only [isSeparator, Bool.or_eq_true, beq_iff_eq] at h
    rcases h with ((hblank | rfl) | rfl) | rfl
    · exact Or.inr hblank
    · exact Or.inl (by decide)
    · exact Or.inl (by decide)
    · exact Or.inl (by decide)
  rcases List.mem_append.mp hc with hc | hc
  · obtain ⟨p, hp, hc⟩ := List.mem_flatMap.mp hc
    have hproper := k.proper p hp
    rcases List.mem_append.mp hc with hc | hc
    · exact hseparator (hproper.gap c hc)
    · exact Or.inl (toNat_lt_of_isAlnum (isAlnum_of_mem_write hproper.small hc))
  · exact hseparator (k.isPad c hc)

theorem normalize_text (k : Spelling) : normalize k.text = ['_'].intercalate k.words := by
  have hplain : ∀ c ∈ splitWords k.text, c.toNat < 128 ∨ isBlank c = true := by
    intro c hc
    rcases mem_splitWords hc with rfl | hc
    · exact Or.inl (by decide)
    · exact k.ascii_or_blank hc
  rw [normalize_eq, lower_eq_map_toLower hplain, ← joinSplit_text, joinSplit,
    splitAfter_of_not_isAlnum (by decide)]

end Spelling

/-- The normal form of a spelled key is its words in lower case, joined by single underscores; so all
spellings of the same words are of the same category, date-like and epoch-like or not, whatever the
rules are. -/
theorem normalize_spelling (k : Spelling) :
    normalize k.text = ['_'].intercalate k.words ∧
      ∀ k' : Spelling, k'.words = k.words → ∀ r : Rules,
        r.classify k'.text = r.classify k.text ∧ r.isDateKey k'.text = r.isDateKey k.text ∧
          r.isEpochKey k'.text = r.isEpochKey k.text := by
  refine ⟨k.normalize_text, fun k' hwords r => ?_⟩
  have hsame : normalize k'.text = normalize k.text := by
    rw [k'.normalize_text, k.normalize_text, hwords]
  unfold Rules.classify Rules.isDateKey Rules.isEpochKey
  rw [hsame]
  exact ⟨rfl, rfl, rfl⟩

/-- An acronym with a word right behind it. -/
def acronymSpelling : Spelling where
  first := ⟨[], .capitals, "ip".toList⟩
  rest := [⟨[], .title, "address".toList⟩]
  pad := []
  proper := by
    simp only [List.forall_mem_cons, List.not_mem_nil, false_imp_iff, implies_true, and_true]
    exact ⟨⟨by decide, List.all_eq_true.mp (by decide), nofun⟩,
      ⟨by decide, List.all_eq_true.mp (by decide), nofun⟩⟩
  chain := by
    rw [List.isChain_cons_cons]
    exact ⟨fun _ => rfl, List.isChain_singleton _⟩
  isPad := nofun

/-- The same words apart from each other, with separators around them. -/
def spacedSpelling : Spelling where
  first := ⟨['_'], .small, "ip".toList⟩
  rest := [⟨" - ".toList, .capitals, "address".toList⟩]
  pad := [' ']
  proper := by
    simp only [List.forall_mem_cons, List.not_mem_nil, false_imp_iff, implies_true, and_true]
    exact ⟨⟨by decide, List.all_eq_true.mp (by decide), List.all_eq_true.mp (by decide)⟩,
      ⟨by decide, List.all_eq_true.mp (by decide), List.all_eq_true.mp (by decide)⟩⟩
  chain := by
    rw [List.isChain_cons_cons]
    exact ⟨fun h => absurd h (by decide), List.isChain_singleton _⟩
  isPad := List.all_eq_true.mp (by decide)

theorem normalize_spelling_sample :
    normalize "IPAddress".toList = "ip_address".toList ∧
      standardRules.classify "_ip - ADDRESS ".toList = standardRules.classify "IPAddress".toList :=
  ⟨(normalize_spelling acronymSpelling).1,
    ((normalize_spelling acronymSpelling).2 spacedSpelling rfl standardRules).1⟩

end ConsentGate.Field
