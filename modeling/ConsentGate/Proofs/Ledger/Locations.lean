import ConsentGate.Ledger.Isolation
import Mathlib.Data.List.Induction

/-! When two locations overlap.

A path leads somewhere (`Leads`, `Resolves`): to a place, which is the list of the names on the way to it
from the root. A location with a scheme stands for the parts between its slashes. Two locations are compared
as texts, yet the answer is that of the lists: they are refused exactly if one list begins with the other
(`refuses_iff_contains`). Both lists can be read off the form that is compared (`segments`), also at the root,
the only form that ends with a slash. -/
namespace ConsentGate.Ledger
open Text
set_option autoImplicit false
-- Parts of a text are found as the core library does it, also where Mathlib knows another way.
attribute [local instance (high)] List.instDecidableIsInfixOfDecidableEq

/-! ## Places -/

/-- A name in a directory. -/
def IsName (part : List Char) : Prop := part ≠ [] ∧ '/' ∉ part

/-- The names on the way from the root. -/
def IsPlace (place : List (List Char)) : Prop := ∀ part ∈ place, IsName part

/-- The current directory and the homes are places. -/
structure Surroundings.Real (s : Surroundings) : Prop where
  directory : IsPlace s.directory
  home : IsPlace s.home
  homes : ∀ entry ∈ s.homes, IsPlace entry.2

/-- From a directory, the parts of a path lead to a place. -/
inductive Leads : (directory parts place : List (List Char)) → Prop
  | here (directory : List (List Char)) : Leads directory [] directory
  | down {directory rest place : List (List Char)} {name : List Char} (proper : name ≠ ['.', '.'])
      (leads : Leads (directory ++ [name]) rest place) : Leads directory (name :: rest) place
  | up {directory rest place : List (List Char)} {name : List Char}
      (leads : Leads directory rest place) : Leads (directory ++ [name]) (['.', '.'] :: rest) place
  | aboveRoot {rest place : List (List Char)} (leads : Leads [] rest place) :
      Leads [] (['.', '.'] :: rest) place

/-- A path stands for a place. -/
inductive Resolves (s : Surroundings) (path : List Char) : (place : List (List Char)) → Prop
  | absolute {place : List (List Char)} (slash : path.head? = some '/')
      (leads : Leads [] (components path) place) : Resolves s path place
  | home {rest place : List (List Char)} (noSlash : path.head? ≠ some '/')
      (tilde : components path = ['~'] :: rest) (leads : Leads s.home rest place) :
      Resolves s path place
  | userHome {user : List Char} {home rest place : List (List Char)}
      (noSlash : path.head? ≠ some '/') (tilde : components path = ('~' :: user) :: rest)
      (named : user ≠ []) (known : s.homes.lookup user = some home)
      (leads : Leads home rest place) : Resolves s path place
  | relative {place : List (List Char)} (noSlash : path.head? ≠ some '/')
      (noTilde : ∀ user rest, components path ≠ ('~' :: user) :: rest)
      (leads : Leads s.directory (components path) place) : Resolves s path place

variable {s : Surroundings} {directory parts place : List (List Char)}

theorem descend_eq_iff : descend directory parts = place ↔ Leads directory parts place := by
  constructor
  · rintro rfl
    induction parts generalizing directory with
    | nil => exact .here directory
    | cons part rest ih =>
      rw [descend]
      split
      · rename_i hup
        subst hup
        rcases List.eq_nil_or_concat directory with rfl | ⟨parent, name, rfl⟩
        · exact .aboveRoot ih
        · rw [List.concat_eq_append, List.dropLast_concat]
          exact .up ih
      · rename_i hproper
        exact .down hproper ih
  · intro h
    induction h with
    | here => rfl
    | down proper _ ih => rw [descend, if_neg proper, ih]
    | up _ ih => rw [descend, if_pos rfl, List.dropLast_concat, ih]
    | aboveRoot _ ih => rw [descend, if_pos rfl, List.dropLast_nil, ih]

theorem isPlace_components (path : List Char) : IsPlace (components path) := by
  intro part hpart
  obtain ⟨hcut, hkept⟩ := List.mem_filter.mp hpart
  exact ⟨(of_decide_eq_true hkept).1, not_mem_of_mem_cut hcut⟩

theorem Leads.isPlace (h : Leads directory parts place) (hdirectory : IsPlace directory)
    (hparts : IsPlace parts) : IsPlace place := by
  induction h with
  | here => exact hdirectory
  | down _ _ ih =>
    obtain ⟨hname, hrest⟩ := List.forall_mem_cons.mp hparts
    exact ih (List.forall_mem_append.mpr ⟨hdirectory, List.forall_mem_singleton.mpr hname⟩) hrest
  | up _ ih =>
    exact ih (List.forall_mem_append.mp hdirectory).1 (List.forall_mem_cons.mp hparts).2
  | aboveRoot _ ih => exact ih hdirectory (List.forall_mem_cons.mp hparts).2

variable {path : List Char}

theorem Resolves.isPlace (hs : s.Real) (h : Resolves s path place) : IsPlace place := by
  have hcomponents := isPlace_components path
  cases h with
  | absolute _ leads => exact leads.isPlace (List.forall_mem_nil _) hcomponents
  | home _ tilde leads =>
    rw [tilde] at hcomponents
    exact leads.isPlace hs.home (List.forall_mem_cons.mp hcomponents).2
  | userHome _ tilde _ known leads =>
    rw [tilde] at hcomponents
    obtain ⟨before, after, hhomes, _⟩ := List.lookup_eq_some_iff.mp known
    have hhome := hs.homes
    rw [hhomes, List.forall_mem_append, List.forall_mem_cons] at hhome
    exact leads.isPlace hhome.2.1 (List.forall_mem_cons.mp hcomponents).2
  | relative _ _ leads => exact leads.isPlace hs.directory hcomponents

/-! ## Resolving a path -/

/-- No user is named in the path whose home is not known. -/
def HomeKnown (s : Surroundings) (path : List Char) : Prop :=
  path.head? ≠ some '/' → ∀ user rest, components path = ('~' :: user) :: rest → user ≠ [] →
    (s.homes.lookup user).isSome

theorem startOf_of_slash (h : path.head? = some '/') : startOf s path = .ok ([], components path) := by
  obtain ⟨rest, rfl⟩ := List.head?_eq_some_iff.mp h
  rfl

theorem startOf_of_tilde (h : path.head? ≠ some '/') {user : List Char} {rest : List (List Char)}
    (htilde : components path = ('~' :: user) :: rest) :
    startOf s path = (homeOf s user).map fun home => (home, rest) := by
  unfold startOf
  rw [htilde]
  split
  · exact absurd rfl h
  · rename_i _ heq
    cases heq
    rfl
  · rename_i hnone
    exact (hnone user rest rfl).elim

theorem startOf_relative (h : path.head? ≠ some '/')
    (hnone : ∀ user rest, components path ≠ ('~' :: user) :: rest) :
    startOf s path = .ok (s.directory, components path) := by
  unfold startOf
  split
  · exact absurd rfl h
  · rename_i heq
    exact absurd heq (hnone _ _)
  · rfl

theorem homeOf_of_known {user : List Char} (hnamed : user ≠ []) (hfree : forbidden ∉ user)
    {home : List (List Char)} (h : s.homes.lookup user = some home) : homeOf s user = .ok home := by
  rw [homeOf, if_neg hnamed, if_neg (by simpa using hfree), h]

theorem homeOf_eq_ok {user : List Char} {home : List (List Char)} (h : homeOf s user = .ok home) :
    user = [] ∧ s.home = home ∨ user ≠ [] ∧ s.homes.lookup user = some home := by
  unfold homeOf at h
  split at h
  · exact Or.inl ⟨‹_›, Except.ok.inj h⟩
  split at h
  · cases h
  split at h
  · rename_i hlookup
    exact Or.inr ⟨‹_›, hlookup.trans (congrArg some (Except.ok.inj h))⟩
  · cases h

theorem resolve_eq_ok_iff_startOf (hfree : forbidden ∉ path) :
    resolve s path = .ok place ↔
      ∃ start, startOf s path = .ok start ∧ Leads start.1 start.2 place := by
  unfold resolve
  rw [bind_eq_ok]
  refine exists_congr fun ⟨directory, parts⟩ => and_congr_right fun _ => ?_
  dsimp only
  rw [if_neg (by simpa using hfree), ← descend_eq_iff]
  exact ⟨Except.ok.inj, congrArg Except.ok⟩

theorem resolve_eq_ok_iff (hfree : forbidden ∉ path) :
    resolve s path = .ok place ↔ Resolves s path place := by
  rw [resolve_eq_ok_iff_startOf hfree]
  constructor
  · rintro ⟨start, hstart, hleads⟩
    by_cases hslash : path.head? = some '/'
    · rw [startOf_of_slash hslash] at hstart
      cases hstart
      exact .absolute hslash hleads
    by_cases htilde : ∃ user rest, components path = ('~' :: user) :: rest
    · obtain ⟨user, rest, htilde⟩ := htilde
      rw [startOf_of_tilde hslash htilde] at hstart
      obtain ⟨home, hhome, rfl⟩ := map_eq_ok.mp hstart
      rcases homeOf_eq_ok hhome with ⟨rfl, rfl⟩ | ⟨hnamed, hknown⟩
      · exact .home hslash htilde hleads
      · exact .userHome hslash htilde hnamed hknown hleads
    · have hnone : ∀ user rest, components path ≠ ('~' :: user) :: rest :=
        fun user rest h => htilde ⟨user, rest, h⟩
      rw [startOf_relative hslash hnone] at hstart
      cases hstart
      exact .relative hslash hnone hleads
  · intro h
    cases h with
    | absolute slash leads => exact ⟨_, startOf_of_slash slash, leads⟩
    | home noSlash tilde leads => exact ⟨(s.home, _), startOf_of_tilde noSlash tilde, leads⟩
    | @userHome user home rest _ noSlash tilde named known leads =>
      have hfree' : forbidden ∉ user := by
        intro hmem
        have hpart : '~' :: user ∈ components path := tilde ▸ List.mem_cons_self
        exact hfree (mem_of_mem_cut (List.mem_filter.mp hpart).1 (List.mem_cons_of_mem _ hmem))
      refine ⟨(home, rest), ?_, leads⟩
      rw [startOf_of_tilde noSlash tilde, homeOf_of_known named hfree' known]
      rfl
    | relative noSlash noTilde leads => exact ⟨_, startOf_relative noSlash noTilde, leads⟩

theorem exists_resolves (hknown : HomeKnown s path) : ∃ place, Resolves s path place := by
  have hleads : ∀ directory parts, Leads directory parts (descend directory parts) :=
    fun _ _ => descend_eq_iff.mp rfl
  by_cases hslash : path.head? = some '/'
  · exact ⟨_, .absolute hslash (hleads _ _)⟩
  by_cases htilde : ∃ user rest, components path = ('~' :: user) :: rest
  · obtain ⟨user, rest, htilde⟩ := htilde
    by_cases hnamed : user = []
    · subst hnamed
      exact ⟨_, .home hslash htilde (hleads _ _)⟩
    · obtain ⟨home, hhome⟩ := Option.isSome_iff_exists.mp (hknown hslash user rest htilde hnamed)
      exact ⟨_, .userHome hslash htilde hnamed hhome (hleads _ _)⟩
  · exact ⟨_, .relative hslash (fun user rest h => htilde ⟨user, rest, h⟩) (hleads _ _)⟩

/-! ## Slashes at the end -/

/-- The text is the kept one with nothing but slashes behind it, and all of those. -/
def Trims (text kept : List Char) : Prop :=
  (∃ n, text = kept ++ List.replicate n '/') ∧ kept.getLast? ≠ some '/'

theorem dropSlashes_concat (t : List Char) (c : Char) :
    dropSlashes (t ++ [c]) = if c = '/' then dropSlashes t else t ++ [c] := by
  induction t with
  | nil => rfl
  | cons d t ih =>
    rw [List.cons_append, dropSlashes, ih, dropSlashes]
    by_cases hc : c = '/'
    · rw [if_pos hc, if_pos hc]
    · rw [if_neg hc, if_neg hc]
      cases t <;> rfl

theorem dropSlashes_of_getLast? {t : List Char} (h : t.getLast? ≠ some '/') : dropSlashes t = t := by
  rcases List.eq_nil_or_concat t with rfl | ⟨u, c, rfl⟩
  · rfl
  · rw [List.concat_eq_append] at h ⊢
    rw [List.getLast?_concat] at h
    rw [dropSlashes_concat, if_neg fun hc => h (congrArg some hc)]

theorem dropSlashes_append_replicate (t : List Char) (n : Nat) :
    dropSlashes (t ++ List.replicate n '/') = dropSlashes t := by
  induction n with
  | zero => rw [List.replicate_zero, List.append_nil]
  | succ n ih => rw [List.replicate_succ', ← List.append_assoc, dropSlashes_concat, if_pos rfl, ih]

theorem trims_dropSlashes (t : List Char) : Trims t (dropSlashes t) := by
  induction t using List.reverseRecOn with
  | nil => exact ⟨⟨0, rfl⟩, nofun⟩
  | append_singleton t c ih =>
    rw [dropSlashes_concat]
    by_cases hc : c = '/'
    · obtain ⟨⟨n, hn⟩, hlast⟩ := ih
      rw [if_pos hc, hc]
      refine ⟨⟨n + 1, ?_⟩, hlast⟩
      rw [List.replicate_succ', ← List.append_assoc, ← hn]
    · rw [if_neg hc]
      refine ⟨⟨0, (List.append_nil _).symm⟩, ?_⟩
      rw [List.getLast?_concat]
      exact fun h => hc (Option.some.inj h)

theorem dropSlashes_eq_iff {t kept : List Char} : dropSlashes t = kept ↔ Trims t kept := by
  constructor
  · rintro rfl
    exact trims_dropSlashes t
  · rintro ⟨⟨n, rfl⟩, hlast⟩
    rw [dropSlashes_append_replicate, dropSlashes_of_getLast? hlast]

/-! ## Compared forms -/

/-- A form in which locations are compared: only the root ends with a slash. -/
inductive IsForm : List Char → Prop
  | root : IsForm ['/']
  | trimmed {t : List Char} (nonempty : t ≠ []) (fixed : dropSlashes t = t) : IsForm t

/-- The parts of a compared form. -/
def segments (form : List Char) : List (List Char) := cut '/' (dropSlashes form)

/-- Comparing two forms as texts is comparing their parts. -/
theorem within_iff {outer inner : List Char} (ho : IsForm outer) (hi : IsForm inner) :
    within outer inner = true ↔ segments outer <+: segments inner := by
  have hroot : dropSlashes ['/'] = [] := rfl
  rw [segments, segments, cut_prefix_iff, within, Bool.or_eq_true, beq_iff_eq, List.isPrefixOf_iff_prefix]
  cases ho with
  | root =>
    cases hi with
    | root => simp [hroot]
    | trimmed nonempty fixed =>
      rw [fixed, hroot, List.nil_append]
      constructor
      · rintro (rfl | h)
        · exact Or.inr (List.prefix_refl _)
        · exact Or.inr h
      · exact fun h => Or.inr (h.resolve_left nonempty)
  | trimmed nonempty fixed =>
    cases hi with
    | root =>
      rw [fixed, hroot]
      -- The root is not trimmed, and nothing that is trimmed is within it but itself.
      have hne : ['/'] ≠ outer := fun h => nonempty (fixed.symm.trans (h ▸ hroot))
      have hlong : ∀ t : List Char, t.length ≤ 1 → ¬outer ++ ['/'] <+: t := by
        intro t ht hprefix
        have hlength := hprefix.length_le
        rw [List.length_append, List.length_singleton] at hlength
        exact nonempty (List.length_eq_zero_iff.mp (by omega))
      exact iff_of_false (not_or.mpr ⟨hne, hlong _ (by decide)⟩)
        (not_or.mpr ⟨Ne.symm nonempty, hlong _ (by decide)⟩)
    | trimmed _ fixed' => rw [fixed, fixed']

theorem dropSlashes_pathText (h : IsPlace place) :
    dropSlashes (pathText place) = place.flatMap ('/' :: ·) := by
  rcases List.eq_nil_or_concat place with rfl | ⟨parent, name, rfl⟩
  · rfl
  · rw [List.concat_eq_append] at h ⊢
    obtain ⟨hname, hslash⟩ := h name List.mem_concat_self
    obtain ⟨start, c, rfl⟩ := (List.eq_nil_or_concat name).resolve_left hname
    rw [List.concat_eq_append] at hslash
    have hpath : pathText (parent ++ [start ++ [c]]) =
        parent.flatMap ('/' :: ·) ++ '/' :: start ++ [c] := by
      simp [pathText]
    have hc : c ≠ '/' := fun hc => hslash (hc ▸ List.mem_concat_self)
    rw [List.concat_eq_append, hpath, dropSlashes_concat, if_neg hc]
    simp

/-- The first part of a path is empty: the path begins with a slash. -/
theorem segments_pathText (h : IsPlace place) : segments (pathText place) = [] :: place := by
  rw [segments, dropSlashes_pathText h]
  exact cut_append_flatMap List.not_mem_nil fun part hpart => (h part hpart).2

theorem isForm_pathText (h : IsPlace place) : IsForm (pathText place) := by
  have hfixed := dropSlashes_pathText h
  cases place with
  | nil => exact .root
  | cons name rest => exact .trimmed (List.cons_ne_nil _ _) hfixed

/-! ## Locations -/

/-- A location without a scheme, whose path holds no forbidden character. -/
def IsLocal (location : String) : Prop :=
  hasScheme location.toList = false ∧ forbidden ∉ location.toList

/-- What a location stands for, part by part. -/
inductive StandsFor (s : Surroundings) (location : String) : List (List Char) → Prop
  | path {place : List (List Char)} (isLocal : IsLocal location)
      (resolves : Resolves s location.toList place) : StandsFor s location place
  | uri {kept : List Char} (scheme : hasScheme location.toList = true)
      (trims : Trims location.toList kept) : StandsFor s location (cut '/' kept)

/-- Both locations are paths, or both have a scheme. -/
def SameKind (a b : String) : Prop :=
  IsLocal a ∧ IsLocal b ∨ hasScheme a.toList = true ∧ hasScheme b.toList = true

theorem SameKind.each {a b : String} (h : SameKind a b) :
    (IsLocal a ∨ hasScheme a.toList = true) ∧ (IsLocal b ∨ hasScheme b.toList = true) := by
  rcases h with ⟨ha, hb⟩ | ⟨ha, hb⟩
  · exact ⟨Or.inl ha, Or.inl hb⟩
  · exact ⟨Or.inr ha, Or.inr hb⟩

/-- The locations are refused because they overlap. -/
def Refuses (s : Surroundings) (network production : String) : Prop :=
  ensureIsolated s network production = .error (.named (.isolation network production))

/-- A location leads somewhere, unless it names a user whose home is not known. -/
def Known (s : Surroundings) (location : String) : Prop :=
  hasScheme location.toList = true ∨ HomeKnown s location.toList

variable {a b : String} {p q : List (List Char)}

/-- A location that is a path stands for the parts of its form but the first. -/
def lead (location : String) : List (List Char) := if hasScheme location.toList then [] else [[]]

theorem SameKind.lead_eq (h : SameKind a b) : lead a = lead b := by
  unfold lead
  rcases h with ⟨ha, hb⟩ | ⟨ha, hb⟩
  · rw [ha.1, hb.1]
  · rw [ha, hb]

theorem isForm_of_hasScheme {location kept : List Char} (h : hasScheme location = true)
    (htrims : Trims location kept) : IsForm kept := by
  obtain ⟨⟨n, hn⟩, hlast⟩ := htrims
  refine .trimmed ?_ (dropSlashes_of_getLast? hlast)
  rintro rfl
  -- Slashes alone are no scheme.
  have hcolon : ':' ∈ location := (of_decide_eq_true h).subset (by decide)
  rw [hn, List.nil_append] at hcolon
  cases List.eq_of_mem_replicate hcolon

theorem StandsFor.exists_form (hs : s.Real) (h : StandsFor s a p) :
    ∃ form, normalized s a.toList = .ok form ∧ IsForm form ∧ segments form = lead a ++ p := by
  cases h with
  | path isLocal resolves =>
    have hplace := resolves.isPlace hs
    refine ⟨pathText p, ?_, isForm_pathText hplace, ?_⟩
    · rw [normalized, isLocal.1, (resolve_eq_ok_iff isLocal.2).mpr resolves]
      rfl
    · rw [segments_pathText hplace, lead, isLocal.1]
      rfl
  | @uri kept scheme trims =>
    refine ⟨kept, ?_, isForm_of_hasScheme scheme trims, ?_⟩
    · rw [normalized, scheme, if_pos rfl, dropSlashes_eq_iff.mpr trims]
    · rw [segments, dropSlashes_of_getLast? trims.2, lead, scheme]
      rfl

theorem standsFor_segments (scheme : hasScheme a.toList = true) (h : segments a.toList = p) :
    StandsFor s a p := by
  subst h
  exact .uri scheme (trims_dropSlashes a.toList)

theorem exists_standsFor_of_normalized {form : List Char}
    (h : normalized s a.toList = .ok form) (hkind : IsLocal a ∨ hasScheme a.toList = true) :
    ∃ p, StandsFor s a p := by
  rcases hkind with hlocal | hscheme
  · rw [normalized, hlocal.1] at h
    obtain ⟨place, hresolve, _⟩ := map_eq_ok.mp h
    exact ⟨place, .path hlocal ((resolve_eq_ok_iff hlocal.2).mp hresolve)⟩
  · exact ⟨_, standsFor_segments hscheme rfl⟩

theorem exists_standsFor (hkind : IsLocal a ∨ hasScheme a.toList = true) (h : Known s a) :
    ∃ p, StandsFor s a p := by
  rcases hkind with hlocal | hscheme
  · have hknown := h.resolve_left (Bool.eq_false_iff.mp hlocal.1)
    obtain ⟨place, hplace⟩ := exists_resolves hknown
    exact ⟨place, .path hlocal hplace⟩
  · exact ⟨_, standsFor_segments hscheme rfl⟩

/-! ## Refusals -/

theorem map_ne_error {α β : Type} {x : Except Fault α} {f : α → β} {e : Fault} (h : x ≠ .error e) :
    x.map f ≠ .error e := by
  cases x with
  | error e' => exact fun heq => h (congrArg Except.error (Except.error.inj heq))
  | ok a => exact nofun

theorem homeOf_ne_named {user : List Char} {f : Failure} : homeOf s user ≠ .error (.named f) := by
  unfold homeOf
  split
  · exact nofun
  split
  · exact nofun
  split
  · exact nofun
  · exact nofun

/-- A location that leads nowhere is not refused by name. -/
theorem normalized_ne_named {location : List Char} {f : Failure} :
    normalized s location ≠ .error (.named f) := by
  have hstart : startOf s location ≠ .error (.named f) := by
    unfold startOf
    split
    · exact nofun
    · exact map_ne_error homeOf_ne_named
    · exact nofun
  unfold normalized
  split
  · exact nofun
  · refine map_ne_error fun hresolve => ?_
    rcases bind_eq_error.mp hresolve with h | ⟨_, _, h⟩
    · exact hstart h
    · dsimp only at h
      split at h
      · cases h
      · cases h

theorem refuses_iff : Refuses s a b ↔
    ∃ t u, normalized s a.toList = .ok t ∧ normalized s b.toList = .ok u ∧ overlaps t u = true := by
  constructor
  · intro h
    rcases bind_eq_error.mp h with h | ⟨t, ht, h⟩
    · exact absurd h normalized_ne_named
    rcases bind_eq_error.mp h with h | ⟨u, hu, h⟩
    · exact absurd h normalized_ne_named
    refine ⟨t, u, ht, hu, ?_⟩
    split at h
    · assumption
    · cases h
  · rintro ⟨t, u, ht, hu, hoverlaps⟩
    unfold Refuses ensureIsolated
    rw [ht, hu]
    exact if_pos hoverlaps

theorem ensureIsolated_eq_ok_iff : ensureIsolated s a b = .ok () ↔
    ∃ t u, normalized s a.toList = .ok t ∧ normalized s b.toList = .ok u ∧ overlaps t u = false := by
  unfold ensureIsolated
  simp only [bind_eq_ok]
  constructor
  · rintro ⟨t, ht, u, hu, h⟩
    refine ⟨t, u, ht, hu, ?_⟩
    split at h
    · cases h
    · exact Bool.eq_false_iff.mpr ‹_›
  · rintro ⟨t, u, ht, hu, hoverlaps⟩
    exact ⟨t, ht, u, hu, if_neg (Bool.eq_false_iff.mp hoverlaps)⟩

theorem overlaps_comm (t u : List Char) : overlaps t u = overlaps u t := Bool.or_comm _ _

theorem Refuses.symm (h : Refuses s a b) : Refuses s b a := by
  obtain ⟨t, u, ht, hu, hoverlaps⟩ := refuses_iff.mp h
  exact refuses_iff.mpr ⟨u, t, hu, ht, overlaps_comm t u ▸ hoverlaps⟩

theorem ensureIsolated_symm (h : ensureIsolated s a b = .ok ()) : ensureIsolated s b a = .ok () := by
  obtain ⟨t, u, ht, hu, hoverlaps⟩ := ensureIsolated_eq_ok_iff.mp h
  exact ensureIsolated_eq_ok_iff.mpr ⟨u, t, hu, ht, overlaps_comm t u ▸ hoverlaps⟩

/-! ## Containment -/

/-- Where both locations stand for something, the answer is that of the lists. -/
theorem ensureIsolated_eq (hs : s.Real) (h : SameKind a b) (hp : StandsFor s a p)
    (hq : StandsFor s b q) : ensureIsolated s a b =
      if p <+: q ∨ q <+: p then .error (.named (.isolation a b)) else .ok () := by
  obtain ⟨t, ht, htform, htsegments⟩ := hp.exists_form hs
  obtain ⟨u, hu, huform, husegments⟩ := hq.exists_form hs
  have hoverlaps : overlaps t u = true ↔ p <+: q ∨ q <+: p := by
    rw [overlaps, Bool.or_eq_true, within_iff htform huform, within_iff huform htform, htsegments,
      husegments, h.lead_eq, List.prefix_append_right_inj, List.prefix_append_right_inj]
  split
  · exact refuses_iff.mpr ⟨t, u, ht, hu, hoverlaps.mpr ‹_›⟩
  · refine ensureIsolated_eq_ok_iff.mpr ⟨t, u, ht, hu, Bool.eq_false_iff.mpr ?_⟩
    exact mt hoverlaps.mp ‹_›

theorem StandsFor.unique (hs : s.Real) (hp : StandsFor s a p) (hq : StandsFor s a q) : p = q := by
  obtain ⟨t, ht, _, htsegments⟩ := hp.exists_form hs
  obtain ⟨u, hu, _, husegments⟩ := hq.exists_form hs
  cases ht.symm.trans hu
  exact List.append_cancel_left (htsegments.symm.trans husegments)

/-- What diverges contains neither the one nor the other. -/
theorem not_prefix_of_ne {α : Type} {x y : α} (h : x ≠ y) (common xs ys : List α) :
    ¬(common ++ x :: xs <+: common ++ y :: ys ∨ common ++ y :: ys <+: common ++ x :: xs) := by
  simp only [List.prefix_append_right_inj, List.cons_prefix_cons, h, h.symm, false_and, or_self,
    not_false_eq_true]

/-- Two paths, or two locations with a scheme, are refused exactly if what one stands for begins with what
the other stands for. The order of the two does not matter; where they diverge behind a common part, as
siblings do, they are never refused; and where both are known to lead somewhere there is no other failure. -/
theorem refuses_iff_contains (hs : s.Real) (h : SameKind a b) :
    (Refuses s a b ↔ ∃ p q, StandsFor s a p ∧ StandsFor s b q ∧ (p <+: q ∨ q <+: p)) ∧
    (Refuses s a b ↔ Refuses s b a) ∧
    (ensureIsolated s a b = .ok () ↔ ensureIsolated s b a = .ok ()) ∧
    (∀ common x y xs ys, x ≠ y → StandsFor s a (common ++ x :: xs) →
      StandsFor s b (common ++ y :: ys) → ensureIsolated s a b = .ok ()) ∧
    (Known s a → Known s b →
      (∃! p, StandsFor s a p) ∧ (∃! q, StandsFor s b q) ∧
        (Refuses s a b ∨ ensureIsolated s a b = .ok ())) := by
  obtain ⟨ha, hb⟩ := h.each
  refine ⟨⟨fun hrefuses => ?_, ?_⟩, ⟨.symm, .symm⟩, ⟨ensureIsolated_symm, ensureIsolated_symm⟩, ?_,
    fun hka hkb => ?_⟩
  · obtain ⟨t, u, ht, hu, _⟩ := refuses_iff.mp hrefuses
    obtain ⟨p, hp⟩ := exists_standsFor_of_normalized ht ha
    obtain ⟨q, hq⟩ := exists_standsFor_of_normalized hu hb
    refine ⟨p, q, hp, hq, ?_⟩
    by_contra hnot
    rw [Refuses, ensureIsolated_eq hs h hp hq, if_neg hnot] at hrefuses
    cases hrefuses
  · rintro ⟨p, q, hp, hq, hprefix⟩
    exact (ensureIsolated_eq hs h hp hq).trans (if_pos hprefix)
  · intro common x y xs ys hne hp hq
    exact (ensureIsolated_eq hs h hp hq).trans (if_neg (not_prefix_of_ne hne common xs ys))
  · obtain ⟨p, hp⟩ := exists_standsFor ha hka
    obtain ⟨q, hq⟩ := exists_standsFor hb hkb
    refine ⟨⟨p, hp, fun p' hp' => hp'.unique hs hp⟩, ⟨q, hq, fun q' hq' => hq'.unique hs hq⟩, ?_⟩
    rw [Refuses, ensureIsolated_eq hs h hp hq]
    split
    · exact Or.inl rfl
    · exact Or.inr rfl

/-- The current directory lies under the root, next to the home. -/
def plainSystem : Surroundings where
  directory := ["work".toList]
  home := ["home".toList]

theorem plainSystem_real : plainSystem.Real := by
  refine ⟨?_, ?_, nofun⟩
  · exact List.forall_mem_singleton.mpr ⟨by decide, by decide⟩
  · exact List.forall_mem_singleton.mpr ⟨by decide, by decide⟩

/-- A location below the store's is refused, however the paths are written; one whose name begins like the
store's is not, be it a path or a location with a scheme. -/
theorem refuses_iff_contains_sample :
    Refuses plainSystem "./net/../store/rows//" "../work/store" ∧
      ensureIsolated plainSystem "~/store-net" "/home/store/" = .ok () ∧
      ensureIsolated plainSystem "s3://bucket/store/" "s3://bucket/store-net" = .ok () := by
  have hrows : IsLocal "./net/../store/rows//" := ⟨by decide +kernel, by decide +kernel⟩
  have hstore : IsLocal "../work/store" := ⟨by decide +kernel, by decide +kernel⟩
  have hnet : IsLocal "~/store-net" := ⟨by decide +kernel, by decide +kernel⟩
  have hhome : IsLocal "/home/store/" := ⟨by decide +kernel, by decide +kernel⟩
  have hstore' : hasScheme "s3://bucket/store/".toList = true := by decide +kernel
  have hnet' : hasScheme "s3://bucket/store-net".toList = true := by decide +kernel
  refine ⟨?_, ?_, ?_⟩
  · refine (refuses_iff_contains plainSystem_real (.inl ⟨hrows, hstore⟩)).1.mpr
      ⟨["work".toList, "store".toList, "rows".toList], ["work".toList, "store".toList], ?_, ?_, ?_⟩
    · exact .path hrows ((resolve_eq_ok_iff hrows.2).mp (by decide +kernel))
    · exact .path hstore ((resolve_eq_ok_iff hstore.2).mp (by decide +kernel))
    · exact Or.inr ⟨["rows".toList], rfl⟩
  · refine (refuses_iff_contains plainSystem_real (.inl ⟨hnet, hhome⟩)).2.2.2.1
      ["home".toList] "store-net".toList "store".toList [] [] (by decide +kernel) ?_ ?_
    · exact .path hnet ((resolve_eq_ok_iff hnet.2).mp (by decide +kernel))
    · exact .path hhome ((resolve_eq_ok_iff hhome.2).mp (by decide +kernel))
  · refine (refuses_iff_contains plainSystem_real (.inr ⟨hstore', hnet'⟩)).2.2.2.1
      ["s3:".toList, [], "bucket".toList] "store".toList "store-net".toList [] [] (by decide +kernel) ?_ ?_
    · exact standsFor_segments hstore' (by decide +kernel)
    · exact standsFor_segments hnet' (by decide +kernel)

end ConsentGate.Ledger
