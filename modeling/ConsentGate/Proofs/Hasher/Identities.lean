import ConsentGate.Hasher
import Mathlib.Data.List.Basic

/-! Which identities are told apart before they are hashed.

An identity is an identifier with its tenant, if there is one. It is hashed as one text: the identifier,
and behind it a colon and the tenant. Since both may hold colons of their own, a text can be cut in more
than one way. Two identities have the same text if they are the same, or if one of them runs into the
other: the longer identifier takes over a piece of the other's tenant, colon included
(`identifierText_eq_iff`). Identities whose identifiers have no colon are always told apart. -/
namespace ConsentGate.Hasher
set_option autoImplicit false

/-! ## Texts of identities -/

/-- What stands behind an identifier in the text that is hashed. -/
def tenantPart (tenant : List Char) : List Char := if tenant = [] then [] else ':' :: tenant

/-- A tenant that is a text, or none. An empty text counts as none. -/
def IsTenant (tenant : Value) : Prop := tenant = .null ∨ ∃ t, tenant = .str t

theorem identifierText_eq {id : String} {tenant : Value} (h : IsTenant tenant) :
    identifierText (.str id) tenant = .ok (id.toList ++ tenantPart tenant.textD.toList) := by
  obtain rfl | ⟨t, rfl⟩ := h
  · simp [identifierText, Value.truthy, tenantPart, Value.textD, Value.str?]
  · by_cases ht : t = ""
    · subst ht
      simp [identifierText, Value.truthy, tenantPart, Value.textD, Value.str?]
    · have hchars : t.toList ≠ [] := by simpa using ht
      have htruthy : (Value.str t).truthy = true := by simpa [Value.truthy] using ht
      have hpart : tenantPart (Value.str t).textD.toList = ':' :: t.toList := if_neg hchars
      rw [hpart, identifierText, if_pos htruthy]
      rfl

/-! ## Running into another identity -/

/-- The second identifier goes on where the first one ends, with a colon and a piece of the first one's
tenant; what is left of that tenant is what follows the second identifier. -/
def RunsInto (id tenant id' tenant' : List Char) : Prop :=
  tenant ≠ [] ∧ ∃ piece, id' = id ++ ':' :: piece ∧ tenant = piece ++ tenantPart tenant'

variable {id tenant id' tenant' : List Char}

theorem tenantPart_inj : tenantPart tenant = tenantPart tenant' ↔ tenant = tenant' := by
  unfold tenantPart
  by_cases h : tenant = []
  · by_cases h' : tenant' = []
    · simp [h, h']
    · simp [h, h', Ne.symm h']
  · by_cases h' : tenant' = []
    · simp [h, h']
    · simp [h, h']

/-- Only an identifier with a colon is run into, and only by an identity that differs from it in the
identifier as well as in the tenant. -/
theorem RunsInto.ne (h : RunsInto id tenant id' tenant') :
    id ≠ id' ∧ tenant ≠ tenant' ∧ ':' ∈ id' := by
  obtain ⟨htenant, piece, hid, hpiece⟩ := h
  have hlength := congrArg List.length hid
  rw [List.length_append, List.length_cons] at hlength
  refine ⟨?_, ?_, ?_⟩
  · rintro rfl
    omega
  · rintro rfl
    have hlonger := congrArg List.length hpiece
    simp only [tenantPart, if_neg htenant, List.length_append, List.length_cons] at hlonger
    omega
  · rw [hid]
    exact List.mem_append_right id List.mem_cons_self

/-- The text of an identity with a longer identifier is that of one that runs into it. -/
theorem runsInto_iff {more : List Char} (hmore : more ≠ []) :
    tenantPart tenant = more ++ tenantPart tenant' ↔ RunsInto id tenant (id ++ more) tenant' := by
  obtain ⟨c, piece, rfl⟩ := List.exists_cons_of_ne_nil hmore
  unfold RunsInto
  by_cases h : tenant = []
  · simp [h, tenantPart]
  · rw [tenantPart, if_neg h]
    simp only [List.cons_append, List.cons.injEq, List.append_cancel_left_eq]
    constructor
    · rintro ⟨rfl, hpiece⟩
      exact ⟨h, piece, ⟨rfl, rfl⟩, hpiece⟩
    · rintro ⟨_, piece', ⟨rfl, rfl⟩, hpiece⟩
      exact ⟨rfl, hpiece⟩

/-- Two identities of which one runs into the other. -/
def Confused (id tenant id' tenant' : List Char) : Prop :=
  RunsInto id tenant id' tenant' ∨ RunsInto id' tenant' id tenant

theorem Confused.ne (h : Confused id tenant id' tenant') :
    id ≠ id' ∧ tenant ≠ tenant' ∧ (':' ∈ id ∨ ':' ∈ id') := by
  rcases h with h | h
  · obtain ⟨hid, htenant, hcolon⟩ := h.ne
    exact ⟨hid, htenant, Or.inr hcolon⟩
  · obtain ⟨hid, htenant, hcolon⟩ := h.ne
    exact ⟨hid.symm, htenant.symm, Or.inl hcolon⟩

/-- A text of an identity can be cut in another way only if one identity runs into the other. -/
theorem append_tenantPart_eq_iff :
    id ++ tenantPart tenant = id' ++ tenantPart tenant' ↔
      (id = id' ∧ tenant = tenant') ∨ Confused id tenant id' tenant' := by
  have of_runsInto : ∀ {i t i' t' : List Char}, RunsInto i t i' t' →
      i ++ tenantPart t = i' ++ tenantPart t' := by
    rintro i t i' t' ⟨ht, piece, rfl, hpiece⟩
    rw [tenantPart, if_neg ht, List.append_assoc, List.cons_append, ← hpiece]
  constructor
  · intro h
    -- One identifier is the other with more behind it, or nothing more.
    rcases List.append_eq_append_iff.mp h with ⟨more, rfl, hrest⟩ | ⟨more, rfl, hrest⟩
    · by_cases hmore : more = []
      · subst hmore
        exact Or.inl ⟨(List.append_nil id).symm, tenantPart_inj.mp hrest⟩
      · exact Or.inr (Or.inl ((runsInto_iff hmore).mp hrest))
    · by_cases hmore : more = []
      · subst hmore
        exact Or.inl ⟨List.append_nil id', (tenantPart_inj.mp hrest).symm⟩
      · exact Or.inr (Or.inr ((runsInto_iff hmore).mp hrest))
  · rintro (⟨rfl, rfl⟩ | h | h)
    · rfl
    · exact of_runsInto h
    · exact (of_runsInto h).symm

/-! ## Hashes of identities -/

/-- The text hashed for an identifier that is not empty tells identities apart, unless one of them runs
into the other; these differ in identifier and tenant, and one of the identifiers has a colon. Identities
that are told apart have the same hash only where the digest takes two texts to the same value. -/
theorem identifierText_eq_iff (h : Hasher) {id id' : String} {tenant tenant' : Value} (hid : id ≠ "")
    (hid' : id' ≠ "") (htenant : IsTenant tenant) (htenant' : IsTenant tenant') :
    ∃ text text', identifierText (.str id) tenant = .ok text ∧
      identifierText (.str id') tenant' = .ok text' ∧
      h.hashIdentifier (.str id) tenant = .ok (h.digest text) ∧
      h.hashIdentifier (.str id') tenant' = .ok (h.digest text') ∧
      (text = text' ↔ (id = id' ∧ tenant.textD = tenant'.textD) ∨
        Confused id.toList tenant.textD.toList id'.toList tenant'.textD.toList) ∧
      (Confused id.toList tenant.textD.toList id'.toList tenant'.textD.toList →
        id ≠ id' ∧ tenant.textD ≠ tenant'.textD ∧ (':' ∈ id.toList ∨ ':' ∈ id'.toList)) ∧
      (h.hashIdentifier (.str id) tenant = h.hashIdentifier (.str id') tenant' →
        (id = id' ∧ tenant.textD = tenant'.textD) ∨
          Confused id.toList tenant.textD.toList id'.toList tenant'.textD.toList ∨
          (text ≠ text' ∧ h.digest text = h.digest text')) := by
  have htruthy : (Value.str id).truthy = true := by simpa [Value.truthy] using hid
  have htruthy' : (Value.str id').truthy = true := by simpa [Value.truthy] using hid'
  have hhash : h.hashIdentifier (.str id) tenant =
      .ok (h.digest (id.toList ++ tenantPart tenant.textD.toList)) := by
    rw [hashIdentifier, if_pos htruthy, identifierText_eq htenant]
    rfl
  have hhash' : h.hashIdentifier (.str id') tenant' =
      .ok (h.digest (id'.toList ++ tenantPart tenant'.textD.toList)) := by
    rw [hashIdentifier, if_pos htruthy', identifierText_eq htenant']
    rfl
  have htext : id.toList ++ tenantPart tenant.textD.toList =
      id'.toList ++ tenantPart tenant'.textD.toList ↔ (id = id' ∧ tenant.textD = tenant'.textD) ∨
        Confused id.toList tenant.textD.toList id'.toList tenant'.textD.toList := by
    rw [append_tenantPart_eq_iff, String.toList_inj, String.toList_inj]
  refine ⟨_, _, identifierText_eq htenant, identifierText_eq htenant', hhash, hhash', htext, ?_, ?_⟩
  · intro hconfused
    obtain ⟨hids, htenants, hcolon⟩ := hconfused.ne
    exact ⟨mt String.toList_inj.mpr hids, mt String.toList_inj.mpr htenants, hcolon⟩
  · intro hsame
    rw [hhash, hhash'] at hsame
    rw [← or_assoc, ← htext]
    exact or_iff_not_imp_left.mpr fun hne => ⟨hne, Except.ok.inj hsame⟩

/-! ### Samples -/

/-- A hasher with a short salt. -/
def sampleHasher : Hasher := ⟨[115, 97, 108, 116], 16, by decide⟩

theorem identifierText_eq_iff_sample :
    "n-1" ≠ "" ∧ "n-1:acme" ≠ "" ∧ IsTenant (.str "acme") ∧ IsTenant .null ∧
      ∃ text text', identifierText (.str "n-1") (.str "acme") = .ok text ∧
        identifierText (.str "n-1:acme") .null = .ok text' ∧
        sampleHasher.hashIdentifier (.str "n-1") (.str "acme") = .ok (sampleHasher.digest text) ∧
        sampleHasher.hashIdentifier (.str "n-1:acme") .null = .ok (sampleHasher.digest text') ∧
        (text = text' ↔ ("n-1" = "n-1:acme" ∧ (Value.str "acme").textD = Value.null.textD) ∨
          Confused "n-1".toList (Value.str "acme").textD.toList "n-1:acme".toList
            Value.null.textD.toList) ∧
        (Confused "n-1".toList (Value.str "acme").textD.toList "n-1:acme".toList
            Value.null.textD.toList →
          "n-1" ≠ "n-1:acme" ∧ (Value.str "acme").textD ≠ Value.null.textD ∧
            (':' ∈ "n-1".toList ∨ ':' ∈ "n-1:acme".toList)) ∧
        (sampleHasher.hashIdentifier (.str "n-1") (.str "acme") =
            sampleHasher.hashIdentifier (.str "n-1:acme") .null →
          ("n-1" = "n-1:acme" ∧ (Value.str "acme").textD = Value.null.textD) ∨
            Confused "n-1".toList (Value.str "acme").textD.toList "n-1:acme".toList
              Value.null.textD.toList ∨
            (text ≠ text' ∧ sampleHasher.digest text = sampleHasher.digest text')) :=
  ⟨by decide, by decide, Or.inr ⟨"acme", rfl⟩, Or.inl rfl,
    identifierText_eq_iff sampleHasher (by decide) (by decide) (Or.inr ⟨"acme", rfl⟩) (Or.inl rfl)⟩

/-- Three identities that differ from each other are hashed as the one text `a:b:c`, whatever the
hasher is. -/
theorem not_identifierText_injective :
    identifierText (.str "a:b") (.str "c") = .ok "a:b:c".toList ∧
      identifierText (.str "a") (.str "b:c") = .ok "a:b:c".toList ∧
      identifierText (.str "a:b:c") .null = .ok "a:b:c".toList ∧
      ∀ h : Hasher, h.hashIdentifier (.str "a:b") (.str "c") = .ok (h.digest "a:b:c".toList) ∧
        h.hashIdentifier (.str "a") (.str "b:c") = .ok (h.digest "a:b:c".toList) ∧
        h.hashIdentifier (.str "a:b:c") .null = .ok (h.digest "a:b:c".toList) := by
  have hfirst : identifierText (.str "a:b") (.str "c") = .ok "a:b:c".toList := by decide
  have hsecond : identifierText (.str "a") (.str "b:c") = .ok "a:b:c".toList := by decide
  have hthird : identifierText (.str "a:b:c") .null = .ok "a:b:c".toList := by decide
  refine ⟨hfirst, hsecond, hthird, fun h => ⟨?_, ?_, ?_⟩⟩
  · rw [hashIdentifier, if_pos (by decide), hfirst]
    rfl
  · rw [hashIdentifier, if_pos (by decide), hsecond]
    rfl
  · rw [hashIdentifier, if_pos (by decide), hthird]
    rfl

end ConsentGate.Hasher
