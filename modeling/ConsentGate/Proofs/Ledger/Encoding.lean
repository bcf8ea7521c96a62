import ConsentGate.Ledger.Store
import ConsentGate.Proofs.Value.Writing

/-! What a stored row is made of.

Each step from a scrubbed entity to a row is inverted once: which attribute stands in which column, and
in what form. An append adds exactly one such row, or leaves the ledger as it was. -/
namespace ConsentGate.Ledger
open Calendar Scrub
set_option autoImplicit false

/-! ## Columns -/

/-- A value in a column of texts. -/
def Cell.columnText (v : Value) : Except Fault (Option String) := Cell.of v >>= Cell.toText

/-- A value in a column of flags. -/
def Cell.columnFlag (v : Value) : Except Fault (Option Bool) := Cell.of v >>= Cell.toFlag

theorem Cell.columnText_str (s : String) : Cell.columnText (.str s) = .ok (some s) :=
  bind_eq_ok.mpr ⟨⟨.text, .str s, s.toList⟩, Cell.of_str s, Cell.toText_str s⟩

theorem Cell.of_null : Cell.of .null = .ok ⟨.nothing, .null, []⟩ := by
  simp only [Cell.of, cellType, shownIn]
  rfl

theorem Cell.of_bool (b : Bool) : ∃ shown, Cell.of (.bool b) = .ok ⟨.flag, .bool b, shown⟩ := by
  simp only [Cell.of, cellType, shownIn, leafShown]
  exact ⟨_, rfl⟩

theorem Cell.columnText_null : Cell.columnText .null = .ok none :=
  bind_eq_ok.mpr ⟨⟨.nothing, .null, []⟩, Cell.of_null, rfl⟩

/-! ## Drafts -/

/-- The attributes of an entity and the provenance, as they stand in a draft. -/
structure Draft.Encodes (d : Draft) (s : Scrubbed) (p : Provenance) : Prop where
  id : d.id = s.id
  type : d.type = s.type
  provenance : d.provenance = p
  ingestedAt : timeColumn p.ingestedAt = .ok d.ingestedAt
  version : d.version = s.version
  source : d.source = s.source
  createdAt : timeColumn s.createdAt = .ok d.createdAt
  updatedAt : timeColumn s.updatedAt = .ok d.updatedAt
  isDeleted : d.isDeleted = s.isDeleted
  deletedAt : timeColumn s.deletedAt = .ok d.deletedAt
  properties : s.properties.json = .ok d.properties
  metadata : s.metadata.json = .ok d.metadata

theorem Draft.encodes {s : Scrubbed} {p : Provenance} {d : Draft} (h : Draft.of s p = .ok d) :
    d.Encodes s p := by
  unfold Draft.of at h
  obtain ⟨ingestedAt, hingested, h⟩ := bind_eq_ok.mp h
  obtain ⟨createdAt, hcreated, h⟩ := bind_eq_ok.mp h
  obtain ⟨updatedAt, hupdated, h⟩ := bind_eq_ok.mp h
  obtain ⟨deletedAt, hdeleted, h⟩ := bind_eq_ok.mp h
  obtain ⟨properties, hproperties, h⟩ := bind_eq_ok.mp h
  obtain ⟨metadata, hmetadata, h⟩ := bind_eq_ok.mp h
  cases h
  exact ⟨rfl, rfl, rfl, hingested, rfl, rfl, hcreated, hupdated, rfl, hdeleted, hproperties,
    hmetadata⟩

/-! ## Rows -/

/-- A draft as it stands in the columns of a row. -/
structure Row.Shows (r : Row) (d : Draft) : Prop where
  id : Cell.columnText d.id = .ok (some r.id)
  type : Cell.columnText d.type = .ok r.type
  provenance : r.provenance = d.provenance
  ingestedAt : r.ingestedAt = d.ingestedAt
  version : Cell.columnText d.version = .ok r.version
  source : Cell.columnText d.source = .ok r.source
  createdAt : r.createdAt = d.createdAt
  updatedAt : r.updatedAt = d.updatedAt
  isDeleted : Cell.columnFlag d.isDeleted = .ok r.isDeleted
  deletedAt : r.deletedAt = d.deletedAt
  properties : r.properties = d.properties
  metadata : r.metadata = d.metadata

theorem Row.shows {d : Draft} {r : Row} (h : Row.of d = .ok r) : r.Shows d := by
  unfold Row.of at h
  obtain ⟨id, hid, h⟩ := bind_eq_ok.mp h
  obtain ⟨type, htype, h⟩ := bind_eq_ok.mp h
  obtain ⟨version, hversion, h⟩ := bind_eq_ok.mp h
  obtain ⟨source, hsource, h⟩ := bind_eq_ok.mp h
  obtain ⟨isDeleted, hisDeleted, h⟩ := bind_eq_ok.mp h
  split at h
  · obtain ⟨idText, hidText, h⟩ := bind_eq_ok.mp h
    obtain ⟨typeText, htypeText, h⟩ := bind_eq_ok.mp h
    obtain ⟨versionText, hversionText, h⟩ := bind_eq_ok.mp h
    obtain ⟨sourceText, hsourceText, h⟩ := bind_eq_ok.mp h
    obtain ⟨flag, hflag, h⟩ := bind_eq_ok.mp h
    cases idText with
    | none => cases h
    | some text =>
      cases h
      exact ⟨bind_eq_ok.mpr ⟨id, hid, hidText⟩, bind_eq_ok.mpr ⟨type, htype, htypeText⟩, rfl, rfl,
        bind_eq_ok.mpr ⟨version, hversion, hversionText⟩,
        bind_eq_ok.mpr ⟨source, hsource, hsourceText⟩, rfl, rfl,
        bind_eq_ok.mpr ⟨isDeleted, hisDeleted, hflag⟩, rfl, rfl, rfl⟩
  · cases h

/-! ## What can be stored -/

/-- A draft of texts and a flag has a row; only the source may be absent. -/
theorem Row.exists_of_texts {d : Draft} {deleted : Bool} (hid : d.id.isStr = true)
    (htype : d.type.isStr = true) (hversion : d.version.isStr = true)
    (hsource : d.source = .null ∨ d.source.isStr = true) (hdeleted : d.isDeleted = .bool deleted) :
    ∃ r, Row.of d = .ok r := by
  obtain ⟨id, hid⟩ := Value.isStr_iff.mp hid
  obtain ⟨type, htype⟩ := Value.isStr_iff.mp htype
  obtain ⟨version, hversion⟩ := Value.isStr_iff.mp hversion
  obtain ⟨shown, hflag⟩ := Cell.of_bool deleted
  unfold Row.of
  rw [hid, htype, hversion, hdeleted, Cell.of_str, Cell.of_str, Cell.of_str, hflag]
  rcases hsource with hnull | hsource
  · rw [hnull, Cell.of_null]
    exact ⟨_, rfl⟩
  · obtain ⟨source, hsource⟩ := Value.isStr_iff.mp hsource
    rw [hsource, Cell.of_str]
    exact ⟨_, rfl⟩

/-- A scrubbed entity of texts, a flag and times that have a UTC form, with parts that can be
written. -/
def isStorable (s : Scrubbed) : Bool :=
  [s.id, s.type, s.version].all Value.isStr &&
    (match s.source with | .null | .str _ => true | _ => false) &&
    (match s.isDeleted with | .bool _ => true | _ => false) &&
    [s.createdAt, s.updatedAt, s.deletedAt].all (fun v => (timeColumn v).isOk) &&
    s.properties.isWritable && s.metadata.isWritable

/-- Such an entity has a draft, and the draft a row. -/
theorem exists_row_of_isStorable {s : Scrubbed} {p : Provenance} (h : isStorable s = true)
    (hingested : (timeColumn p.ingestedAt).isOk = true) :
    ∃ d r, Draft.of s p = .ok d ∧ Row.of d = .ok r := by
  unfold isStorable at h
  simp only [Bool.and_eq_true, List.all_cons, List.all_nil, and_true] at h
  obtain ⟨⟨⟨⟨⟨⟨hid, htype, hversion⟩, hsource⟩, hdeleted⟩, hcreated, hupdated, hdeletedAt⟩,
    hproperties⟩, hmetadata⟩ := h
  obtain ⟨ingestedAt, hingested⟩ := exists_eq_ok hingested
  obtain ⟨createdAt, hcreated⟩ := exists_eq_ok hcreated
  obtain ⟨updatedAt, hupdated⟩ := exists_eq_ok hupdated
  obtain ⟨deletedAt, hdeletedAt⟩ := exists_eq_ok hdeletedAt
  obtain ⟨properties, hproperties⟩ := Value.exists_json _ hproperties
  obtain ⟨metadata, hmetadata⟩ := Value.exists_json _ hmetadata
  obtain ⟨d, hd⟩ : ∃ d, Draft.of s p = .ok d := by
    unfold Draft.of
    rw [hingested, hcreated, hupdated, hdeletedAt, hproperties, hmetadata]
    exact ⟨_, rfl⟩
  have hencodes := Draft.encodes hd
  obtain ⟨deleted, hdeleted⟩ : ∃ deleted, d.isDeleted = .bool deleted := by
    rw [hencodes.isDeleted]
    split at hdeleted
    · exact ⟨_, by assumption⟩
    · cases hdeleted
  obtain ⟨r, hr⟩ : ∃ r, Row.of d = .ok r := by
    refine Row.exists_of_texts ?_ ?_ ?_ ?_ hdeleted
    · rw [hencodes.id]
      exact hid
    · rw [hencodes.type]
      exact htype
    · rw [hencodes.version]
      exact hversion
    · rw [hencodes.source]
      split at hsource
      · rename_i hnull
        exact Or.inl hnull
      · rename_i source htext
        exact Or.inr (Value.isStr_iff.mpr ⟨source, htext⟩)
      · cases hsource
  exact ⟨d, r, hd, hr⟩

/-! ## Appends -/

/-- A draft that has a row is appended, unless the ledger is broken; nothing else changes. -/
theorem Store.append_eq {l : Store} {s : Scrubbed} {p : Provenance} {d : Draft} {r : Row}
    (hd : Draft.of s p = .ok d) (hbroken : l.broken = none) (hr : Row.of d = .ok r) :
    l.append (some s) (some p) =
      (.ok (), [line .info "stored_contribution" p ("scrubbing_level", p.level.name)],
        { l with rows := l.rows ++ [r] }) := by
  have hrow : l.rowFor d = .ok r := by
    unfold rowFor
    rw [hbroken]
    exact hr
  simp only [append, hd, hrow]

/-- Only such drafts are appended. -/
theorem Store.append_ok {l : Store} {s : Scrubbed} {p : Provenance}
    (h : (l.append (some s) (some p)).1 = .ok ()) :
    ∃ d r, Draft.of s p = .ok d ∧ l.broken = none ∧ Row.of d = .ok r := by
  unfold append at h
  dsimp only at h
  cases hd : Draft.of s p with
  | error f => simp [hd] at h
  | ok d =>
    cases hr : l.rowFor d with
    | error f => simp [hd, hr] at h
    | ok r =>
      unfold rowFor at hr
      cases hb : l.broken with
      | some f => simp [hb] at hr
      | none =>
        rw [hb] at hr
        exact ⟨d, r, rfl, rfl, hr⟩

/-- An append that fails leaves the ledger as it was. -/
theorem Store.append_error {l : Store} {s : Scrubbed} {p : Provenance} {f : Fault}
    (h : (l.append (some s) (some p)).1 = .error f) :
    (l.append (some s) (some p)).2.2 = l := by
  unfold append at h ⊢
  dsimp only at h ⊢
  cases hd : Draft.of s p with
  | error f => rfl
  | ok d =>
    cases hr : l.rowFor d with
    | error f => simp [hr]
    | ok r => simp [hd, hr] at h

/-! ## Reading -/

/-- The identifier of a row is found whenever the ledger can be reached. -/
theorem Store.contains_of_mem {l : Store} {row : Row} (h : row ∈ l.rows) :
    l.contains row.id = (l.access "contains").map fun _ => true := by
  rw [contains_eq, access]
  cases l.broken with
  | some f => rfl
  | none =>
    have hfound : (l.rows.any fun r => r.id == row.id) = true :=
      List.any_eq_true.mpr ⟨row, h, beq_self_eq_true row.id⟩
    exact congrArg Except.ok hfound

end ConsentGate.Ledger
