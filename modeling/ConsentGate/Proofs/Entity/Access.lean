import ConsentGate.Entity.Access
import ConsentGate.Proofs.Number.Whole
import ConsentGate.Proofs.Value.Texts

/-! What typed access to a property gives.

The default stands in for an absent property and for nothing else. Any other property alone decides the
answer (`get_default`): it is of the type asked for, and equal to a number that is stored, or a
failure that tells of the value no more than its type. Two conversions can break instead, those of an
integer that has no text and of a decimal that is no integer in memory (`Breaks`); nothing else escapes
(`get_of_stored`). -/
namespace ConsentGate
open Number
set_option autoImplicit false

namespace Value

/-- Whatever is no point in time is refused in one way. -/
theorem toTimestamp_error {v : Value} {key : String} {f : Failure} (h : v.toTimestamp key = .error f) :
    f = v.decodeFailure key "datetime" := by
  have hread : ∀ o : Option Calendar.Timestamp,
      o.elim (.error (v.decodeFailure key "datetime")) .ok = Except.error f →
        f = v.decodeFailure key "datetime" := by
    intro o ho
    cases o with
    | none => exact (Except.error.inj ho).symm
    | some t => cases ho
  cases v with
  | datetime t => cases h
  | date d => cases h
  | str s =>
    obtain ⟨_, _, hf⟩ := mapError_eq_error.mp h
    exact hf.symm
  | int n => exact hread _ h
  | float x => exact hread _ h
  | _ => exact (Except.error.inj h).symm

theorem getD_eq_null_iff {fields : Fields} {key : String} : getD fields key = .null ↔
    get? fields key = none ∨ get? fields key = some .null := by
  rw [getD]
  cases get? fields key <;> simp

theorem getD_single (key : String) (v : Value) : getD [(.str key, v)] key = v := by
  simp [getD, get?, isText]

end Value

namespace Entity

/-- A type as which a property can be read. -/
inductive Accessor where
  | text
  | int
  | timestamp

namespace Accessor

variable {a : Accessor} {fields : Fields} {key : String} {v : Value} {fault : Fault}

def get : Accessor → Fields → String → Value → Except Fault Value
  | .text => getText
  | .int => getInt
  | .timestamp => getTimestamp

/-- The type by its name in failures. -/
def expected : Accessor → String
  | .text => "str"
  | .int => "int"
  | .timestamp => "datetime"

/-- A conversion that is broken off by a fault of another kind. -/
inductive Breaks : Accessor → Value → Fault → Prop
  | text {n : Int} (long : digitLimit < (Nat.toDigits 10 n.natAbs).length) :
      Breaks .text (.int n) .wrongValue
  | int {v : Value} (vast : isVast v = true) : Breaks .int v (.external "MemoryError")

/-- An answer is of the type asked for, and equal to the value where that is a number; truth values are
none. -/
inductive Answers : Accessor → Value → Value → Prop
  | text {v : Value} (s : String) : Answers .text v (.str s)
  | int {v : Value} (n : Int) (noBool : ∀ b, v ≠ .bool b)
      (equal : ∀ x, v.quantity? = some x → x.Equals n) : Answers .int v (.int n)
  | timestamp {v : Value} (t : Calendar.Timestamp) : Answers .timestamp v (.datetime t)

/-- The ways in which reading a value can end. -/
def Ends (a : Accessor) (key : String) (v : Value) (result : Except Fault Value) : Prop :=
  (∃ w, result = .ok w ∧ a.Answers v w) ∨
    result = .error (.named (.propertyDecode key a.expected v.typeName)) ∨
    ∃ fault, a.Breaks v fault ∧ result = .error fault

/-! ## The default -/

theorem get_of_getD_null (h : Value.getD fields key = .null) (default : Value) :
    a.get fields key default = .ok default := by
  cases a <;> simp only [get, getText, getInt, getTimestamp, h]

theorem get_default (h : Value.getD fields key = v) (hv : v ≠ .null) (default default' : Value) :
    a.get fields key default = a.get fields key default' := by
  cases a <;> simp only [get, getText, getInt, getTimestamp, h]
  all_goals
    cases v with
    | null => exact absurd rfl hv
    | _ => rfl

/-! ## What breaks -/

theorem get_of_breaks (h : Value.getD fields key = v) (hbreaks : a.Breaks v fault) (default : Value) :
    a.get fields key default = .error fault := by
  cases hbreaks with
  | @text n long =>
    have hplain : (Value.int n).plain = .error .wrongValue :=
      Value.intText_of_long (Nat.not_le.mpr long)
    rw [get, getText, h]
    show (Value.plainString (.int n)).map Value.str = _
    rw [Value.plainString, hplain]
    rfl
  | int vast =>
    rw [get, getInt, h]
    cases v with
    | null => cases vast
    | _ => exact if_pos vast

/-! ## One accessor after the other -/

theorem getText_ends (h : Value.getD fields key = v) (hv : v ≠ .null) (default : Value) :
    text.Ends key v (getText fields key default) := by
  by_cases hbreaks : ∃ fault, text.Breaks v fault
  · obtain ⟨fault, hbreaks⟩ := hbreaks
    exact Or.inr (Or.inr ⟨fault, hbreaks, get_of_breaks h hbreaks default⟩)
  have hwritten : v.isShort = true → text.Ends key v (v.plainString.map .str) := by
    intro hshort
    obtain ⟨s, hs⟩ := Value.exists_plain hshort
    rw [Value.plainString, hs]
    exact Or.inl ⟨_, rfl, .text _⟩
  rw [getText, h]
  cases v with
  | null => exact absurd rfl hv
  | str s => exact Or.inl ⟨_, rfl, .text s⟩
  | date d => exact Or.inl ⟨_, rfl, .text _⟩
  | datetime t => exact Or.inl ⟨_, rfl, .text _⟩
  | bool b => exact hwritten rfl
  | float x => exact hwritten rfl
  | decimal d => exact hwritten rfl
  | int n =>
    have hlength : ¬digitLimit < (Nat.toDigits 10 n.natAbs).length := fun long =>
      hbreaks ⟨_, .text long⟩
    exact hwritten (decide_eq_true (Nat.le_of_not_lt hlength))
  | _ => exact Or.inr (Or.inl rfl)

theorem toInt?_eq_some_iff {x : Quantity} {n : Int} (hx : v.quantity? = some x)
    (hbool : ∀ b, v ≠ .bool b) : toInt? v = some n ↔ x.Equals n := by
  cases v with
  | bool b => exact absurd rfl (hbool b)
  | int m =>
    cases hx
    exact Option.some_inj.trans Quantity.equals_whole.symm
  | float y =>
    cases hx
    exact Binary64.toInt?_eq_some_iff
  | decimal d =>
    cases hx
    exact Decimal.toInt?_eq_some_iff
  | _ => cases hx

theorem toInt?_answers {n : Int} (h : toInt? v = some n) : Answers .int v (.int n) := by
  have hbool : ∀ b, v ≠ .bool b := by
    rintro b rfl
    cases h
  exact .int n hbool fun x hx => (toInt?_eq_some_iff hx hbool).mp h

theorem getInt_of_not_vast (h : Value.getD fields key = v) (hv : v ≠ .null) (hvast : ¬isVast v = true)
    (default : Value) : getInt fields key default =
      match toInt? v with
      | some n => .ok (.int n)
      | none => .error (.named (v.decodeFailure key "int")) := by
  rw [getInt, h]
  cases v with
  | null => exact absurd rfl hv
  | _ => exact if_neg hvast

theorem getInt_ends (h : Value.getD fields key = v) (hv : v ≠ .null) (default : Value) :
    int.Ends key v (getInt fields key default) := by
  by_cases hvast : isVast v = true
  · exact Or.inr (Or.inr ⟨_, .int hvast, get_of_breaks h (.int hvast) default⟩)
  rw [getInt_of_not_vast h hv hvast]
  split
  · rename_i n hn
    exact Or.inl ⟨_, rfl, toInt?_answers hn⟩
  · exact Or.inr (Or.inl rfl)

theorem getTimestamp_ends (h : Value.getD fields key = v) (hv : v ≠ .null) (default : Value) :
    timestamp.Ends key v (getTimestamp fields key default) := by
  have hread : getTimestamp fields key default =
      ((v.toTimestamp key).map Value.datetime).mapError .named := by
    rw [getTimestamp, h]
    cases v with
    | null => exact absurd rfl hv
    | _ => rfl
  rw [hread]
  cases ht : v.toTimestamp key with
  | ok t => exact Or.inl ⟨_, rfl, .timestamp t⟩
  | error f =>
    rw [Value.toTimestamp_error ht]
    exact Or.inr (Or.inl rfl)

/-! ## All accessors -/

theorem get_ends (h : Value.getD fields key = v) (hv : v ≠ .null) (default : Value) :
    a.Ends key v (a.get fields key default) := by
  cases a with
  | text => exact getText_ends h hv default
  | int => exact getInt_ends h hv default
  | timestamp => exact getTimestamp_ends h hv default

/-- An access gives a value or the one failure that is meant for it. -/
def Decodes (a : Accessor) (fields : Fields) (key : String) : Prop :=
  ∀ default, (∃ w, a.get fields key default = .ok w) ∨
    ∃ expected actual,
      a.get fields key default = .error (.named (.propertyDecode key expected actual))

theorem not_decodes_of_breaks (h : Value.getD fields key = v) (hbreaks : a.Breaks v fault) :
    ¬a.Decodes fields key := by
  intro hdecodes
  rcases hdecodes .null with ⟨w, hw⟩ | ⟨expected, actual, hfailure⟩
  · rw [get_of_breaks h hbreaks] at hw
    cases hw
  · rw [get_of_breaks h hbreaks] at hfailure
    cases hbreaks <;> cases hfailure

theorem get_eq_default_iff : (∀ default, a.get fields key default = .ok default) ↔
    Value.getD fields key = .null := by
  refine ⟨fun h => ?_, get_of_getD_null⟩
  by_contra hv
  have hsame := get_default (a := a) rfl hv .null (.bool true)
  rw [h, h] at hsame
  cases hsame

theorem decodes_iff : a.Decodes fields key ↔
    ∀ fault, ¬a.Breaks (Value.getD fields key) fault := by
  refine ⟨fun h fault hbreaks => not_decodes_of_breaks rfl hbreaks h, fun h default => ?_⟩
  by_cases hv : Value.getD fields key = .null
  · exact Or.inl ⟨default, get_of_getD_null hv default⟩
  · rcases get_ends (a := a) rfl hv default with ⟨w, hw, _⟩ | hfailure | ⟨fault, hbreaks, _⟩
    · exact Or.inl ⟨w, hw⟩
    · exact Or.inr ⟨_, _, hfailure⟩
    · exact absurd hbreaks (h fault)

/-- An accessor gives the default exactly where the property is absent or null, and what is meant for it
exactly where no conversion breaks. Where a property is stored, the answer is the same whatever the
default is; a failure names the key, the type asked for and that of the value, and a number that equals
an integer gives it, unless that is too long. -/
theorem get_of_stored (a : Accessor) (fields : Fields) (key : String) :
    ((∀ default, a.get fields key default = .ok default) ↔
        Value.get? fields key = none ∨ Value.get? fields key = some .null) ∧
      (a.Decodes fields key ↔ ∀ fault, ¬a.Breaks (Value.getD fields key) fault) ∧
      ∀ v, Value.get? fields key = some v → v ≠ .null →
        ∃ result, (∀ default, a.get fields key default = result) ∧ a.Ends key v result ∧
          (∀ fault, a.Breaks v fault → result = .error fault) ∧
          (a = .int → ∀ x n, v.quantity? = some x → (∀ b, v ≠ .bool b) → x.Equals n →
            isVast v = false → result = .ok (.int n)) := by
  refine ⟨get_eq_default_iff.trans Value.getD_eq_null_iff, decodes_iff, ?_⟩
  intro v hstored hv
  have h : Value.getD fields key = v := by rw [Value.getD, hstored, Option.getD_some]
  refine ⟨a.get fields key .null, fun default => get_default h hv default .null, get_ends h hv .null,
    fun fault hbreaks => get_of_breaks h hbreaks .null, ?_⟩
  rintro rfl x n hx hbool hequal hvast
  rw [get, getInt_of_not_vast h hv (Bool.eq_false_iff.mp hvast), (toInt?_eq_some_iff hx hbool).mpr hequal]

/-! ### A sample, and what does not decode -/

/-- A whole decimal, one too long and a truth value. -/
def countedFields : Fields :=
  [(.str "rooms", .decimal (.finite true 70 (-1))),
    (.str "debt", .decimal (.finite false 1 999999999999999999)), (.str "sold", .bool true)]

theorem get_of_stored_sample :
    Value.get? countedFields "rooms" = some (.decimal (.finite true 70 (-1))) ∧
      Value.decimal (.finite true 70 (-1)) ≠ .null ∧
      (∀ default, int.get countedFields "rooms" default = .ok (.int (-7))) ∧
      int.Breaks (.decimal (.finite false 1 999999999999999999)) (.external "MemoryError") ∧
      (∀ default, int.get countedFields "debt" default = .error (.external "MemoryError")) ∧
      ¬int.Decodes countedFields "debt" ∧ timestamp.Decodes countedFields "sold" := by
  obtain ⟨_, _, hrooms⟩ := get_of_stored int countedFields "rooms"
  obtain ⟨_, hsame, _, _, hwhole⟩ := hrooms _ rfl nofun
  have hequal : (Quantity.decimal (.finite true 70 (-1))).Equals (-7) :=
    Decimal.toInt?_eq_some_iff.mp (by decide)
  have hseven := hwhole rfl _ (-7) rfl nofun hequal (by decide)
  have hbreaks : int.Breaks (.decimal (.finite false 1 999999999999999999)) (.external "MemoryError") :=
    .int (by decide +kernel)
  obtain ⟨_, hdebt, hstored⟩ := get_of_stored int countedFields "debt"
  obtain ⟨_, hsame', _, hends, _⟩ := hstored _ rfl nofun
  obtain ⟨_, hsold, _⟩ := get_of_stored timestamp countedFields "sold"
  exact ⟨rfl, nofun, fun default => (hsame default).trans hseven, hbreaks,
    fun default => (hsame' default).trans (hends _ hbreaks), fun h => hdebt.mp h _ hbreaks,
    hsold.mpr nofun⟩

theorem breaks_of_tenPow {k : ℕ} (h : digitLimit ≤ k) :
    text.Breaks (.int (10 ^ k : ℕ)) .wrongValue := by
  refine .text ?_
  rw [Int.natAbs_natCast]
  exact h.trans_lt (lt_length_toDigits k)

/-- A decimal can be too long for memory, and an integer too long for a text. -/
theorem not_decodes_long :
    ¬int.Decodes [(.str "n", .decimal (.finite false 1 999999999999999999))] "n" ∧
      ¬text.Decodes [(.str "n", .int (10 ^ 4300 : ℕ))] "n" := by
  have hvast : isVast (.decimal (.finite false 1 999999999999999999)) = true := by decide +kernel
  exact ⟨not_decodes_of_breaks (Value.getD_single _ _) (.int hvast),
    not_decodes_of_breaks (Value.getD_single _ _) (breaks_of_tenPow (Nat.le_refl digitLimit))⟩

end Accessor

end Entity

end ConsentGate
