import ConsentGate.Proofs.Calendar.Months
import ConsentGate.Value.Moment

/-! Whole seconds since 1970, made coarser.

A number of seconds becomes that of the start of its month in UTC (`generalizeDate_of_inMonth`), and that
is the last start of a month up to it (`generalizeDate_int_eq_ok_iff`). So the order of numbers is kept, a
second time changes nothing, and the results tell months apart and no more (`generalizeDate_isGreatest`).
Numbers that lie in none of the years 1 to 9999 are refused. -/
namespace ConsentGate.Value
open Calendar Timestamp
set_option autoImplicit false

variable {n : Int} {w : Value}

theorem generalizeDate_of_inMonth (h : IsEpochSecond n) (key : String) :
    ∃ year month, InMonth year month n ∧
      (Value.int n).generalizeDate key = .ok (.int (monthSeconds year month)) := by
  obtain ⟨t, ht, hutc, hinstant⟩ := exists_ofEpochSeconds? h
  refine ⟨t.date.year, t.date.month, inMonth hutc hinstant, ?_⟩
  rw [← epochSeconds_monthStart hutc, generalizeDate, toTimestamp, ht]
  rfl

theorem generalizeDate_of_not_isEpochSecond (h : ¬IsEpochSecond n) (key : String) :
    (Value.int n).generalizeDate key = .error (.propertyDecode key "datetime" "int") := by
  rw [generalizeDate, toTimestamp, ofEpochSeconds?_eq_none h]
  rfl

theorem generalizeDate_int_eq_ok_iff {key : String} : (Value.int n).generalizeDate key = .ok w ↔
    IsEpochSecond n ∧ ∃ m, w = .int m ∧ IsGreatest {k | BeginsMonth k ∧ k ≤ n} m := by
  by_cases hsecond : IsEpochSecond n
  · obtain ⟨year, month, hin, hmade⟩ := generalizeDate_of_inMonth hsecond key
    rw [hmade]
    constructor
    · intro h
      cases h
      exact ⟨hsecond, _, rfl, hin.isGreatest⟩
    · rintro ⟨_, m, rfl, hm⟩
      rw [hm.unique hin.isGreatest]
  · rw [generalizeDate_of_not_isEpochSecond hsecond]
    exact iff_of_false nofun fun h => hsecond h.1

/-- The start of the month is itself among the numbers that can be made coarser. -/
theorem isEpochSecond_of_isGreatest {m : Int} (h : IsEpochSecond n)
    (hm : IsGreatest {k | BeginsMonth k ∧ k ≤ n} m) : IsEpochSecond m where
  first := by
    have hfirst : monthSeconds 1 1 = -62135596800 := by decide
    exact hm.2 ⟨⟨1, 1, by decide, by decide, hfirst.symm⟩, h.first⟩
  last := Int.le_trans hm.1.2 h.last

/-- A number of seconds of the years 1 to 9999 becomes the greatest number up to it at which a month
begins, less than 31 days before. A greater number becomes no smaller one, the start of a month stays as
it is, and two numbers become the same exactly if they lie in one month. Every other number is refused as
no point in time. -/
theorem generalizeDate_isGreatest (key : String) :
    (∀ n, IsEpochSecond n → ∃ m, (Value.int n).generalizeDate key = .ok (.int m) ∧
        IsGreatest {k | BeginsMonth k ∧ k ≤ n} m ∧ n - m < 31 * 86400 ∧
        (Value.int m).generalizeDate key = .ok (.int m)) ∧
      (∀ n n' m m', n ≤ n' → (Value.int n).generalizeDate key = .ok (.int m) →
        (Value.int n').generalizeDate key = .ok (.int m') → m ≤ m') ∧
      (∀ n n', IsEpochSecond n → IsEpochSecond n' →
        ((Value.int n).generalizeDate key = (Value.int n').generalizeDate key ↔
          ∃ year month, InMonth year month n ∧ InMonth year month n')) ∧
      ∀ n, ¬IsEpochSecond n →
        (Value.int n).generalizeDate key = .error (.propertyDecode key "datetime" "int") := by
  refine ⟨?_, ?_, ?_, fun n h => generalizeDate_of_not_isEpochSecond h key⟩
  · intro n h
    obtain ⟨year, month, hin, hmade⟩ := generalizeDate_of_inMonth h key
    refine ⟨_, hmade, hin.isGreatest, hin.sub_lt, generalizeDate_int_eq_ok_iff.mpr ?_⟩
    exact ⟨isEpochSecond_of_isGreatest h hin.isGreatest, _, rfl, hin.start_inMonth.isGreatest⟩
  · intro n n' m m' hle hm hm'
    obtain ⟨_, _, ⟨⟩, hm⟩ := generalizeDate_int_eq_ok_iff.mp hm
    obtain ⟨_, _, ⟨⟩, hm'⟩ := generalizeDate_int_eq_ok_iff.mp hm'
    exact hm'.2 ⟨hm.1.1, Int.le_trans hm.1.2 hle⟩
  · intro n n' h h'
    obtain ⟨year, month, hin, hmade⟩ := generalizeDate_of_inMonth h key
    obtain ⟨year', month', hin', hmade'⟩ := generalizeDate_of_inMonth h' key
    rw [hmade, hmade']
    constructor
    · intro hsame
      have hstart := Value.int.inj (Except.ok.inj hsame)
      have hshared : InMonth year' month' (monthSeconds year month) := hstart ▸ hin'.start_inMonth
      obtain ⟨rfl, rfl⟩ := hin.start_inMonth.unique hshared
      exact ⟨year, month, hin, hin'⟩
    · rintro ⟨year'', month'', hn, hn'⟩
      obtain ⟨rfl, rfl⟩ := hin.unique hn
      obtain ⟨rfl, rfl⟩ := hin'.unique hn'
      rfl

/-- The last second of 1969 and the first of 1970, and the first second that lies in no year. -/
theorem generalizeDate_isGreatest_sample :
    IsEpochSecond (-1) ∧ (Value.int (-1)).generalizeDate "at" = .ok (.int (-2678400)) ∧
      IsGreatest {k | BeginsMonth k ∧ k ≤ -1} (-2678400) ∧
      (Value.int (-2678400)).generalizeDate "at" = .ok (.int (-2678400)) ∧
      (Value.int 0).generalizeDate "at" = .ok (.int 0) ∧ (-2678400 : Int) ≤ 0 ∧ IsEpochSecond 0 ∧
      ((Value.int (-1)).generalizeDate "at" = (Value.int 0).generalizeDate "at" ↔
        ∃ year month, InMonth year month (-1) ∧ InMonth year month 0) ∧
      ¬IsEpochSecond 253402300800 ∧
      (Value.int 253402300800).generalizeDate "at" = .error (.propertyDecode "at" "datetime" "int") := by
  obtain ⟨hcoarser, hordered, hsame, hrefused⟩ := generalizeDate_isGreatest "at"
  have hbefore : IsEpochSecond (-1) := ⟨by decide, by decide⟩
  have hzero : IsEpochSecond 0 := ⟨by decide, by decide⟩
  have houtside : ¬IsEpochSecond 253402300800 := fun h => absurd h.last (by decide)
  have hdecember : InMonth 1969 12 (-1) := ⟨by decide, by decide, by decide, by decide⟩
  have hjanuary : InMonth 1970 1 0 := ⟨by decide, by decide, by decide, by decide⟩
  obtain ⟨m, hm, hgreatest, _, hagain⟩ := hcoarser (-1) hbefore
  obtain ⟨k, hk, hgreatest', _⟩ := hcoarser 0 hzero
  obtain rfl : m = -2678400 := hgreatest.unique hdecember.isGreatest
  obtain rfl : k = 0 := hgreatest'.unique hjanuary.isGreatest
  exact ⟨hbefore, hm, hgreatest, hagain, hk, hordered (-1) 0 _ _ (by decide) hm hk, hzero,
    hsame (-1) 0 hbefore hzero, houtside, hrefused _ houtside⟩

end ConsentGate.Value
