import IncrementalLisp.Host.Standard
import IncrementalLisp.Proofs.Number.Rounding

/-! The larger and the smaller of two integers, as the standard host chooses them. It compares them
after they were rounded to doubles, so the choice is right except where two integers that differ
become the same double: then the first argument is chosen.
-/

namespace IncrementalLisp.Host

open Number (ofInt fits_toInt order?_ofInt rank_ofInt_mono rank_ofInt_lt rank_ofInt_le_iff)

/-- A choice between two integers by the standard host. -/
theorem invokeStatic_max (a b : Value)
    : (standard.invokeStatic "Math" "max" [a, b]).1
      = (choose Number.Double.atLeast a b).mapError fun fault =>
        .call (.refused "Math/max" fault) :=
  rfl

/-- The smaller of two values is chosen by the test that the first is at most the second. -/
theorem invokeStatic_min (a b : Value)
    : (standard.invokeStatic "Math" "min" [a, b]).1
      = (choose Number.Double.atMost a b).mapError fun fault => .call (.refused "Math/min" fault) :=
  rfl

/-- Integers compare as floats by the ranks of these, the first at least the second. -/
theorem atLeast_ofInt (a b : Int64)
    : (ofInt a.toInt).atLeast (ofInt b.toInt)
      = decide ((ofInt b.toInt).rank ≤ (ofInt a.toInt).rank) := by
  unfold Number.Double.atLeast
  rw [order?_ofInt (fits_toInt a) (fits_toInt b), Option.any_some, Bool.eq_iff_iff,
    Int.isGE_compare, decide_eq_true_iff]

/-- So they do the other way round. -/
theorem atMost_ofInt (a b : Int64)
    : (ofInt a.toInt).atMost (ofInt b.toInt)
      = decide ((ofInt a.toInt).rank ≤ (ofInt b.toInt).rank) := by
  unfold Number.Double.atMost
  rw [order?_ofInt (fits_toInt a) (fits_toInt b), Option.any_some, Bool.eq_iff_iff,
    Int.isLE_compare, decide_eq_true_iff]

/-- Of two integers, one is chosen by the test on their floats, and stays an integer. -/
theorem choose_int (firstWins : Number.Double → Number.Double → Bool) (a b : Int64)
    : choose firstWins (.int a) (.int b)
      = .ok (.int (if firstWins (ofInt a.toInt) (ofInt b.toInt) then a else b)) :=
  rfl

/-- An answer that is an integer is the expected one if the integers are the same. -/
theorem mapError_ok_int_eq_iff {f : Fault → EvalError} {chosen asked : Int64}
    : (.ok (.int chosen) : Except Fault Value).mapError f = .ok (.int asked)
      ↔ chosen = asked := by
  change (.ok (.int chosen) : Except EvalError Value) = .ok (.int asked) ↔ chosen = asked
  rw [Except.ok.injEq, Value.int.injEq]

/-- The rounded order of two 64-bit integers is that of the integers, except that it does not tell
apart those that become the same double.
-/
theorem rank_le_iff (a b : Int64)
    : (ofInt b.toInt).rank ≤ (ofInt a.toInt).rank ↔ (a < b → ofInt a.toInt = ofInt b.toInt) := by
  by_cases less : a < b
  · have strict : a.toInt < b.toInt := Int64.lt_iff_toInt_lt.mp less
    have rounded := rank_ofInt_le_iff (fits_toInt a) (fits_toInt b) strict
    simp [less, rounded]
  · have order : b.toInt ≤ a.toInt := Int64.le_iff_toInt_le.mp (Int64.not_lt.mp less)
    have kept := rank_ofInt_mono (fits_toInt b) (fits_toInt a) order
    simp [less, kept]

/-- The larger of two integers is chosen unless it comes second and is rounded to the same double.
-/
theorem invokeStatic_max_eq_iff (a b : Int64)
    : (standard.invokeStatic "Math" "max" [.int a, .int b]).1 = .ok (.int (if a < b then b else a))
      ↔ (a < b → ofInt a.toInt ≠ ofInt b.toInt) := by
  have distinct : a < b → a ≠ b := fun less same => Int64.lt_irrefl (same ▸ less)
  rw [invokeStatic_max, choose_int, mapError_ok_int_eq_iff, atLeast_ofInt]
  simp only [rank_le_iff a b, decide_eq_true_iff]
  by_cases less : a < b
  · by_cases same : ofInt a.toInt = ofInt b.toInt <;> simp [less, same, distinct less]
  · simp [less]

/-- The smaller of two integers is chosen unless it comes second and is rounded to the same double.
-/
theorem invokeStatic_min_eq_iff (a b : Int64)
    : (standard.invokeStatic "Math" "min" [.int a, .int b]).1 = .ok (.int (if b < a then b else a))
      ↔ (b < a → ofInt a.toInt ≠ ofInt b.toInt) := by
  have distinct : b < a → a ≠ b := fun less same => Int64.lt_irrefl (same ▸ less)
  rw [invokeStatic_min, choose_int, mapError_ok_int_eq_iff, atMost_ofInt]
  simp only [rank_le_iff b a, decide_eq_true_iff]
  by_cases less : b < a
  · by_cases same : ofInt a.toInt = ofInt b.toInt <;> simp [less, same, eq_comm, distinct less]
  · simp [less]

/-- Integers up to 2 to the 53 are different floats if one is smaller, since their ranks are. -/
theorem ofInt_ne_of_lt {a b : Int64} (left : a.toInt.natAbs ≤ 2 ^ 53)
    (right : b.toInt.natAbs ≤ 2 ^ 53) (less : a < b)
    : ofInt a.toInt ≠ ofInt b.toInt := by
  intro same
  have strict := rank_ofInt_lt left right (Int64.lt_iff_toInt_lt.mp less)
  rw [same] at strict
  exact Int.lt_irrefl _ strict

/-- Of two integers from -2 ^ 53 to 2 ^ 53, the larger and the smaller are chosen. -/
theorem invokeStatic_of_small {a b : Int64} (left : a.toInt.natAbs ≤ 2 ^ 53)
    (right : b.toInt.natAbs ≤ 2 ^ 53)
    : (standard.invokeStatic "Math" "max" [.int a, .int b]).1 = .ok (.int (if a < b then b else a))
      ∧ (standard.invokeStatic "Math" "min" [.int a, .int b]).1
        = .ok (.int (if b < a then b else a)) := by
  constructor
  · exact (invokeStatic_max_eq_iff a b).mpr (ofInt_ne_of_lt left right)
  · exact (invokeStatic_min_eq_iff a b).mpr fun less => (ofInt_ne_of_lt right left less).symm

/-- From 2 ^ 53 on, an integer may be rounded to its neighbour; the smaller one is then chosen. -/
example
    : (standard.invokeStatic "Math" "max" [.int 9007199254740992, .int 9007199254740993]).1
      = .ok (.int 9007199254740992) := by
  rfl

end IncrementalLisp.Host
