import IncrementalLisp.Number.Double
import IncrementalLisp.Proofs.Number.IntegerText
import Mathlib.Algebra.Ring.Int.Defs
import Mathlib.Algebra.Ring.Nat
import Mathlib.Tactic.SplitIfs

/-! Integers as doubles. Rounding keeps the order of 64-bit integers and never leads to a NaN; what
it may lose is that two of them differ. Up to a magnitude of 2 ^ 53 it loses nothing.
-/

namespace IncrementalLisp.Number

/-- A rounded quotient is the whole quotient or one more. -/
theorem roundHalfEven_le_succ (num den : Nat)
    : num / den ≤ roundHalfEven num den ∧ roundHalfEven num den ≤ num / den + 1 := by
  unfold roundHalfEven
  dsimp only
  split_ifs <;> omega

/-- Rounding keeps the order. Witness: numerators with the same quotient are compared by the rest,
others have the larger quotient between them.
-/
theorem roundHalfEven_mono (den : Nat) {a b : Nat} (le : a ≤ b)
    : roundHalfEven a den ≤ roundHalfEven b den := by
  have quotients : a / den ≤ b / den := Nat.div_le_div_right le
  rcases Nat.eq_or_lt_of_le quotients with same | less
  · have rests : a % den ≤ b % den := by
      have first := Nat.div_add_mod a den
      have second := Nat.div_add_mod b den
      rw [same] at first
      omega
    unfold roundHalfEven
    dsimp only
    rw [same]
    split_ifs <;> omega
  · have above := (roundHalfEven_le_succ a den).2
    have below := (roundHalfEven_le_succ b den).1
    omega

/-- A common factor makes no difference to rounding, since the quotient and the comparison of the
rest stay.
-/
theorem roundHalfEven_mul_right (num den : Nat) {scale : Nat} (positive : 0 < scale)
    : roundHalfEven (num * scale) (den * scale) = roundHalfEven num den := by
  have twice : 2 * (num % den * scale) = 2 * (num % den) * scale := by rw [Nat.mul_assoc]
  unfold roundHalfEven
  dsimp only
  rw [Nat.mul_div_mul_right _ _ positive, Nat.mul_mod_mul_right, twice]
  simp only [gt_iff_lt, Nat.mul_lt_mul_right positive]

/-- A whole number is rounded to itself. -/
theorem roundHalfEven_mul_left (whole : Nat) {den : Nat} (positive : 0 < den)
    : roundHalfEven (whole * den) den = whole := by
  unfold roundHalfEven
  simp [positive]

-----------------------------------------------------------------------------------------
-- The place of a rounded integer among the doubles
-----------------------------------------------------------------------------------------

/-- A positive integer, scaled by a power of two so that 53 bits remain, and rounded. -/
def significandOf (n : Nat)
    : Nat :=
  roundHalfEven (n * 2 ^ 52) (2 ^ n.log2)

/-- The place, among the doubles from zero on, of the one nearest to an integer. -/
def placeOf (n : Nat)
    : Nat :=
  if n = 0 then 0 else (n.log2 + 1022) * 2 ^ 52 + significandOf n

/-- The significand of a positive number has 53 bits, or is the next power of two. -/
theorem significandOf_bounds {n : Nat} (positive : n ≠ 0)
    : 2 ^ 52 ≤ significandOf n ∧ significandOf n ≤ 2 ^ 53 := by
  have scale : 0 < 2 ^ n.log2 := Nat.two_pow_pos _
  have least : 2 ^ 52 * 2 ^ n.log2 ≤ n * 2 ^ 52 := by
    have power := Nat.log2_self_le positive
    rw [Nat.mul_comm]
    exact Nat.mul_le_mul_right _ power
  have most : n * 2 ^ 52 ≤ 2 ^ 53 * 2 ^ n.log2 := by
    have power : n < 2 ^ (n.log2 + 1) := Nat.lt_log2_self
    rw [Nat.pow_succ] at power
    omega
  -- both bounds are whole multiples of the unit, which rounding leaves as they are
  constructor
  · rw [← roundHalfEven_mul_left (2 ^ 52) scale]
    exact roundHalfEven_mono _ least
  · rw [← roundHalfEven_mul_left (2 ^ 53) scale]
    exact roundHalfEven_mono _ most

/-- An integer that has 53 bits is not rounded. -/
theorem significandOf_eq {n : Nat} (small : n.log2 ≤ 52)
    : significandOf n = n * 2 ^ (52 - n.log2) := by
  have split : 2 ^ 52 = 2 ^ (52 - n.log2) * 2 ^ n.log2 := by
    rw [← Nat.pow_add, Nat.sub_add_cancel small]
  unfold significandOf
  rw [split, ← Nat.mul_assoc]
  exact roundHalfEven_mul_left _ (Nat.two_pow_pos _)

/-- Larger numbers have no smaller logarithm. -/
theorem log2_le_log2 {a b : Nat} (positive : a ≠ 0) (le : a ≤ b)
    : a.log2 ≤ b.log2 :=
  (Nat.le_log2 (by omega)).mpr (Nat.le_trans (Nat.log2_self_le positive) le)

/-- A positive number has a positive place among the floats. -/
theorem placeOf_pos {n : Nat} (positive : n ≠ 0)
    : 0 < placeOf n := by
  rw [placeOf, if_neg positive]
  have least := (significandOf_bounds positive).1
  omega

/-- Larger numbers have no smaller place, within one power of two and across them. -/
theorem placeOf_mono {a b : Nat} (le : a ≤ b)
    : placeOf a ≤ placeOf b := by
  by_cases zero : a = 0
  · simp [placeOf, zero]
  · have other : b ≠ 0 := by omega
    rw [placeOf, placeOf, if_neg zero, if_neg other]
    rcases Nat.eq_or_lt_of_le (log2_le_log2 zero le) with same | less
    · unfold significandOf
      rw [same]
      have rounded :=
        roundHalfEven_mono (2 ^ b.log2) (Nat.mul_le_mul_right (2 ^ 52) le)
      omega
    · -- the next power of two stands between them
      have above := (significandOf_bounds zero).2
      have below := (significandOf_bounds other).1
      omega

/-- An integer below 2 ^ 53 is rounded to another double than any larger one. -/
theorem placeOf_lt {a b : Nat} (small : a < 2 ^ 53) (less : a < b)
    : placeOf a < placeOf b := by
  by_cases zero : a = 0
  · subst zero
    exact placeOf_pos (by omega)
  · have other : b ≠ 0 := by omega
    have short : a.log2 ≤ 52 := Nat.le_of_lt_succ ((Nat.log2_lt zero).mpr small)
    rw [placeOf, placeOf, if_neg zero, if_neg other, significandOf_eq short]
    rcases Nat.eq_or_lt_of_le (log2_le_log2 zero (Nat.le_of_lt less)) with same | shorter
    · have scaled : a * 2 ^ (52 - b.log2) < b * 2 ^ (52 - b.log2) :=
        Nat.mul_lt_mul_of_pos_right less (Nat.two_pow_pos _)
      rw [significandOf_eq (same ▸ short), same]
      omega
    · have full : a * 2 ^ (52 - a.log2) < 2 ^ 53 := by
        calc a * 2 ^ (52 - a.log2) < 2 ^ (a.log2 + 1) * 2 ^ (52 - a.log2) :=
              Nat.mul_lt_mul_of_pos_right Nat.lt_log2_self (Nat.two_pow_pos _)
          _ = 2 ^ 53 := by rw [← Nat.pow_add]; congr 1; omega
      have below := (significandOf_bounds other).1
      omega

/-- Numbers of 64 bits have places among the finite floats. -/
theorem placeOf_le {n : Nat} (small : n < 2 ^ 64)
    : placeOf n ≤ 1087 * 2 ^ 52 := by
  by_cases zero : n = 0
  · simp [placeOf, zero]
  · have short : n.log2 ≤ 63 := Nat.le_of_lt_succ ((Nat.log2_lt zero).mpr small)
    have most := (significandOf_bounds zero).2
    rw [placeOf, if_neg zero]
    omega

-----------------------------------------------------------------------------------------
-- The double nearest to an integer
-----------------------------------------------------------------------------------------

/-- The scaled quotient of a number by one is its significand, by whether it is scaled up or down.
-/
theorem scaledRound_eq (n : Nat)
    : scaledRound n 1 ((n.log2 : Int) - 52) = significandOf n := by
  unfold scaledRound
  split
  case h_1 up exponent =>
    have size : n.log2 = up + 52 := by
      have value : (n.log2 : Int) - 52 = up := exponent
      omega
    unfold significandOf
    rw [size, Nat.pow_add, roundHalfEven_mul_right _ _ (Nat.two_pow_pos _), Nat.one_mul]
    rfl
  case h_2 down exponent =>
    have size : 52 - n.log2 = down + 1 := by
      have value : (n.log2 : Int) - 52 = -(down + 1 : Nat) := exponent
      omega
    have whole := roundHalfEven_mul_left (n * 2 ^ (down + 1)) Nat.one_pos
    rw [Nat.mul_one] at whole
    rw [significandOf_eq (by omega), size]
    exact whole

/-- The significand and the exponent are put together as the place of the number, with its sign. -/
theorem assemble_eq {n : Nat} (positive : n ≠ 0) (small : n < 2 ^ 64) (negative : Bool)
    : assemble negative (significandOf n) ((n.log2 : Int) - 52)
      = .ofNat (signBit negative + placeOf n) := by
  obtain ⟨least, most⟩ := significandOf_bounds positive
  have short : n.log2 ≤ 63 := Nat.le_of_lt_succ ((Nat.log2_lt positive).mpr small)
  have full : twoTo 53 = 2 ^ 53 := rfl
  have half : twoTo 52 = 2 ^ 52 := rfl
  unfold assemble
  rw [full, half]
  by_cases carried : significandOf n = 2 ^ 53
  · have exponent : ((n.log2 : Int) - 52 + 1 + 1075).toNat = n.log2 + 1024 := by omega
    have place : (n.log2 + 1024) * 2 ^ 52 + (2 ^ 52 - 2 ^ 52) = placeOf n := by
      rw [placeOf, if_neg positive, carried]
      omega
    rw [if_pos (beq_iff_eq.mpr carried)]
    unfold assemble.assembleNormal
    rw [if_neg (by omega), half, if_neg (Nat.lt_irrefl _), exponent, Nat.add_assoc, place]
  · have exponent : ((n.log2 : Int) - 52 + 1075).toNat = n.log2 + 1023 := by omega
    have place : (n.log2 + 1023) * 2 ^ 52 + (significandOf n - 2 ^ 52) = placeOf n := by
      rw [placeOf, if_neg positive]
      omega
    rw [if_neg (by simpa using carried)]
    unfold assemble.assembleNormal
    rw [if_neg (by omega), half, if_neg (Nat.not_lt.mpr least), exponent, Nat.add_assoc, place]

/-- The nearest float of a number is the one at its place. -/
theorem nearest_one {n : Nat} (small : n < 2 ^ 64) (negative : Bool)
    : nearest negative n 1 = .ofNat (signBit negative + placeOf n) := by
  by_cases zero' : n = 0
  · subst zero'
    rfl
  · have unit : Nat.log2 1 = 0 := by decide
    have reached : atLeastPower n 1 (n.log2 : Int) = true := by
      have power := Nat.log2_self_le zero'
      have scaled : 1 * twoTo n.log2 = 2 ^ n.log2 := Nat.one_mul _
      unfold atLeastPower
      simp only [scaled, decide_eq_true power]
    have exponent : max ((n.log2 : Int) - 52) (-1074) = (n.log2 : Int) - 52 := by omega
    unfold nearest
    rw [if_neg (by simpa using zero'), unit]
    simp only [Int.natCast_zero, Int.sub_zero, reached, if_true, exponent, scaledRound_eq]
    exact assemble_eq zero' small negative

/-- The size of a number that fits has no more than 64 bits. -/
theorem natAbs_lt_of_fits {n : Int} (fit : fits n)
    : n.natAbs < 2 ^ 64 := by
  have bound : (twoTo 63 : Int) = 2 ^ 63 := rfl
  unfold fits minInt maxInt at fit
  rw [bound] at fit
  simp at fit
  omega

/-- The float of an integer is the one at the place of its size, with its sign. -/
theorem ofInt_eq {n : Int} (fit : fits n)
    : ofInt n = .ofNat (signBit (decide (n < 0)) + placeOf n.natAbs) :=
  nearest_one (natAbs_lt_of_fits fit) _

/-- Its bits are that place and the sign. -/
theorem toNat_bits_ofInt {n : Int} (fit : fits n)
    : (ofInt n).bits.toNat = signBit (decide (n < 0)) + placeOf n.natAbs := by
  have most := placeOf_le (natAbs_lt_of_fits fit)
  have sign : signBit (decide (n < 0)) ≤ 2 ^ 63 := by
    unfold signBit
    split
    · exact Nat.le_of_eq rfl
    · exact Nat.zero_le _
  rw [ofInt_eq fit]
  exact UInt64.toNat_ofNat_of_lt' (by unfold UInt64.size; omega)

/-- It is negative if the integer is. -/
theorem isNegative_ofInt {n : Int} (fit : fits n)
    : isNegative (ofInt n) = decide (n < 0) := by
  have most := placeOf_le (natAbs_lt_of_fits fit)
  have unit : twoTo 63 = 2 ^ 63 := rfl
  unfold isNegative
  rw [toNat_bits_ofInt fit, unit, signBit, unit]
  cases decide (n < 0)
  · simp only [Bool.false_eq_true, if_false, beq_eq_false_iff_ne]
    omega
  · simp only [if_true, beq_iff_eq]
    omega

/-- It is a number. -/
theorem isNaN_ofInt {n : Int} (fit : fits n)
    : isNaN (ofInt n) = false := by
  have most := placeOf_le (natAbs_lt_of_fits fit)
  have finite : isFinite (ofInt n) = true := by
    have unit : twoTo 52 = 2 ^ 52 := rfl
    have exponents : twoTo 11 = 2 ^ 11 := rfl
    have signUnit : twoTo 63 = 2 ^ 63 := rfl
    unfold isFinite
    rw [toNat_bits_ofInt fit, unit, exponents, signBit, signUnit, bne_iff_ne]
    split <;> omega
  unfold isNaN
  rw [finite]
  rfl

/-- Its rank is that place, with the sign. -/
theorem rank_ofInt {n : Int} (fit : fits n)
    : (ofInt n).rank = if n < 0 then -(placeOf n.natAbs : Int) else placeOf n.natAbs := by
  have most := placeOf_le (natAbs_lt_of_fits fit)
  have unit : twoTo 63 = 2 ^ 63 := rfl
  have size : ((ofInt n).bits.toNat : Int) % twoTo 63 = placeOf n.natAbs := by
    rw [toNat_bits_ofInt fit, unit, signBit, unit]
    split <;> omega
  unfold Double.rank
  dsimp only
  rw [size, isNegative_ofInt fit]
  by_cases negative : n < 0 <;> simp [negative]

-----------------------------------------------------------------------------------------
-- Order
-----------------------------------------------------------------------------------------

/-- Such floats compare as their ranks do. -/
theorem order?_ofInt {a b : Int} (left : fits a) (right : fits b)
    : (ofInt a).order? (ofInt b) = some (compare (ofInt a).rank (ofInt b).rank) := by
  unfold Double.order?
  rw [isNaN_ofInt left, isNaN_ofInt right]
  rfl

/-- Rounding keeps the order of 64-bit integers. -/
theorem rank_ofInt_mono {a b : Int} (left : fits a) (right : fits b) (le : a ≤ b)
    : (ofInt a).rank ≤ (ofInt b).rank := by
  rw [rank_ofInt left, rank_ofInt right]
  split_ifs with first second
  · have places : placeOf b.natAbs ≤ placeOf a.natAbs := placeOf_mono (by omega)
    omega
  · omega
  · omega
  · have places : placeOf a.natAbs ≤ placeOf b.natAbs := placeOf_mono (by omega)
    omega

/-- Integers from -2 ^ 53 to 2 ^ 53 that differ are rounded to doubles that do. -/
theorem rank_ofInt_lt {a b : Int} (left : a.natAbs ≤ 2 ^ 53) (right : b.natAbs ≤ 2 ^ 53)
    (less : a < b)
    : (ofInt a).rank < (ofInt b).rank := by
  have fit : ∀ n : Int, n.natAbs ≤ 2 ^ 53 → fits n := by
    intro n small
    have bound : (twoTo 63 : Int) = 2 ^ 63 := rfl
    unfold fits minInt maxInt
    rw [bound]
    simp
    omega
  rw [rank_ofInt (fit a left), rank_ofInt (fit b right)]
  split_ifs with first second
  · have places : placeOf b.natAbs < placeOf a.natAbs := placeOf_lt (by omega) (by omega)
    omega
  · have place := placeOf_pos (n := a.natAbs) (by omega)
    omega
  · omega
  · have places : placeOf a.natAbs < placeOf b.natAbs := placeOf_lt (by omega) (by omega)
    omega

/-- The places of two rounded integers are the same only if the doubles are. -/
theorem ofInt_eq_iff_rank_eq {a b : Int} (left : fits a) (right : fits b)
    : ofInt a = ofInt b ↔ (ofInt a).rank = (ofInt b).rank := by
  refine ⟨congrArg Double.rank, fun same => ?_⟩
  rw [rank_ofInt left, rank_ofInt right] at same
  -- a negative integer is never rounded to zero, so places of opposite signs differ
  have signs : a < 0 ↔ b < 0 := by
    have nonzero : ∀ n : Int, n < 0 → 0 < placeOf n.natAbs := fun n _ => placeOf_pos (by omega)
    have first := nonzero a
    have second := nonzero b
    split_ifs at same <;> omega
  have places : placeOf a.natAbs = placeOf b.natAbs := by
    split_ifs at same <;> omega
  rw [ofInt_eq left, ofInt_eq right, places, decide_eq_decide.mpr signs]

/-- The rounded order of two integers that differ is turned round only if they become one. -/
theorem rank_ofInt_le_iff {a b : Int} (left : fits a) (right : fits b) (less : a < b)
    : (ofInt b).rank ≤ (ofInt a).rank ↔ ofInt a = ofInt b := by
  have kept := rank_ofInt_mono left right (Int.le_of_lt less)
  rw [ofInt_eq_iff_rank_eq left right]
  omega

/-- The float of an integer is not zero unless the integer is. -/
theorem isZero_ofInt {n : Int} (fit : fits n) (nonzero : n ≠ 0)
    : (ofInt n).isZero = false := by
  have most := placeOf_le (natAbs_lt_of_fits fit)
  have place := placeOf_pos (n := n.natAbs) (by omega)
  have unit : twoTo 63 = 2 ^ 63 := rfl
  unfold Double.isZero
  rw [toNat_bits_ofInt fit, unit, signBit, unit, beq_eq_false_iff_ne]
  split <;> omega

end IncrementalLisp.Number
