import IncrementalLisp.Primitive.Arithmetic
import IncrementalLisp.Proofs.Number.Rounding
import Mathlib.Data.List.Basic

/-! Arithmetic on integers alone. Sums, products and differences are exact or fail, at whichever
operand the exact result first has more than 64 bits. A quotient of integers never fails that way:
where the exact result has no 64 bits, it goes on as a float.
-/

namespace IncrementalLisp.Arithmetic

open Number (fits checked fits_toInt)

variable {op : Value → Value → Except Fault Value} {exact : Int → Int → Int}

/-- What exact results, taken one after the other, come to: the last one, if all have 64 bits. -/
def exactOutcome (results : List Int)
    : Except Fault Value :=
  if results.all fits then .ok (.int (.ofInt (results.getLastD 0))) else .error .overflow

/-- The exact outcome of one result is that integer, which fits. -/
theorem exactOutcome_single (n : Int64)
    : exactOutcome [n.toInt] = .ok (.int n) := by
  have fit : [n.toInt].all fits = true := by simp [fits_toInt n]
  rw [exactOutcome, if_pos fit]
  exact congrArg (Except.ok ∘ Value.int) n.ofInt_toInt

/-- The exact outcome of several results is an overflow if the first does not fit, and that of the
others otherwise.
-/
theorem exactOutcome_cons {r : Int} {results : List Int} (more : results ≠ [])
    : exactOutcome (r :: results) = if fits r then exactOutcome results else .error .overflow := by
  obtain ⟨next, rest, rfl⟩ := List.exists_cons_of_ne_nil more
  unfold exactOutcome
  rw [List.all_cons]
  cases fits r <;> simp

/-- An integer that fits is that of its 64 bits. -/
theorem toInt_ofInt_of_fits {n : Int} (fit : fits n)
    : (Int64.ofInt n).toInt = n := by
  have bound : (Number.twoTo 63 : Int) = 2 ^ 63 := rfl
  unfold fits Number.minInt Number.maxInt at fit
  rw [bound] at fit
  simp at fit
  exact Int64.toInt_ofInt_of_le (by omega) (by omega)

/-- An integer result is an overflow unless it fits. -/
theorem integerResult_eq (n : Int)
    : integerResult n = if fits n then .ok (.int (.ofInt n)) else .error .overflow := by
  unfold integerResult checked
  cases fits n <;> rfl

-----------------------------------------------------------------------------------------
-- Sums, products and differences
-----------------------------------------------------------------------------------------

/-- (Checks op exact) says that an operation gives the exact result of integers, if it fits. -/
def Checks (op : Value → Value → Except Fault Value) (exact : Int → Int → Int)
    : Prop :=
  ∀ m n : Int64, op (.int m) (.int n) = integerResult (exact m.toInt n.toInt)

/-- A sum is checked against the exact one. -/
theorem checks_plus
    : Checks plus (· + ·) :=
  fun _ _ => rfl

/-- A product is checked against the exact one. -/
theorem checks_times
    : Checks times (· * ·) :=
  fun _ _ => rfl

/-- A difference is checked against the exact one. -/
theorem checks_minus
    : Checks minus (· - ·) :=
  fun _ _ => rfl

/-- A checked operation from left to right comes to the outcome of its exact results. Witness:
induction on the operands; the first result with more than 64 bits ends the fold.
-/
theorem Checks.foldlM (checks : Checks op exact) (start : Int64) (rest : List Int64)
    : (rest.map Value.int).foldlM op (.int start)
      = exactOutcome ((rest.map Int64.toInt).scanl exact start.toInt) := by
  induction rest generalizing start with
  | nil => exact (exactOutcome_single start).symm
  | cons n rest ih =>
      have more : (rest.map Int64.toInt).scanl exact (exact start.toInt n.toInt) ≠ [] :=
        List.scanl_ne_nil
      rw [List.map_cons, List.map_cons, List.scanl_cons, List.foldlM_cons, checks start n,
        integerResult_eq, exactOutcome_cons more, if_pos (fits_toInt start)]
      by_cases fit : fits (exact start.toInt n.toInt)
      · have step := ih (.ofInt (exact start.toInt n.toInt))
        rw [toInt_ofInt_of_fits fit] at step
        rw [if_pos fit]
        exact step
      · -- the head of the remaining results already has more than 64 bits
        have beyond : exactOutcome ((rest.map Int64.toInt).scanl exact (exact start.toInt n.toInt))
            = .error .overflow := by
          cases rest <;> simp [exactOutcome, fit]
        rw [if_neg fit, beyond]
        rfl

/-- A checked operation that is folded has the outcome of the exact results on the way. -/
theorem Checks.folded (checks : Checks op exact) (first : Int64) (rest : List Int64)
    : folded op ((first :: rest).map Value.int)
      = exactOutcome ((rest.map Int64.toInt).scanl exact first.toInt) :=
  checks.foldlM first rest

/-- A sum of integers is exact or an overflow. -/
theorem sum_of_integers (first : Int64) (rest : List Int64)
    : sum ((first :: rest).map Value.int)
      = exactOutcome ((rest.map Int64.toInt).scanl (· + ·) first.toInt) :=
  checks_plus.folded first rest

/-- A product of integers is exact or an overflow. -/
theorem product_of_integers (first : Int64) (rest : List Int64)
    : product ((first :: rest).map Value.int)
      = exactOutcome ((rest.map Int64.toInt).scanl (· * ·) first.toInt) :=
  checks_times.folded first rest

/-- A difference of integers is exact or an overflow; one integer is taken from zero. -/
theorem difference_of_integers (first : Int64) (rest : List Int64)
    : difference ((first :: rest).map Value.int)
      = exactOutcome (if rest = [] then [0, 0 - first.toInt]
          else (rest.map Int64.toInt).scanl (· - ·) first.toInt) := by
  cases rest with
  | nil =>
      have negated := checks_minus.foldlM 0 [first]
      rw [Int64.toInt_zero] at negated
      exact (bind_pure (minus (.int 0) (.int first))).symm.trans negated
  | cons second rest => exact checks_minus.folded first (second :: rest)

-----------------------------------------------------------------------------------------
-- Quotients
-----------------------------------------------------------------------------------------

/-- (DividesOn r divisors) says that r can be divided by the divisors one after the other, each time
exactly.
-/
def DividesOn
    : Int → List Int → Prop
  | _, [] => True
  | r, d :: rest => d ≠ 0 ∧ d ∣ r ∧ DividesOn (r.tdiv d) rest

/-- An integer that is not zero is told apart from zero. -/
theorem beq_zero_of_toInt {n : Int64} (nonzero : n.toInt ≠ 0)
    : (n == 0) = false := by
  rw [beq_eq_false_iff_ne]
  rintro rfl
  exact nonzero Int64.toInt_zero

/-- A float that is not zero has a quotient with any number. -/
theorem quotientOfFloats_ofInt {n : Int64} (nonzero : n.toInt ≠ 0) (x : Number.Double)
    : quotientOfFloats x (Number.ofInt n.toInt) = .ok (.float (x / Number.ofInt n.toInt)) := by
  unfold quotientOfFloats
  rw [Number.isZero_ofInt (fits_toInt n) nonzero]
  rfl

/-- An exact division gives the exact quotient, or a float if the quotient has no 64 bits. -/
theorem dividedBy_of_dvd {m n : Int64} (nonzero : n.toInt ≠ 0) (divides : n.toInt ∣ m.toInt)
    : dividedBy (.int m) (.int n)
      = .ok (if fits (m.toInt.tdiv n.toInt) then .int (.ofInt (m.toInt.tdiv n.toInt))
          else .float (Number.ofInt m.toInt / Number.ofInt n.toInt)) := by
  have rest : (m.toInt.tmod n.toInt == 0) = true :=
    beq_iff_eq.mpr (Int.tmod_eq_zero_of_dvd divides)
  have taken : dividedBy (.int m) (.int n)
      = if n == 0 then .error .divisionByZero
        else if m.toInt.tmod n.toInt == 0 && fits (m.toInt.tdiv n.toInt) then
          .ok (.int (.ofInt (m.toInt.tdiv n.toInt)))
        else quotientOfFloats (Number.ofInt m.toInt) (Number.ofInt n.toInt) := rfl
  rw [taken, beq_zero_of_toInt nonzero, rest, quotientOfFloats_ofInt nonzero]
  cases fits (m.toInt.tdiv n.toInt) <;> rfl

/-- Once a quotient is a float, it remains one. -/
theorem foldlM_dividedBy_float (x : Number.Double) {rest : List Int64}
    (nonzero : ∀ n ∈ rest, n.toInt ≠ 0)
    : ∃ y, (rest.map Value.int).foldlM dividedBy (.float x) = .ok (.float y) := by
  induction rest generalizing x with
  | nil => exact ⟨x, rfl⟩
  | cons n rest ih =>
      obtain ⟨head, others⟩ := List.forall_mem_cons.mp nonzero
      have step : dividedBy (.float x) (.int n) = .ok (.float (x / Number.ofInt n.toInt)) := by
        have taken : dividedBy (.float x) (.int n)
            = if n == 0 then .error .divisionByZero
              else quotientOfFloats x (Number.ofInt n.toInt) := rfl
        rw [taken, beq_zero_of_toInt head, quotientOfFloats_ofInt head]
        rfl
      rw [List.map_cons, List.foldlM_cons, step]
      exact ih _ others

/-- Divisors of exact quotients are not zero. Witness: induction on the divisors. -/
theorem DividesOn.nonzero {r : Int} {rest : List Int64}
    (divides : DividesOn r (rest.map Int64.toInt))
    : ∀ n ∈ rest, n.toInt ≠ 0 := by
  induction rest generalizing r with
  | nil => exact fun _ absent => absurd absent List.not_mem_nil
  | cons n rest ih => exact List.forall_mem_cons.mpr ⟨divides.1, ih divides.2.2⟩

/-- (IsQuotient results v) says that v is the last of the exact results if all of them have 64 bits,
and some float otherwise.
-/
def IsQuotient (results : List Int)
    : Value → Prop
  | .int n => results.all fits ∧ n.toInt = results.getLastD 0
  | .float _ => ¬results.all fits
  | _ => False

/-- A quotient of later results is one of all results, if the first of them fits. -/
theorem IsQuotient.cons {r : Int} {results : List Int} {v : Value} (fit : fits r)
    (more : results ≠ []) (is : IsQuotient results v)
    : IsQuotient (r :: results) v := by
  obtain ⟨next, rest, rfl⟩ := List.exists_cons_of_ne_nil more
  cases v with
  | int n => exact ⟨by rw [List.all_cons, fit, is.1]; rfl, is.2⟩
  | float x =>
      intro all
      rw [List.all_cons, Bool.and_eq_true] at all
      exact is all.2
  | _ => exact is.elim

/-- Divisions that are all exact come to the exact quotient, or to a float. Witness: induction on
the divisors; after the first result with more than 64 bits all are floats.
-/
theorem foldlM_dividedBy {start : Int64} {rest : List Int64}
    (divides : DividesOn start.toInt (rest.map Int64.toInt))
    : ∃ v, (rest.map Value.int).foldlM dividedBy (.int start) = .ok v
        ∧ IsQuotient ((rest.map Int64.toInt).scanl Int.tdiv start.toInt) v := by
  induction rest generalizing start with
  | nil => exact ⟨.int start, rfl, by simp [fits_toInt start], rfl⟩
  | cons n rest ih =>
      obtain ⟨nonzero, divisor, others⟩ := divides
      have more : (rest.map Int64.toInt).scanl Int.tdiv (start.toInt.tdiv n.toInt) ≠ [] :=
        List.scanl_ne_nil
      rw [List.map_cons, List.map_cons, List.scanl_cons, List.foldlM_cons,
        dividedBy_of_dvd nonzero divisor]
      by_cases fit : fits (start.toInt.tdiv n.toInt)
      · have exact' := toInt_ofInt_of_fits fit
        rw [if_pos fit]
        rw [← exact'] at others
        obtain ⟨v, ran, is⟩ := ih others
        rw [exact'] at is
        exact ⟨v, ran, is.cons (fits_toInt start) more⟩
      · have float := foldlM_dividedBy_float (Number.ofInt start.toInt / Number.ofInt n.toInt)
          (DividesOn.nonzero others)
        obtain ⟨y, ran⟩ := float
        rw [if_neg fit]
        refine ⟨.float y, ran, fun all => fit ?_⟩
        rw [List.all_cons, Bool.and_eq_true] at all
        exact List.all_eq_true.mp all.2 _ (List.mem_of_mem_head? (by cases rest <;> simp))

/-- A quotient of integers whose divisions are exact never fails: it is the exact quotient, or a
float once the exact result has more than 64 bits. One integer divides one.
-/
theorem quotient_of_integers {first : Int64} {rest : List Int64}
    (divides : if rest = [] then DividesOn 1 [first.toInt]
      else DividesOn first.toInt (rest.map Int64.toInt))
    : ∃ v, quotient ((first :: rest).map Value.int) = .ok v
        ∧ IsQuotient (if rest = [] then [1, Int.tdiv 1 first.toInt]
            else (rest.map Int64.toInt).scanl Int.tdiv first.toInt) v := by
  cases rest with
  | nil =>
      have unit : DividesOn (Int64.toInt 1) ([first].map Int64.toInt) := by
        rw [Int64.toInt_one]
        exact divides
      obtain ⟨v, ran, is⟩ := foldlM_dividedBy unit
      rw [Int64.toInt_one] at is
      exact ⟨v, (bind_pure (dividedBy (.int 1) (.int first))).symm.trans ran, is⟩
  | cons second rest => exact foldlM_dividedBy divides

/-- The smallest integer divided by -1 is a float, not an overflow. -/
example
    : (quotient [.int (-9223372036854775808), .int (-1)]).toOption.map Value.typeName
      = some "double" := by
  decide +kernel

end IncrementalLisp.Arithmetic
