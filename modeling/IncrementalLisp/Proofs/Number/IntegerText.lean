import IncrementalLisp.Number.IntegerText
import IncrementalLisp.Value.Printer

/-! Integers are read as they are printed: the digits of a number lead to the number again, and on
the way to it never out of the range.
-/

namespace IncrementalLisp.Number

/-- A number of the given sign. -/
def signed (negative : Bool) (n : Nat)
    : Int :=
  if negative then -n else n

/-- A smaller number of the same sign fits if the larger one does. -/
theorem fits_signed_of_le {negative : Bool} {n m : Nat} (le : n ≤ m)
    (fit : fits (signed negative m))
    : fits (signed negative n) := by
  unfold fits signed minInt maxInt at *
  cases negative <;> simp at fit ⊢ <;> omega

/-- Reading more digits makes no number smaller. -/
theorem le_ofDigitChars (digits : List Char) (n : Nat)
    : n ≤ Nat.ofDigitChars 10 digits n := by
  rw [Nat.ofDigitChars_eq_ofDigitChars_zero]
  have scale : 0 < 10 ^ digits.length := Nat.pow_pos (by decide)
  exact Nat.le_add_right_of_le (Nat.le_mul_of_pos_left n scale)

/-- One more digit takes the signed number on as it takes its size on, by the sign. -/
theorem signed_next (negative : Bool) (n : Nat) {d : Char} (digit : d.isDigit)
    : (if negative then signed negative n * 10 - ((d.toNat : Int) - '0'.toNat)
        else signed negative n * 10 + ((d.toNat : Int) - '0'.toNat))
      = signed negative (10 * n + (d.toNat - '0'.toNat)) := by
  have least : 48 ≤ d.toNat := by
    simp only [Char.isDigit, Bool.and_eq_true, decide_eq_true_eq, UInt32.le_iff_toNat_le] at digit
    exact digit.1
  have zero : '0'.toNat = 48 := rfl
  rw [zero]
  unfold signed
  cases negative <;> simp <;> omega

/-- Digits lead to their value, if it is in the range. Witness: induction on the digits; the numbers
on the way are no larger.
-/
theorem continueInteger_of_digits (negative : Bool) {digits : List Char}
    (all : ∀ d ∈ digits, d.isDigit) {n : Nat}
    (fit : fits (signed negative (Nat.ofDigitChars 10 digits n)))
    : continueInteger negative (signed negative n) digits
      = .ok (signed negative (Nat.ofDigitChars 10 digits n)) := by
  induction digits generalizing n with
  | nil => rfl
  | cons d rest ih =>
      obtain ⟨digit, others⟩ := List.forall_mem_cons.mp all
      rw [Nat.ofDigitChars_cons] at fit ⊢
      have next := fits_signed_of_le (le_ofDigitChars rest _) fit
      unfold continueInteger
      rw [if_pos digit]
      dsimp only
      rw [signed_next negative n digit, if_pos next]
      exact ih others fit

/-- The digits of a number that fits lead to the number. Witness: each first part of them is no
larger, so it fits.
-/
theorem continueInteger_toDigits {negative : Bool} {n : Nat} (fit : fits (signed negative n))
    : continueInteger negative 0 (Nat.toDigits 10 n) = .ok (signed negative n) := by
  have zero : (0 : Int) = signed negative 0 := by cases negative <;> rfl
  have value : Nat.ofDigitChars 10 (Nat.toDigits 10 n) 0 = n := Nat.ofDigitChars_ten_toDigits
  have digits : ∀ d ∈ Nat.toDigits 10 n, d.isDigit :=
    fun d member => Nat.isDigit_of_mem_toDigits (by decide) (by decide) member
  rw [zero, continueInteger_of_digits negative digits (value.symm ▸ fit), value]

/-- What the text of a 64-bit integer consists of. -/
theorem toList_integerText (n : Int64)
    : ∃ (negative : Bool) (m : Nat), n.toInt = signed negative m
      ∧ (integerText n).toList = (if negative then ['-'] else []) ++ Nat.toDigits 10 m := by
  unfold integerText
  rw [Int.toString_eq_repr, Int.repr_eq_if]
  by_cases positive : 0 ≤ n.toInt
  · refine ⟨false, n.toInt.toNat, ?_, ?_⟩
    · exact (Int.toNat_of_nonneg positive).symm
    · rw [if_pos positive, Nat.toList_repr]
      rfl
  · refine ⟨true, (-n.toInt).toNat, ?_, ?_⟩
    · rw [signed, if_pos rfl]
      omega
    · rw [if_neg positive, String.toList_append, Nat.toList_repr]
      rfl

/-- An integer of 64 bits fits. -/
theorem fits_toInt (n : Int64)
    : fits n.toInt := by
  have least := n.le_toInt
  have most := n.toInt_lt
  have bound : (twoTo 63 : Int) = 2 ^ 63 := rfl
  unfold fits minInt maxInt
  rw [bound]
  simp
  omega

/-- An integer is read as it is printed. -/
theorem readInteger_integerText (n : Int64)
    : readInteger (integerText n) = .ok n := by
  obtain ⟨negative, m, value, letters⟩ := toList_integerText n
  have read : continueInteger negative 0 (Nat.toDigits 10 m) = .ok n.toInt :=
    value ▸ continueInteger_toDigits (value ▸ fits_toInt n)
  have digits : ∀ d ∈ Nat.toDigits 10 m, d.isDigit :=
    fun d member => Nat.isDigit_of_mem_toDigits (by decide) (by decide) member
  obtain ⟨d, rest, found⟩ := List.exists_cons_of_ne_nil (Nat.toDigits_ne_nil (n := m) (b := 10))
  rw [found] at letters read digits
  have first : d.isDigit := digits d List.mem_cons_self
  have ends : (continueInteger negative 0 (d :: rest)).map Int64.ofInt = .ok n := by
    rw [read]
    exact congrArg Except.ok n.ofInt_toInt
  unfold readInteger
  rw [letters]
  cases negative with
  | true => exact ends
  | false =>
      rw [if_neg Bool.false_ne_true, List.nil_append]
      split
      case h_6 => exact ends
      all_goals simp_all

end IncrementalLisp.Number
