import IncrementalLisp.Primitive.Compute
import IncrementalLisp.Proofs.Machine.Tracked
import IncrementalLisp.Proofs.Value.Equality
import IncrementalLisp.Proofs.Value.Exact
import IncrementalLisp.Proofs.Value.Failures

/-! The primitives on alike arguments: both calls fail alike, or both have alike results. Where a
primitive compares values, one of them is plain or the likeness keeps identities.
-/

namespace IncrementalLisp

/-- One function and then another one give a result if both do. -/
theorem ok_of_bind {ε α β : Type} {x : Except ε α} {f : α → Except ε β} {b : β}
    (ran : (x >>= f) = .ok b)
    : ∃ a, x = .ok a ∧ f a = .ok b := by
  cases x with
  | error e => cases ran
  | ok a => exact ⟨a, rfl, ran⟩

/-- Results of functions that may refuse their arguments, alike refusals included. -/
abbrev Answers (M : Likeness) {α β : Type} (Q : α → β → Prop)
    : Except Fault α → Except Fault β → Prop :=
  ResultsAlike (Fault.Alike M) Q

variable {M : Likeness}

-----------------------------------------------------------------------------------------
-- Numbers and symbols
-----------------------------------------------------------------------------------------

namespace Arithmetic

/-- An argument that is a number is plain. -/
theorem numberArg_plain {v w : Value} (ran : numberArg v = .ok w)
    : w.isPlain := by
  unfold numberArg at ran
  split at ran
  · rename_i number
    obtain rfl := Except.ok.inj ran
    cases v <;> first | rfl | cases number
  · cases ran

/-- An integer result is plain, if it fits. -/
theorem integerResult_plain {n : Int} {w : Value} (ran : integerResult n = .ok w)
    : w.isPlain := by
  unfold integerResult at ran
  split at ran
  · obtain rfl := Except.ok.inj ran
    rfl
  · cases ran

/-- A computed number is plain, integer or float. -/
theorem numeric_plain {f : Int → Int → Int} {g : Number.Double → Number.Double → Number.Double}
    {a b w : Value} (ran : numeric f g a b = .ok w)
    : w.isPlain := by
  obtain ⟨x, _, ran⟩ := ok_of_bind ran
  obtain ⟨y, _, ran⟩ := ok_of_bind ran
  split at ran
  · exact integerResult_plain ran
  · obtain rfl := Except.ok.inj ran
    rfl

/-- A quotient of floats is plain. -/
theorem quotientOfFloats_plain {x y : Number.Double} {w : Value}
    (ran : quotientOfFloats x y = .ok w)
    : w.isPlain := by
  unfold quotientOfFloats at ran
  split at ran
  · cases ran
  · obtain rfl := Except.ok.inj ran
    rfl

/-- A quotient of numbers is plain, integer or float. -/
theorem dividedBy_plain {a b w : Value} (ran : dividedBy a b = .ok w)
    : w.isPlain := by
  obtain ⟨x, _, ran⟩ := ok_of_bind ran
  obtain ⟨y, _, ran⟩ := ok_of_bind ran
  split at ran
  · split at ran
    · cases ran
    · split at ran
      · obtain rfl := Except.ok.inj ran
        rfl
      · exact quotientOfFloats_plain ran
  · split at ran
    · cases ran
    · exact quotientOfFloats_plain ran
  · exact quotientOfFloats_plain ran

/-- A folded operation gives plain values if each step does. Witness: induction on the arguments. -/
theorem folded_plain {op : Value → Value → Except Fault Value}
    (plain : ∀ {a b w}, op a b = .ok w → w.isPlain) {args : List Value} {w : Value}
    (ran : folded op args = .ok w)
    : w.isPlain := by
  have onward (rest : List Value) {start : Value} (begun : start.isPlain)
      (ran : rest.foldlM op start = .ok w) : w.isPlain := by
    induction rest generalizing start with
    | nil =>
        obtain rfl := Except.ok.inj ran
        exact begun
    | cons v rest ih =>
        rw [List.foldlM_cons] at ran
        obtain ⟨u, step, ran⟩ := ok_of_bind ran
        exact ih (plain step) ran
  cases args with
  | nil => cases ran
  | cons first rest =>
      obtain ⟨start, begun, ran⟩ := ok_of_bind ran
      exact onward rest (numberArg_plain begun) ran

/-- A chain of comparisons gives a truth, by its recursion. -/
theorem compareChain_plain {holds : Ordering → Bool}
    : ∀ {args : List Value} {w : Value}, compareChain holds args = .ok w → w.isPlain
  | [], _, ran | [_], _, ran => by
      obtain rfl := Except.ok.inj ran
      rfl
  | _ :: b :: rest, _, ran => by
      obtain ⟨o, _, ran⟩ := ok_of_bind ran
      split at ran
      · exact compareChain_plain ran
      · obtain rfl := Except.ok.inj ran
        rfl

/-- Truth is plain. -/
theorem truth_plain (condition : Bool)
    : (Value.truth condition).isPlain := by
  cases condition <;> rfl

/-- Alike number arguments are the same number, if they are numbers. -/
theorem numberArg_alike {v w : Value} (alike : v.Alike M w)
    : Answers M (· = ·) (numberArg v) (numberArg w) := by
  cases v with
  | int | float =>
      obtain rfl := alike
      exact .ok rfl
  | list | vector | map | set | function | expander | node =>
      obtain ⟨_, rfl, inner⟩ := alike
      exact .error ⟨_, rfl, _, rfl, inner⟩
  | _ =>
      obtain rfl := alike
      exact .error ⟨_, rfl, rfl⟩

/-- An integer result answers like itself. -/
theorem integerResult_self (n : Int)
    : Answers M (· = ·) (integerResult n) (integerResult n) := by
  unfold integerResult
  split
  · exact .ok rfl
  · exact .error rfl

/-- So does a quotient of floats. -/
theorem quotientOfFloats_self (x y : Number.Double)
    : Answers M (· = ·) (quotientOfFloats x y) (quotientOfFloats x y) := by
  unfold quotientOfFloats
  split
  · exact .error rfl
  · exact .ok rfl

variable {a a' b b' : Value} (first : a.Alike M a') (second : b.Alike M b')
include first second

/-- A computed number is the same for values that are alike, which are the same numbers. -/
theorem numeric_alike (f : Int → Int → Int)
    (g : Number.Double → Number.Double → Number.Double)
    : Answers M (· = ·) (numeric f g a b) (numeric f g a' b') := by
  refine (numberArg_alike first).bind ?_
  rintro x _ rfl
  refine (numberArg_alike second).bind ?_
  rintro y _ rfl
  split
  · exact integerResult_self _
  · exact .ok rfl

/-- So is a quotient. -/
theorem dividedBy_alike
    : Answers M (· = ·) (dividedBy a b) (dividedBy a' b') := by
  refine (numberArg_alike first).bind ?_
  rintro x _ rfl
  refine (numberArg_alike second).bind ?_
  rintro y _ rfl
  split
  · split
    · exact .error rfl
    · split
      · exact .ok rfl
      · exact quotientOfFloats_self ..
  · split
    · exact .error rfl
    · exact quotientOfFloats_self ..
  · exact quotientOfFloats_self ..

/-- So is the order of two numbers. -/
theorem order_alike
    : Answers M (· = ·) (order a b) (order a' b') := by
  refine (numberArg_alike first).bind ?_
  rintro x _ rfl
  refine (numberArg_alike second).bind ?_
  rintro y _ rfl
  split
  · exact .ok rfl
  · unfold orderOfFloats
    split
    · exact .ok rfl
    · exact .error rfl

omit first second

/-- An operation taken over alike numbers has the same result. -/
theorem folded_alike {op : Value → Value → Except Fault Value}
    (inner : ∀ {a a' b b'}, a.Alike M a' → b.Alike M b' → Answers M (· = ·) (op a b) (op a' b'))
    (plain : ∀ {a b w}, op a b = .ok w → w.isPlain) {args args' : List Value}
    (alike : ValuesAlike M args args')
    : Answers M (· = ·) (folded op args) (folded op args') := by
  cases args with
  | nil =>
      obtain rfl := alike
      exact .error rfl
  | cons v rest =>
      obtain ⟨w, others, rfl, head, tail⟩ := alike
      have begun {start : Value} (ran : numberArg v = .ok start) := numberArg_plain ran
      unfold folded
      dsimp only
      have starts := numberArg_alike head
      generalize numberArg v = x, numberArg w = y at starts begun ⊢
      cases starts with
      | error failed => exact .error failed
      | @ok start _ same =>
          obtain rfl := same
          change Answers M _ (rest.foldlM op start) (others.foldlM op start)
          have number := begun rfl
          clear begun
          induction rest generalizing others start with
          | nil =>
              obtain rfl := tail
              exact .ok rfl
          | cons u more ih =>
              obtain ⟨u', others, rfl, item, last⟩ := tail
              rw [List.foldlM_cons, List.foldlM_cons]
              have step := inner (Value.Alike.of_plain number) item
              have result {next : Value} (ran : op start u = .ok next) := plain ran
              generalize op start u = p, op start u' = q at step result ⊢
              cases step with
              | error failed => exact .error failed
              | ok same =>
                  obtain rfl := same
                  exact ih others last (result rfl)

/-- A chain of comparisons is the same for values that are alike, by its recursion. -/
theorem compareChain_alike (holds : Ordering → Bool)
    : ∀ {args args' : List Value}, ValuesAlike M args args'
        → Answers M (· = ·) (compareChain holds args) (compareChain holds args')
  | [], _, alike => by
      obtain rfl := alike
      exact .ok rfl
  | [_], _, alike => by
      obtain ⟨_, _, rfl, _, rfl⟩ := alike
      exact .ok rfl
  | _ :: _ :: _, _, alike => by
      obtain ⟨_, _, rfl, head, _, _, rfl, next, rest⟩ := alike
      rw [compareChain, compareChain]
      refine (order_alike head next).bind ?_
      rintro o _ rfl
      split
      · exact compareChain_alike holds ⟨_, _, rfl, next, rest⟩
      · exact .ok rfl

/-- So is an ordering of arguments, which needs one at least. -/
theorem ordered_alike (holds : Ordering → Bool) {args args' : List Value}
    (alike : ValuesAlike M args args')
    : Answers M (· = ·) (ordered holds args) (ordered holds args') := by
  match args with
  | [] =>
      obtain rfl := alike
      exact .error rfl
  | [_] =>
      obtain ⟨_, _, rfl, only, rfl⟩ := alike
      refine (numberArg_alike only).bind ?_
      rintro _ _ rfl
      exact .ok rfl
  | _ :: _ :: _ =>
      have chain := compareChain_alike holds alike
      obtain ⟨_, _, rfl, _, _, _, rfl, _, _⟩ := alike
      exact chain

/-- Equality in programs is the same on alike values as long as what they are compared to is
compared alike.
-/
theorem equivalent_alike (alike : a.Alike M a') (other : b.Comparable M b')
    : equivalent a' b' = equivalent a b := by
  have same := other.beq_eq alike
  have second := other.alike
  cases a with
  | int | float =>
      obtain rfl := alike
      cases b with
      | list | vector | map | set | function | expander | node =>
          obtain ⟨_, rfl, _⟩ := second
          exact same
      | _ =>
          obtain rfl := second
          rfl
  | list | vector | map | set | function | expander | node =>
      obtain ⟨_, rfl, _⟩ := alike
      exact same
  | _ =>
      obtain rfl := alike
      exact same

/-- Adjacent arguments are equal alike if those behind the first are comparable, by the chain's
recursion.
-/
theorem chained_alike
    : ∀ {args args' : List Value}, ValuesAlike M args args'
        → List.Forall₂ (Value.Comparable M) args.tail args'.tail
        → chained equivalent args' = chained equivalent args
  | [], _, alike, _ => by
      obtain rfl := alike
      rfl
  | [_], _, alike, _ => by
      obtain ⟨_, _, rfl, _, rfl⟩ := alike
      rfl
  | _ :: _ :: _, _, alike, comparable => by
      obtain ⟨_, _, rfl, head, rest⟩ := alike
      have more := rest
      obtain ⟨_, _, rfl, _, _⟩ := rest
      cases comparable with
      | cons next others =>
          rw [chained, chained, equivalent_alike head next, chained_alike more others]

end Arithmetic

open Arithmetic

/-- A made symbol is plain. -/
theorem symbolOf_plain {args : List Value} {w : Value} (ran : Primitive.symbolOf args = .ok w)
    : w.isPlain := by
  unfold Primitive.symbolOf at ran
  split at ran
  · obtain rfl := Except.ok.inj ran
    rfl
  · obtain ⟨s, _, ran⟩ := ok_of_bind ran
    obtain rfl := Except.ok.inj ran
    rfl

/-- So is a made keyword. -/
theorem keywordOf_plain {args : List Value} {w : Value} (ran : Primitive.keywordOf args = .ok w)
    : w.isPlain := by
  unfold Primitive.keywordOf at ran
  split at ran
  · obtain rfl := Except.ok.inj ran
    rfl
  · obtain rfl := Except.ok.inj ran
    rfl
  · obtain ⟨s, _, ran⟩ := ok_of_bind ran
    obtain rfl := Except.ok.inj ran
    rfl

/-- More than two texts make no symbol. -/
theorem symbolOfTexts_of_long {args : List Value} (long : 2 < args.length)
    : Primitive.symbolOfTexts args = .error (.argumentCount 1 2 args.length) := by
  unfold Primitive.symbolOfTexts
  split <;> simp at long ⊢

/-- Texts that are alike make the same symbol, by their number. -/
theorem symbolOfTexts_alike {args args' : List Value} (alike : ValuesAlike M args args')
    : Answers M (· = ·) (Primitive.symbolOfTexts args) (Primitive.symbolOfTexts args') := by
  match args with
  | [] =>
      obtain rfl := alike
      exact .error rfl
  | [v] =>
      obtain ⟨w, _, rfl, only, rfl⟩ := alike
      cases v with
      | string =>
          obtain rfl := only
          exact .ok rfl
      | list | vector | map | set | function | expander | node =>
          obtain ⟨_, rfl, _⟩ := only
          exact .error rfl
      | _ =>
          obtain rfl := only
          exact .error rfl
  | [v, u] =>
      obtain ⟨w, _, rfl, first, x, _, rfl, second, rfl⟩ := alike
      cases v with
      | string =>
          obtain rfl := first
          cases u with
          | string =>
              obtain rfl := second
              exact .ok rfl
          | list | vector | map | set | function | expander | node =>
              obtain ⟨_, rfl, _⟩ := second
              exact .error rfl
          | _ =>
              obtain rfl := second
              exact .error rfl
      | list | vector | map | set | function | expander | node =>
          obtain ⟨_, rfl, _⟩ := first
          exact .error rfl
      | _ =>
          obtain rfl := first
          exact .error rfl
  | _ :: _ :: _ :: _ =>
      have same := alike.length_eq
      rw [symbolOfTexts_of_long (by simp), symbolOfTexts_of_long (by simp [same]), same]
      exact .error rfl

/-- Several arguments make the symbol that their texts make. -/
theorem symbolOf_of_many {args : List Value} (many : 1 < args.length)
    : Primitive.symbolOf args = (do .ok (Value.symbol (← Primitive.symbolOfTexts args))) := by
  unfold Primitive.symbolOf
  split
  all_goals first | rfl | simp at many

/-- Arguments that are alike make the same symbol, by their number. -/
theorem symbolOf_alike {args args' : List Value} (alike : ValuesAlike M args args')
    : Answers M (· = ·) (Primitive.symbolOf args) (Primitive.symbolOf args') := by
  have texts : Answers M (· = ·) (do .ok (Value.symbol (← Primitive.symbolOfTexts args)))
      (do .ok (Value.symbol (← Primitive.symbolOfTexts args'))) := by
    refine (symbolOfTexts_alike alike).bind ?_
    rintro _ _ rfl
    exact .ok rfl
  match args with
  | [v] =>
      obtain ⟨w, _, rfl, only, rfl⟩ := alike
      cases v with
      | symbol =>
          obtain rfl := only
          exact .ok rfl
      | list | vector | map | set | function | expander | node =>
          obtain ⟨_, rfl, _⟩ := only
          exact texts
      | _ =>
          obtain rfl := only
          exact texts
  | [] =>
      obtain rfl := alike
      exact texts
  | _ :: _ :: _ =>
      rw [symbolOf_of_many (by simp), symbolOf_of_many (by simp [alike.length_eq])]
      exact texts

/-- Several arguments make the keyword that their texts make. -/
theorem keywordOf_of_many {args : List Value} (many : 1 < args.length)
    : Primitive.keywordOf args = (do .ok (Value.keyword (← Primitive.symbolOfTexts args))) := by
  unfold Primitive.keywordOf
  split
  all_goals first | rfl | simp at many

/-- Arguments that are alike make the same keyword, by their number. -/
theorem keywordOf_alike {args args' : List Value} (alike : ValuesAlike M args args')
    : Answers M (· = ·) (Primitive.keywordOf args) (Primitive.keywordOf args') := by
  have texts : Answers M (· = ·) (do .ok (Value.keyword (← Primitive.symbolOfTexts args)))
      (do .ok (Value.keyword (← Primitive.symbolOfTexts args'))) := by
    refine (symbolOfTexts_alike alike).bind ?_
    rintro _ _ rfl
    exact .ok rfl
  match args with
  | [v] =>
      obtain ⟨w, _, rfl, only, rfl⟩ := alike
      cases v with
      | symbol | keyword =>
          obtain rfl := only
          exact .ok rfl
      | list | vector | map | set | function | expander | node =>
          obtain ⟨_, rfl, _⟩ := only
          exact texts
      | _ =>
          obtain rfl := only
          exact texts
  | [] =>
      obtain rfl := alike
      exact texts
  | _ :: _ :: _ =>
      rw [keywordOf_of_many (by simp), keywordOf_of_many (by simp [alike.length_eq])]
      exact texts

-----------------------------------------------------------------------------------------
-- Collections
-----------------------------------------------------------------------------------------

/-- Lists of values that are alike stay so when put together. Witness: induction on the first list.
-/
theorem ValuesAlike.append {vs ws vs' ws' : List Value} (first : ValuesAlike M vs vs')
    (last : ValuesAlike M ws ws')
    : ValuesAlike M (vs ++ ws) (vs' ++ ws') := by
  induction vs generalizing vs' with
  | nil =>
      obtain rfl := first
      exact last
  | cons v rest ih =>
      obtain ⟨v', others, rfl, head, tail⟩ := first
      exact ⟨v', _, rfl, head, ih tail⟩

/-- They stay so without their first items. -/
theorem ValuesAlike.drop {vs ws : List Value} (alike : ValuesAlike M vs ws) (n : Nat)
    : ValuesAlike M (vs.drop n) (ws.drop n) := by
  rw [valuesAlike_iff_forall₂] at alike ⊢
  exact List.forall₂_drop n alike

/-- They have items at a position that are alike, if any. Witness: induction on the list. -/
theorem ValuesAlike.getElem? {vs ws : List Value} (alike : ValuesAlike M vs ws) (i : Nat)
    : Option.Rel (Value.Alike M) vs[i]? ws[i]? := by
  induction vs generalizing ws i with
  | nil =>
      obtain rfl := alike
      exact .none
  | cons v rest ih =>
      obtain ⟨w, others, rfl, first, last⟩ := alike
      cases i with
      | zero => exact .some first
      | succ i => exact ih last i

/-- They stay so with new items at a position that are alike. Witness: induction on the list. -/
theorem ValuesAlike.set {vs ws : List Value} (alike : ValuesAlike M vs ws) (i : Nat) {v w : Value}
    (item : v.Alike M w)
    : ValuesAlike M (vs.set i v) (ws.set i w) := by
  induction vs generalizing ws i with
  | nil =>
      obtain rfl := alike
      rfl
  | cons u rest ih =>
      obtain ⟨u', others, rfl, first, last⟩ := alike
      cases i with
      | zero => exact ⟨w, others, rfl, item, last⟩
      | succ i => exact ⟨u', _, rfl, first, ih last i⟩

/-- Their last items are alike, as those at the last position. -/
theorem ValuesAlike.getLast {vs ws : List Value} (alike : ValuesAlike M vs ws) (some : vs ≠ [])
    (some' : ws ≠ [])
    : (vs.getLast some).Alike M (ws.getLast some') := by
  have items := alike.getElem? (vs.length - 1)
  rw [← List.getLast?_eq_getElem?, ← alike.length_eq, ← List.getLast?_eq_getElem?,
    List.getLast?_eq_some_getLast some, List.getLast?_eq_some_getLast some'] at items
  cases items with
  | some same => exact same

/-- They stay so without their last items. -/
theorem ValuesAlike.dropLast {vs ws : List Value} (alike : ValuesAlike M vs ws)
    : ValuesAlike M vs.dropLast ws.dropLast := by
  rw [List.dropLast_eq_take, List.dropLast_eq_take, alike.length_eq]
  rw [valuesAlike_iff_forall₂] at alike ⊢
  exact List.forall₂_take _ alike

/-- Optional values are alike with defaults that are. -/
theorem getD_rel {o o' : Option Value} (options : Option.Rel (Value.Alike M) o o') {v w : Value}
    (default : v.Alike M w)
    : (o.getD v).Alike M (o'.getD w) := by
  cases options with
  | none => exact default
  | some inner => exact inner

/-- Entries that are alike are so as vectors of two. Witness: induction on the entries. -/
theorem EntriesAlike.asVectors {es es' : List (Value × Value)} (alike : EntriesAlike M es es')
    : ValuesAlike M (es.map fun (k, v) => .vector [k, v])
      (es'.map fun (k, v) => .vector [k, v]) := by
  induction es generalizing es' with
  | nil =>
      obtain rfl := alike
      rfl
  | cons entry rest ih =>
      obtain ⟨k, v⟩ := entry
      obtain ⟨k', v', others, rfl, key, value, last⟩ := alike
      exact ⟨_, _, rfl, ⟨_, rfl, k', _, rfl, key, v', _, rfl, value, rfl⟩, ih last⟩

/-- Alike values have alike items. -/
theorem Value.Alike.items? {v w : Value} (alike : v.Alike M w)
    : Option.Rel (ValuesAlike M) v.items? w.items? := by
  cases v with
  | list | vector | set =>
      obtain ⟨_, rfl, items⟩ := alike
      exact .some items
  | map =>
      obtain ⟨_, rfl, entries⟩ := alike
      exact .some entries.asVectors
  | nil =>
      obtain rfl := alike
      exact .some rfl
  | function | expander | node =>
      obtain ⟨_, rfl, _⟩ := alike
      exact .none
  | _ =>
      obtain rfl := alike
      exact .none

namespace Collections

/-- Values that are alike are sequences of items that are, or fail alike to be any. -/
theorem itemsArg_alike {v w : Value} (alike : v.Alike M w)
    : Answers M (ValuesAlike M) (itemsArg v) (itemsArg w) := by
  have items := alike.items?
  unfold itemsArg
  generalize v.items? = o, w.items? = o' at items ⊢
  cases items with
  | none => exact .error ⟨_, rfl, alike⟩
  | some inner => exact .ok inner

/-- They have the same count, by their kind. -/
theorem countOf_alike {v w : Value} (alike : v.Alike M w)
    : Answers M (Value.Alike M) (countOf v) (countOf w) := by
  have items : Answers M (Value.Alike M) (do .ok (.int (.ofNat (← itemsArg v).length)))
      (do .ok (.int (.ofNat (← itemsArg w).length))) := by
    refine (itemsArg_alike alike).bind fun inner => .ok ?_
    rw [inner.length_eq]
    exact Value.Alike.of_plain rfl
  cases v with
  | string s =>
      obtain rfl := alike
      exact .ok (Value.Alike.of_plain rfl)
  | list | vector | set | map | function | expander | node =>
      obtain ⟨_, rfl, _⟩ := alike
      exact items
  | _ =>
      obtain rfl := alike
      exact items

/-- Their first items are alike, or both are nil. -/
theorem firstOf_alike {v w : Value} (alike : v.Alike M w)
    : Answers M (Value.Alike M) (firstOf v) (firstOf w) := by
  refine (itemsArg_alike alike).bind fun {vs ws} inner => .ok ?_
  rw [List.head?_eq_getElem?, List.head?_eq_getElem?]
  exact getD_rel (inner.getElem? 0) (Value.Alike.of_plain rfl)

/-- The rests of them are alike. -/
theorem restOf_alike {v w : Value} (alike : v.Alike M w)
    : Answers M (Value.Alike M) (restOf v) (restOf w) :=
  (itemsArg_alike alike).bind fun inner => .ok ⟨_, rfl, inner.drop 1⟩

/-- Their items at an index are alike, or both are out of bounds. -/
theorem itemAt_alike {v w index index' : Value} (alike : v.Alike M w)
    (indexes : index.Alike M index')
    : Answers M (Value.Alike M) (itemAt v index) (itemAt w index') := by
  refine (itemsArg_alike alike).bind fun {vs ws} inner => ?_
  cases index with
  | int n =>
      obtain rfl := indexes
      dsimp only
      rw [inner.length_eq]
      cases position? (.int n) with
      | none => exact .error ⟨_, rfl, rfl⟩
      | some i =>
          have items := inner.getElem? i
          dsimp only [Option.bind]
          generalize vs[i]? = o, ws[i]? = o' at items ⊢
          cases items with
          | none => exact .error ⟨_, rfl, rfl⟩
          | some same => exact .ok same
  | list | vector | map | set | function | expander | node =>
      obtain ⟨_, rfl, other⟩ := indexes
      exact .error ⟨_, rfl, _, rfl, other⟩
  | _ =>
      obtain rfl := indexes
      exact .error ⟨_, rfl, rfl⟩

/-- They are alike with items in front that are. -/
theorem consOnto_alike {item item' coll coll' : Value} (items : item.Alike M item')
    (colls : coll.Alike M coll')
    : Answers M (Value.Alike M) (consOnto item coll) (consOnto item' coll') :=
  (itemsArg_alike colls).bind fun inner => .ok ⟨_, rfl, item', _, rfl, items, inner⟩

/-- Values that are alike give their items alike, one by one. Witness: induction on the values. -/
theorem mapM_alike {vs ws : List Value} (alike : ValuesAlike M vs ws)
    : Answers M (List.Forall₂ (ValuesAlike M)) (vs.mapM itemsArg) (ws.mapM itemsArg) := by
  induction vs generalizing ws with
  | nil =>
      obtain rfl := alike
      exact .ok .nil
  | cons v rest ih =>
      obtain ⟨w, others, rfl, first, last⟩ := alike
      rw [List.mapM_cons, List.mapM_cons]
      exact (itemsArg_alike first).bind fun head => (ih last).bind fun tail => .ok (.cons head tail)

/-- Their items put together are alike. Witness: induction on the lists of items. -/
theorem concatenated_alike {vs ws : List Value} (alike : ValuesAlike M vs ws)
    : Answers M (Value.Alike M) (concatenated vs) (concatenated ws) := by
  refine (mapM_alike alike).bind fun inner => .ok ⟨_, rfl, ?_⟩
  induction inner with
  | nil => rfl
  | cons first _ ih => exact first.append ih

/-- Several values are alike if they are so one by one. Witness: induction on them. -/
theorem valuesAlike_iff {vs ws : List Value}
    : ValuesAlike M vs ws ↔ List.Forall₂ (Value.Alike M) vs ws := by
  induction vs generalizing ws with
  | nil => rw [List.forall₂_nil_left_iff, ValuesAlike]
  | cons v rest ih =>
      rw [List.forall₂_cons_left_iff, ValuesAlike]
      refine exists_congr fun w => ⟨?_, ?_⟩
      · rintro ⟨others, rfl, first, last⟩
        exact ⟨others, first, ih.mp last, rfl⟩
      · rintro ⟨others, first, last, rfl⟩
        exact ⟨others, rfl, first, ih.mpr last⟩

/-- (EntryAlike M e f) says that the keys of two entries are alike, and their values. -/
abbrev EntryAlike (M : Likeness) (e f : Value × Value)
    : Prop :=
  e.1.Alike M f.1 ∧ e.2.Alike M f.2

/-- Entries are alike if they are so one by one. Witness: induction on them. -/
theorem entriesAlike_iff {es fs : List (Value × Value)}
    : EntriesAlike M es fs ↔ List.Forall₂ (EntryAlike M) es fs := by
  induction es generalizing fs with
  | nil => rw [List.forall₂_nil_left_iff, EntriesAlike]
  | cons e rest ih =>
      rw [List.forall₂_cons_left_iff, EntriesAlike]
      constructor
      · rintro ⟨key, value, others, rfl, first, second, last⟩
        exact ⟨(key, value), others, ⟨first, second⟩, ih.mp last, rfl⟩
      · rintro ⟨⟨key, value⟩, others, ⟨first, second⟩, last, rfl⟩
        exact ⟨key, value, others, rfl, first, second, ih.mpr last⟩

variable {a : Arrangement}

/-- Sets that are alike stay so with an item that compares alike. -/
theorem insertItem_alike {item item' : Value} (items : item.Comparable M item')
    {vs ws : List Value} (alike : ValuesAlike M vs ws)
    : ValuesAlike M (Value.insertItem a item vs) (Value.insertItem a item' ws) := by
  rw [valuesAlike_iff] at alike ⊢
  exact Value.upsert_rel (S := Value.Alike M) (R := Value.Alike M)
    (fun _ _ first => (items.beq_eq first).symm) (fun _ _ => id) items.alike alike

/-- Maps that are alike stay so with a key that compares alike and its value. -/
theorem insertEntry_alike {key key' : Value} (keys : key.Comparable M key') {v v' : Value}
    (value : v.Alike M v') {es es' : List (Value × Value)} (alike : EntriesAlike M es es')
    : EntriesAlike M (Value.insertEntry a key v es) (Value.insertEntry a key' v' es') := by
  rw [entriesAlike_iff] at alike ⊢
  exact Value.upsert_rel (S := EntryAlike M) (R := EntryAlike M)
    (fun _ _ first => (keys.beq_eq first.1).symm) (fun _ _ => id) ⟨keys.alike, value⟩ alike

/-- Such a key has values that are alike, if any. Witness: induction on the entries. -/
theorem entry?_alike {key key' : Value} (keys : key.Comparable M key')
    {es es' : List (Value × Value)} (alike : EntriesAlike M es es')
    : Option.Rel (Value.Alike M) (Value.entry? es key) (Value.entry? es' key') := by
  unfold Value.entry?
  induction es generalizing es' with
  | nil =>
      obtain rfl := alike
      exact .none
  | cons entry rest ih =>
      obtain ⟨k, u⟩ := entry
      obtain ⟨k', u', others, rfl, first, values, last⟩ := alike
      rw [List.find?_cons, List.find?_cons]
      dsimp only
      rw [keys.beq_eq first]
      split
      · exact .some values
      · exact ih last

/-- One more item in a collection; an item that is compared has a plain part to compare, unless
identities are kept.
-/
theorem conjoin_alike {coll coll' item item' : Value} (colls : coll.Alike M coll')
    (items : item.Alike M item')
    (known : Primitive.isTracked .conj [coll', item'] ∨ M.Exact)
    : Answers M (Value.Alike M) (conjoin a coll item) (conjoin a coll' item') := by
  cases coll with
  | nil =>
      obtain rfl := colls
      exact .ok ⟨_, rfl, item', _, rfl, items, rfl⟩
  | list others =>
      obtain ⟨others', rfl, inner⟩ := colls
      exact .ok ⟨_, rfl, item', _, rfl, items, inner⟩
  | vector others =>
      obtain ⟨others', rfl, inner⟩ := colls
      exact .ok ⟨_, rfl, inner.append ⟨item', _, rfl, items, rfl⟩⟩
  | set others =>
      obtain ⟨others', rfl, inner⟩ := colls
      have comparable := items.comparable <| known.imp_left fun tracked => by
        rw [Primitive.isTracked, arePlain, Bool.and_eq_true] at tracked
        exact tracked.1
      exact .ok ⟨_, rfl, insertItem_alike comparable inner⟩
  | map entries =>
      obtain ⟨entries', rfl, inner⟩ := colls
      have pair := items.items?
      have keyed : item'.isPlainlyKeyed ∨ M.Exact := known.imp_left fun tracked => by
        rw [Primitive.isTracked, List.all_cons, Bool.and_eq_true] at tracked
        exact tracked.1
      unfold Value.isPlainlyKeyed at keyed
      unfold conjoin
      dsimp only
      generalize item.items? = o, item'.items? = o' at pair keyed ⊢
      cases pair with
      | none => exact .error rfl
      | @some vs ws both =>
          match vs with
          | [] =>
              obtain rfl := both
              exact .error rfl
          | [_] =>
              obtain ⟨_, _, rfl, _, rfl⟩ := both
              exact .error rfl
          | [_, _] =>
              obtain ⟨_, _, rfl, keys, _, _, rfl, values, rfl⟩ := both
              exact .ok ⟨_, rfl, insertEntry_alike (keys.comparable keyed) values inner⟩
          | _ :: _ :: _ :: _ =>
              obtain ⟨_, _, rfl, _, _, _, rfl, _, _, _, rfl, _, _⟩ := both
              exact .error rfl
  | function | expander | node =>
      obtain ⟨_, rfl, inner⟩ := colls
      exact .error ⟨_, rfl, _, rfl, inner⟩
  | _ =>
      obtain rfl := colls
      exact .error ⟨_, rfl, rfl⟩

/-- Keys that are alike are the same position in a vector, or none. -/
theorem position?_alike {key key' : Value} (keys : key.Alike M key')
    : position? key' = position? key := by
  cases key with
  | list | vector | map | set | function | expander | node =>
      obtain ⟨_, rfl, _⟩ := keys
      rfl
  | _ =>
      obtain rfl := keys
      rfl

/-- A value that is looked up by such a key is alike, by the kind of the collection. -/
theorem valueAt_alike {coll coll' key key' : Value} (keys : key.Comparable M key')
    (colls : coll.Alike M coll') {default default' : Value} (defaults : default.Alike M default')
    : (valueAt coll key default).Alike M (valueAt coll' key' default') := by
  unfold valueAt
  cases coll with
  | map entries =>
      obtain ⟨entries', rfl, inner⟩ := colls
      exact getD_rel (entry?_alike keys inner) defaults
  | vector items =>
      obtain ⟨items', rfl, inner⟩ := colls
      dsimp only
      rw [position?_alike keys.alike]
      cases position? key with
      | none => exact defaults
      | some i => exact getD_rel (inner.getElem? i) defaults
  | set items =>
      obtain ⟨items', rfl, inner⟩ := colls
      have same : items'.any (· == key') = items.any (· == key) :=
        inner.any_eq fun alike => keys.beq_eq alike
      dsimp only
      rw [same]
      split
      · exact keys.alike
      · exact defaults
  | list | function | expander | node =>
      obtain ⟨_, rfl, _⟩ := colls
      exact defaults
  | _ =>
      obtain rfl := colls
      exact defaults

/-- Collections stay alike with a value for such a key, by their kind. -/
theorem associated_alike {coll coll' key key' value value' : Value}
    (keys : key.Comparable M key') (colls : coll.Alike M coll') (values : value.Alike M value')
    : Answers M (Value.Alike M) (associated a coll key value) (associated a coll' key' value') := by
  cases coll with
  | nil =>
      obtain rfl := colls
      exact .ok ⟨_, rfl, key', value', _, rfl, keys.alike, values, rfl⟩
  | map entries =>
      obtain ⟨entries', rfl, inner⟩ := colls
      exact .ok ⟨_, rfl, insertEntry_alike keys values inner⟩
  | vector items =>
      obtain ⟨items', rfl, inner⟩ := colls
      unfold associated
      dsimp only
      rw [inner.length_eq, position?_alike keys.alike]
      split
      · rename_i i _
        split
        · exact .ok ⟨_, rfl, inner.set i values⟩
        · split
          · exact .ok ⟨_, rfl, inner.append ⟨value', _, rfl, values, rfl⟩⟩
          · exact .error ⟨_, rfl, keys.alike⟩
      · exact .error ⟨_, rfl, keys.alike⟩
  | list | set | function | expander | node =>
      obtain ⟨_, rfl, inner⟩ := colls
      exact .error ⟨_, rfl, _, rfl, inner⟩
  | _ =>
      obtain rfl := colls
      exact .error ⟨_, rfl, rfl⟩

/-- A collection that has taken an item takes what it did before. -/
theorem isTracked_conjoin {coll item next : Value} {rest : List Value}
    (ran : conjoin a coll item = .ok next)
    (tracked : Primitive.isTracked .conj (coll :: item :: rest))
    : Primitive.isTracked .conj (next :: rest) := by
  cases coll with
  | set items =>
      obtain rfl := Except.ok.inj ran
      rw [Primitive.isTracked, arePlain, Bool.and_eq_true] at tracked
      exact tracked.2
  | map entries =>
      unfold conjoin at ran
      dsimp only at ran
      split at ran
      · obtain rfl := Except.ok.inj ran
        rw [Primitive.isTracked, List.all_cons, Bool.and_eq_true] at tracked
        exact tracked.2
      · cases ran
  | nil | list | vector =>
      obtain rfl := Except.ok.inj ran
      rfl
  | _ => cases ran

/-- What is put into a collection first is tracked if all that is put in is. -/
theorem isTracked_first {coll item : Value} {rest : List Value}
    (tracked : Primitive.isTracked .conj (coll :: item :: rest))
    : Primitive.isTracked .conj [coll, item] := by
  cases coll with
  | set items =>
      rw [Primitive.isTracked, arePlain, Bool.and_eq_true] at tracked
      simp [Primitive.isTracked, arePlain, tracked.1]
  | map entries =>
      rw [Primitive.isTracked, List.all_cons, Bool.and_eq_true] at tracked
      simp [Primitive.isTracked, tracked.1]
  | _ => rfl

/-- Collections stay alike with several items. Witness: induction on these, tracked or compared
exactly.
-/
theorem conjoinAll_alike {args args' : List Value} (alike : ValuesAlike M args args')
    (known : Primitive.isTracked .conj args' ∨ M.Exact)
    : Answers M (Value.Alike M) (conjoinAll a args) (conjoinAll a args') := by
  cases args with
  | nil =>
      obtain rfl := alike
      exact .error rfl
  | cons coll additions =>
      obtain ⟨coll', additions', rfl, colls, rest⟩ := alike
      change Answers M _ (additions.foldlM (conjoin a) coll) (additions'.foldlM (conjoin a) coll')
      induction additions generalizing coll coll' additions' with
      | nil =>
          obtain rfl := rest
          exact .ok colls
      | cons item more ih =>
          obtain ⟨item', others, rfl, items, last⟩ := rest
          rw [List.foldlM_cons, List.foldlM_cons]
          have step := conjoin_alike (a := a) colls items (known.imp_left isTracked_first)
          have later {next' : Value} (ran : conjoin a coll' item' = .ok next')
              : Primitive.isTracked .conj (next' :: others) ∨ M.Exact :=
            known.imp_left (isTracked_conjoin ran)
          generalize conjoin a coll item = x, conjoin a coll' item' = y at step later ⊢
          cases step with
          | error failed => exact .error failed
          | ok nexts => exact ih _ _ _ (later rfl) nexts last

/-- Values that are looked up are alike, by the number of arguments. -/
theorem lookedUp_alike {args args' : List Value} (alike : ValuesAlike M args args')
    (known : Primitive.isTracked .get args' ∨ M.Exact)
    : Answers M (Value.Alike M) (lookedUp args) (lookedUp args') := by
  have key {k k' : Value} (keys : k.Alike M k') {more : List Value}
      (known : arePlain (List.take 1 (k' :: more)) ∨ M.Exact) : k.Comparable M k' :=
    keys.comparable <| known.imp_left fun plain => by simpa [arePlain] using plain
  match args with
  | [] =>
      obtain rfl := alike
      exact .error rfl
  | [_] =>
      obtain ⟨_, _, rfl, _, rfl⟩ := alike
      exact .error rfl
  | [_, _] =>
      obtain ⟨coll, _, rfl, colls, k, _, rfl, keys, rfl⟩ := alike
      exact .ok (valueAt_alike (key keys known) colls (Value.Alike.of_plain rfl))
  | [_, _, _] =>
      obtain ⟨coll, _, rfl, colls, k, _, rfl, keys, d, _, rfl, defaults, rfl⟩ := alike
      exact .ok (valueAt_alike (key keys known) colls defaults)
  | _ :: _ :: _ :: _ :: _ =>
      have same := alike.length_eq
      obtain ⟨_, _, rfl, _, _, _, rfl, _, _, _, rfl, _, _, _, rfl, _, _⟩ := alike
      unfold lookedUp
      dsimp only
      rw [same]
      exact .error rfl

end Collections

-----------------------------------------------------------------------------------------
-- All primitives
-----------------------------------------------------------------------------------------

open Collections

/-- A function whose results are plain has alike results where it has the same. -/
theorem ResultsAlike.plainly {x y : Except Fault Value} (same : Answers M (· = ·) x y)
    (plain : ∀ {w}, x = .ok w → w.isPlain)
    : Answers M (Value.Alike M) x y :=
  same.imp fun ran equal => by
    rw [← equal]
    exact Value.Alike.of_plain (plain ran)

/-- A sum is the same for arguments that are alike. -/
theorem sum_alike {args args' : List Value} (alike : ValuesAlike M args args')
    : Answers M (· = ·) (sum args) (sum args') := by
  cases args with
  | nil =>
      obtain rfl := alike
      exact .ok rfl
  | cons =>
      have folds := folded_alike (fun first second => numeric_alike first second (· + ·) (· + ·))
        numeric_plain alike
      obtain ⟨_, _, rfl, _, _⟩ := alike
      exact folds

/-- So is a product. -/
theorem product_alike {args args' : List Value} (alike : ValuesAlike M args args')
    : Answers M (· = ·) (product args) (product args') := by
  cases args with
  | nil =>
      obtain rfl := alike
      exact .ok rfl
  | cons =>
      have folds := folded_alike (fun first second => numeric_alike first second (· * ·) (· * ·))
        numeric_plain alike
      obtain ⟨_, _, rfl, _, _⟩ := alike
      exact folds

/-- So is a difference, of one argument or of several. -/
theorem difference_alike {args args' : List Value} (alike : ValuesAlike M args args')
    : Answers M (· = ·) (difference args) (difference args') := by
  have folds := folded_alike (fun first second => numeric_alike first second (· - ·) (· - ·))
    numeric_plain alike
  match args with
  | [] =>
      obtain rfl := alike
      exact folds
  | [_] =>
      obtain ⟨_, _, rfl, only, rfl⟩ := alike
      exact numeric_alike (Value.Alike.of_plain rfl) only _ _
  | _ :: _ :: _ =>
      obtain ⟨_, _, rfl, _, _, _, rfl, _, _⟩ := alike
      exact folds

/-- So is a quotient, of one argument or of several. -/
theorem quotient_alike {args args' : List Value} (alike : ValuesAlike M args args')
    : Answers M (· = ·) (quotient args) (quotient args') := by
  have folds := folded_alike dividedBy_alike dividedBy_plain alike
  match args with
  | [] =>
      obtain rfl := alike
      exact folds
  | [_] =>
      obtain ⟨_, _, rfl, only, rfl⟩ := alike
      exact dividedBy_alike (Value.Alike.of_plain rfl) only
  | _ :: _ :: _ =>
      obtain ⟨_, _, rfl, _, _, _, rfl, _, _⟩ := alike
      exact folds

/-- Texts of arguments that are alike are the same, joined. Witness: induction on the arguments. -/
theorem joined_alike {args args' : List Value} (alike : ValuesAlike M args args')
    : Primitive.joined args' = Primitive.joined args := by
  unfold Primitive.joined
  congr 1
  induction args generalizing args' with
  | nil =>
      obtain rfl := alike
      rfl
  | cons v rest ih =>
      obtain ⟨w, others, rfl, first, last⟩ := alike
      rw [List.filter_cons, List.filter_cons, first.isTruthy_eq]
      split
      · rw [List.map_cons, List.map_cons, first.text_eq, ih last]
      · exact ih last

/-- A sum is plain. -/
theorem sum_plain {args : List Value} {w : Value} (ran : sum args = .ok w)
    : w.isPlain := by
  unfold sum at ran
  split at ran
  · obtain rfl := Except.ok.inj ran
    rfl
  · exact folded_plain numeric_plain ran

/-- So is a product. -/
theorem product_plain {args : List Value} {w : Value} (ran : product args = .ok w)
    : w.isPlain := by
  unfold product at ran
  split at ran
  · obtain rfl := Except.ok.inj ran
    rfl
  · exact folded_plain numeric_plain ran

/-- So is a difference. -/
theorem difference_plain {args : List Value} {w : Value} (ran : difference args = .ok w)
    : w.isPlain := by
  unfold difference at ran
  split at ran
  · exact numeric_plain ran
  · exact folded_plain numeric_plain ran

/-- So is a quotient. -/
theorem quotient_plain {args : List Value} {w : Value} (ran : quotient args = .ok w)
    : w.isPlain := by
  unfold quotient at ran
  split at ran
  · exact dividedBy_plain ran
  · exact folded_plain dividedBy_plain ran

/-- So is an ordering. -/
theorem ordered_plain {holds : Ordering → Bool} {args : List Value} {w : Value}
    (ran : ordered holds args = .ok w)
    : w.isPlain := by
  unfold ordered at ran
  split at ran
  · cases ran
  · obtain ⟨_, _, ran⟩ := ok_of_bind ran
    obtain rfl := Except.ok.inj ran
    rfl
  · exact compareChain_plain ran

/-- Plain arguments that are alike are comparable, one by one. Witness: induction on them. -/
theorem comparable_of_arePlain {args args' : List Value} (alike : ValuesAlike M args args')
    (known : arePlain args' ∨ M.Exact)
    : List.Forall₂ (Value.Comparable M) args args' := by
  induction args generalizing args' with
  | nil =>
      obtain rfl := alike
      exact .nil
  | cons v rest ih =>
      obtain ⟨w, others, rfl, first, last⟩ := alike
      rw [arePlain, Bool.and_eq_true] at known
      exact .cons (first.comparable (known.imp_left (·.1))) (ih last (known.imp_left (·.2)))

/-- Equality of all arguments is the same for those that are alike, if those behind the first are
plain.
-/
theorem allEqual_alike {args args' : List Value} (alike : ValuesAlike M args args')
    (known : arePlain args'.tail ∨ M.Exact)
    : Answers M (Value.Alike M) (allEqual args) (allEqual args') := by
  cases args with
  | nil =>
      obtain rfl := alike
      exact .error rfl
  | cons a rest =>
      have whole := alike
      obtain ⟨a', others, rfl, _, last⟩ := alike
      have same := chained_alike whole (comparable_of_arePlain last known)
      unfold allEqual
      dsimp only
      rw [same]
      exact .ok (Value.Alike.of_plain (truth_plain _))

/-- The refusal of a number of arguments that a primitive does not take. -/
theorem argumentCount_alike (least most : Nat) {args args' : List Value}
    (alike : ValuesAlike M args args')
    : Answers M (Value.Alike M) (.error (.argumentCount least most args.length))
        (.error (.argumentCount least most args'.length)) := by
  rw [alike.length_eq]
  exact .error rfl

/-- A primitive of one argument, from what it does with that. -/
theorem unary_alike {p : Primitive} {f : Value → Except Fault Value}
    (only : ∀ v, p.compute a [v] = f v)
    (refuses : ∀ args : List Value, args.length ≠ 1
      → p.compute a args = .error (.argumentCount (p.arity?.getD 0) (p.arity?.getD 0) args.length))
    (inner : ∀ {v w : Value}, v.Alike M w → Answers M (Value.Alike M) (f v) (f w))
    {args args' : List Value} (alike : ValuesAlike M args args')
    : Answers M (Value.Alike M) (p.compute a args) (p.compute a args') := by
  by_cases one : args.length = 1
  · obtain ⟨v, rfl⟩ := List.length_eq_one_iff.mp one
    obtain ⟨w, _, rfl, same, rfl⟩ := alike
    rw [only, only]
    exact inner same
  · rw [refuses args one, refuses args' (by rwa [alike.length_eq])]
    exact argumentCount_alike _ _ alike

/-- What a primitive computes from alike arguments is alike. Witness: by the primitive; those that
compare values compare them with plain ones only, unless identities are kept.
-/
theorem Primitive.compute_alike {p : Primitive} {args args' : List Value}
    (alike : ValuesAlike M args args') (known : p.isTracked args' ∨ M.Exact)
    : Answers M (Value.Alike M) (p.compute a args) (p.compute a args') := by
  cases p with
  | add => exact (sum_alike alike).plainly sum_plain
  | subtract => exact (difference_alike alike).plainly difference_plain
  | multiply => exact (product_alike alike).plainly product_plain
  | divide => exact (quotient_alike alike).plainly quotient_plain
  | equal => exact allEqual_alike alike known
  | less => exact (ordered_alike _ alike).plainly ordered_plain
  | lessOrEqual => exact (ordered_alike _ alike).plainly ordered_plain
  | greater => exact (ordered_alike _ alike).plainly ordered_plain
  | greaterOrEqual => exact (ordered_alike _ alike).plainly ordered_plain
  | str =>
      have same := joined_alike alike
      simp only [Primitive.compute, same]
      exact .ok (Value.Alike.of_plain rfl)
  | print => exact .ok (Value.Alike.of_plain rfl)
  | printLine => exact .ok (Value.Alike.of_plain rfl)
  | symbol => exact (symbolOf_alike alike).plainly symbolOf_plain
  | keyword => exact (keywordOf_alike alike).plainly keywordOf_plain
  | conj => exact conjoinAll_alike alike known
  | concat => exact concatenated_alike alike
  | get => exact lookedUp_alike alike known
  | increment =>
      refine unary_alike (f := fun v => plus v (.int 1)) (fun _ => rfl) ?_ (fun inner => ?_) alike
      · intro args other
        match args with
        | [_] => cases other rfl
        | [] | _ :: _ :: _ => rfl
      · exact (numeric_alike inner (Value.Alike.of_plain rfl) _ _).plainly numeric_plain
  | decrement =>
      refine unary_alike (f := fun v => minus v (.int 1)) (fun _ => rfl) ?_ (fun inner => ?_) alike
      · intro args other
        match args with
        | [_] => cases other rfl
        | [] | _ :: _ :: _ => rfl
      · exact (numeric_alike inner (Value.Alike.of_plain rfl) _ _).plainly numeric_plain
  | not | isNil =>
      refine unary_alike (f := fun v => .ok (.truth !v.isTruthy)) (fun _ => rfl) ?_
        (fun {v w} inner => ?_) alike
      · intro args other
        match args with
        | [_] => cases other rfl
        | [] | _ :: _ :: _ => rfl
      · rw [inner.isTruthy_eq]
        exact .ok (Value.Alike.of_plain (truth_plain _))
  | typeOf =>
      refine unary_alike (f := fun v => .ok (.string v.typeName)) (fun _ => rfl) ?_
        (fun {v w} inner => ?_) alike
      · intro args other
        match args with
        | [_] => cases other rfl
        | [] | _ :: _ :: _ => rfl
      · rw [inner.typeName_eq]
        exact .ok (Value.Alike.of_plain rfl)
  | count =>
      refine unary_alike (fun _ => rfl) ?_ countOf_alike alike
      intro args other
      match args with
      | [_] => cases other rfl
      | [] | _ :: _ :: _ => rfl
  | first =>
      refine unary_alike (fun _ => rfl) ?_ firstOf_alike alike
      intro args other
      match args with
      | [_] => cases other rfl
      | [] | _ :: _ :: _ => rfl
  | rest =>
      refine unary_alike (fun _ => rfl) ?_ restOf_alike alike
      intro args other
      match args with
      | [_] => cases other rfl
      | [] | _ :: _ :: _ => rfl
  | vec =>
      refine unary_alike (f := fun v => do .ok (.vector (← itemsArg v))) (fun _ => rfl) ?_
        (fun inner => (itemsArg_alike inner).bind fun items => .ok ⟨_, rfl, items⟩) alike
      intro args other
      match args with
      | [_] => cases other rfl
      | [] | _ :: _ :: _ => rfl
  | nth =>
      match args with
      | [_, _] =>
          obtain ⟨_, _, rfl, coll, _, _, rfl, index, rfl⟩ := alike
          exact itemAt_alike coll index
      | [] =>
          obtain rfl := alike
          exact .error rfl
      | [_] =>
          obtain ⟨_, _, rfl, _, rfl⟩ := alike
          exact .error rfl
      | _ :: _ :: _ :: _ =>
          have same := argumentCount_alike 2 2 alike
          obtain ⟨_, _, rfl, _, _, _, rfl, _, _, _, rfl, _, _⟩ := alike
          exact same
  | cons =>
      match args with
      | [_, _] =>
          obtain ⟨_, _, rfl, item, _, _, rfl, coll, rfl⟩ := alike
          exact consOnto_alike item coll
      | [] =>
          obtain rfl := alike
          exact .error rfl
      | [_] =>
          obtain ⟨_, _, rfl, _, rfl⟩ := alike
          exact .error rfl
      | _ :: _ :: _ :: _ =>
          have same := argumentCount_alike 2 2 alike
          obtain ⟨_, _, rfl, _, _, _, rfl, _, _, _, rfl, _, _⟩ := alike
          exact same
  | assoc =>
      match args with
      | [_, key, _] =>
          obtain ⟨_, _, rfl, coll, _, _, rfl, keys, _, _, rfl, values, rfl⟩ := alike
          have comparable := keys.comparable <| known.imp_left fun tracked => by
            simpa [Primitive.isTracked, arePlain] using tracked
          exact associated_alike comparable coll values
      | [] =>
          obtain rfl := alike
          exact .error rfl
      | [_] =>
          obtain ⟨_, _, rfl, _, rfl⟩ := alike
          exact .error rfl
      | [_, _] =>
          obtain ⟨_, _, rfl, _, _, _, rfl, _, rfl⟩ := alike
          exact .error rfl
      | _ :: _ :: _ :: _ :: _ =>
          have same := argumentCount_alike 3 3 alike
          obtain ⟨_, _, rfl, _, _, _, rfl, _, _, _, rfl, _, _, _, rfl, _, _⟩ := alike
          exact same
  | apply =>
      have same := argumentCount_alike 0 0 alike
      cases args with
      | nil =>
          obtain rfl := alike
          exact same
      | cons =>
          obtain ⟨_, _, rfl, _, _⟩ := alike
          exact same

/-- Alike arguments of the primitive that calls functions are alike functions and arguments. -/
theorem spread_alike {args args' : List Value} (alike : ValuesAlike M args args')
    : Answers M (fun x y => x.1.Alike M y.1 ∧ ValuesAlike M x.2 y.2) (Primitive.spread args)
        (Primitive.spread args') := by
  match args with
  | [] =>
      obtain rfl := alike
      exact .error rfl
  | [callee] =>
      obtain ⟨callee', _, rfl, callees, rfl⟩ := alike
      cases callee with
      | list | vector | map | set | function | expander | node =>
          obtain ⟨_, rfl, _⟩ := callees
          exact .error rfl
      | _ =>
          obtain rfl := callees
          exact .error rfl
  | callee :: next :: more =>
      obtain ⟨callee', _, rfl, callees, next', more', rfl, nexts, mores⟩ := alike
      have spreads : ValuesAlike M (next :: more) (next' :: more') := ⟨_, _, rfl, nexts, mores⟩
      cases callee with
      | function f =>
          obtain ⟨g, rfl, functions⟩ := callees
          have final := spreads.getLast (List.cons_ne_nil _ _) (List.cons_ne_nil _ _)
          exact (itemsArg_alike final).bind fun items =>
            .ok ⟨functions, spreads.dropLast.append items⟩
      | list | vector | map | set | expander | node =>
          obtain ⟨_, rfl, inner⟩ := callees
          exact .error ⟨_, rfl, _, rfl, inner⟩
      | _ =>
          obtain rfl := callees
          exact .error ⟨_, rfl, rfl⟩

-----------------------------------------------------------------------------------------
-- Literals of sets and maps
-----------------------------------------------------------------------------------------

variable {a : Arrangement}

/-- The items of a set that has only plain items are plain. Witness: an item is put in the place
of equal ones only.
-/
theorem arePlain_of_distinct {items : List Value} (plain : arePlain (Value.distinct a items))
    : arePlain items := by
  rw [arePlain_eq_all, List.all_eq_true] at plain ⊢
  exact (Value.forall_mem_of_foldl_upsert (P := fun v : Value => v.isPlain)
    (fun _ _ => Value.isPlain_of_equal) plain).2

/-- Sets of comparable items are alike, by the items that are put in one by one. -/
theorem distinct_alike {items items' : List Value}
    (comparable : List.Forall₂ (Value.Comparable M) items items')
    : ValuesAlike M (Value.distinct a items) (Value.distinct a items') :=
  valuesAlike_iff.mpr (Value.foldl_upsert_rel
    (fun _ _ compared _ _ first => (compared.beq_eq first).symm)
    (fun _ _ compared => compared.alike) comparable .nil)

/-- Sets of alike items are alike when one has only plain items, or identities are kept. -/
theorem setOf_alike {items items' : List Value} (alike : ValuesAlike M items items')
    (known : (Value.setOf a items').hasPlainKeys ∨ M.Exact)
    : (Value.setOf a items).Alike M (Value.setOf a items') :=
  ⟨_, rfl, distinct_alike (comparable_of_arePlain alike (known.imp_left arePlain_of_distinct))⟩

/-- The keys of a map are plain if those that are left in it are, since equal keys are plain
together.
-/
theorem keys_of_distinctEntries {entries : List (Value × Value)}
    (plain : (Value.distinctEntries a entries).all fun (k, _) => k.isPlain)
    : entries.all fun (k, _) => k.isPlain := by
  rw [List.all_eq_true] at plain ⊢
  exact (Value.forall_mem_of_foldl_upsert (P := fun e : Value × Value => e.1.isPlain)
    (fun _ _ => Value.isPlain_of_equal) plain).2

/-- Maps of entries that are alike are, for plain keys. -/
theorem distinctEntries_alike {entries entries' : List (Value × Value)}
    (alike : EntriesAlike M entries entries')
    (known : (entries'.all fun (k, _) => k.isPlain) ∨ M.Exact)
    : EntriesAlike M (Value.distinctEntries a entries) (Value.distinctEntries a entries') := by
  rw [entriesAlike_iff] at alike ⊢
  have comparable : List.Forall₂ (fun e f => e.1.Comparable M f.1 ∧ e.2.Alike M f.2) entries
      entries' := by
    induction alike with
    | nil => exact .nil
    | cons first _ ih =>
        rw [List.all_cons, Bool.and_eq_true] at known
        exact .cons ⟨first.1.comparable (known.imp_left (·.1)), first.2⟩
          (ih (known.imp_left (·.2)))
  exact Value.foldl_upsert_rel (fun _ _ compared _ _ first => (compared.1.beq_eq first.1).symm)
    (fun _ _ compared => ⟨compared.1.alike, compared.2⟩) comparable .nil

/-- Alternating keys and values that are alike give entries that are, by the recursion of pairs. -/
theorem pairs_alike
    : ∀ {items items' : List Value}, ValuesAlike M items items'
        → EntriesAlike M (Value.pairs items) (Value.pairs items')
  | [], _, same => by
      obtain rfl := same
      rfl
  | [_], _, alike => by
      obtain ⟨_, _, rfl, _, rfl⟩ := alike
      rfl
  | _ :: _ :: _, _, alike => by
      obtain ⟨_, _, rfl, key, _, _, rfl, value, last⟩ := alike
      exact ⟨_, _, _, rfl, key, value, pairs_alike last⟩

/-- Maps of alike items are alike when one has only plain keys, or identities are kept. -/
theorem mapOf_alike {items items' : List Value} (alike : ValuesAlike M items items')
    (known : (Value.mapOf a (Value.pairs items')).hasPlainKeys ∨ M.Exact)
    : (Value.mapOf a (Value.pairs items)).Alike M (Value.mapOf a (Value.pairs items')) :=
  ⟨_, rfl, distinctEntries_alike (pairs_alike alike) (known.imp_left keys_of_distinctEntries)⟩

end IncrementalLisp
