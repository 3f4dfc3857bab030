import IncrementalLisp.Proofs.Prelude.Evaluation
import Mathlib.Algebra.Ring.Nat

/-! The functions of the prelude that go through a sequence. Each asks whether the sequence is
empty, one call deeper than itself, and goes on with the rest of it, again one call deeper. So a
sequence of n items takes n + 2 calls inside one another, and the functions compute those on lists
where so many are allowed.
-/

namespace IncrementalLisp

namespace Prelude

-----------------------------------------------------------------------------------------
-- The functions as trees
-----------------------------------------------------------------------------------------

/-- (core name) is the symbol that a name has in the core namespace. -/
def core (name : String)
    : Symbol :=
  Symbol.inSpace coreSpace name

/-- The tree of a name. -/
def named (name : String)
    : Node :=
  .lookup (.bare name)

/-- The tree of a call of a name. -/
def called (name : String) (args : List Node)
    : Node :=
  .of (.apply (named name) args)

/-- The tree of a function literal. -/
def literal (params : List String) (body : Node)
    : Node :=
  .of (.lambda (params.map .bare) none body)

/-- The tree of a conditional on the sequence being empty. -/
def unlessEmpty (base step : Node)
    : Node :=
  .of (.conditional (called "empty?" [named "coll"]) base step)

/-- The place of the empty list that map ends in. -/
def mapEnd : Location := ⟨"core.ent", 17, 5⟩

/-- The place of the empty list that filter ends in. -/
def filterEnd : Location := ⟨"core.ent", 22, 5⟩

/-- The function empty? as a tree. -/
def emptyTree : Node :=
  literal ["coll"] (.of (.sequence [called "=" [called "count" [named "coll"], .constant (.int 0)]]))

/-- The step of map. -/
def mapStep : Node :=
  called "cons" [called "f" [called "first" [named "coll"]],
    called "map" [named "f", called "rest" [named "coll"]]]

/-- The function map as a tree. -/
def mapTree : Node :=
  literal ["f", "coll"] (unlessEmpty (.constant (.list [] (some mapEnd))) mapStep)

/-- The recursive call of filter. -/
def filterOn : Node :=
  called "filter" [named "pred", called "rest" [named "coll"]]

/-- The step of filter. -/
def filterStep : Node :=
  .of (.conditional (called "pred" [called "first" [named "coll"]])
    (called "cons" [called "first" [named "coll"], filterOn]) filterOn)

/-- The function filter as a tree. -/
def filterTree : Node :=
  literal ["pred", "coll"] (unlessEmpty (.constant (.list [] (some filterEnd))) filterStep)

/-- The step of reduce. -/
def reduceStep : Node :=
  called "reduce" [named "f", called "f" [named "init", called "first" [named "coll"]],
    called "rest" [named "coll"]]

/-- The function reduce as a tree. -/
def reduceTree : Node :=
  literal ["f", "init", "coll"] (unlessEmpty (named "init") reduceStep)

/-- (Sequential defs) says that definitions give the primitives and the functions on sequences their
names.
-/
structure Sequential (defs : List (Symbol × Node)) : Prop where
  primitive : ∀ p : Primitive, defs.lookup (core p.name) = some (.constant (.function (.builtin p)))
  empty : defs.lookup (core "empty?") = some emptyTree
  map : defs.lookup (core "map") = some mapTree
  filter : defs.lookup (core "filter") = some filterTree
  reduce : defs.lookup (core "reduce") = some reduceTree

-----------------------------------------------------------------------------------------
-- Calls inside one another
-----------------------------------------------------------------------------------------

/-- (Within calls limit P) says of an end that it is a value with a property, if so many calls
inside one another are allowed, and otherwise the error of one that is too deep.
-/
def Within (calls limit : Nat) (P : Value → Prop)
    : Except Halt Value → Prop
  | .ok v => calls ≤ limit ∧ P v
  | .error h => ¬calls ≤ limit ∧ h = .error (.stackOverflow limit limit)

/-- What is within some calls is so for any weaker property of its value. -/
theorem Within.mono {calls limit : Nat} {P Q : Value → Prop} (weaker : ∀ v, P v → Q v)
    {r : Except Halt Value} (within : Within calls limit P r)
    : Within calls limit Q r := by
  cases r with
  | ok v => exact ⟨within.1, weaker v within.2⟩
  | error h => exact within

/-- With enough calls there is a value, since only a lack of them fails. -/
theorem Within.of_le {calls limit : Nat} {P : Value → Prop} {r : Except Halt Value}
    (within : Within calls limit P r) (enough : calls ≤ limit)
    : ∃ v, r = .ok v ∧ P v := by
  cases r with
  | ok v => exact ⟨v, rfl, within.2⟩
  | error h => exact absurd enough within.1

/-- With too few calls there is the error that says so. -/
theorem Within.of_not_le {calls limit : Nat} {P : Value → Prop} {r : Except Halt Value}
    (within : Within calls limit P r) (few : ¬calls ≤ limit)
    : r = .error (.error (.stackOverflow limit limit)) := by
  cases r with
  | ok v => exact absurd within.1 few
  | error h => exact congrArg Except.error within.2

/-- (Folds p init xs total) says that a primitive comes from a value to another on the items of a
list, one after the other. The table that it enlarges on an item may be arranged in any way.
-/
inductive Folds (p : Primitive) : Value → List Value → Value → Prop where
  | nil {init : Value}
      : Folds p init [] init
  | cons {init sum total x : Value} {xs : List Value} (a : Arrangement)
      (answers : p.answer a [init, x] = .ok sum) (rest : Folds p sum xs total)
      : Folds p init (x :: xs) total

/-- (FoldsThrough p init xs) says that a primitive succeeds on each item of a list, together with
what it has come to.
-/
def FoldsThrough (p : Primitive)
    : Value → List Value → Prop
  | _, [] => True
  | init, x :: xs => ∀ a, ∃ sum, p.answer a [init, x] = .ok sum ∧ FoldsThrough p sum xs

/-- A primitive other than conj that folds a list comes to what its fold does, with tables arranged
in any way, by induction on the list: on two items no other primitive enlarges a table.
-/
theorem Folds.foldlM_eq {p : Primitive} {init total : Value} {xs : List Value}
    (folds : Folds p init xs total) (steady : p ≠ .conj) (a : Arrangement)
    : xs.foldlM (fun sum x => p.answer a [sum, x]) init = .ok total := by
  induction folds with
  | nil => rfl
  | cons a' answers _ ih =>
      rename_i init sum _ x xs _
      have same : p.answer a [init, x] = p.answer a' [init, x] := by
        cases p <;> first | rfl | exact absurd rfl steady
      rw [List.foldlM_cons, same, answers]
      exact ih

-----------------------------------------------------------------------------------------
-- What primitives answer
-----------------------------------------------------------------------------------------

section Primitives

variable {coll x : Value} {xs : List Value} (a : Arrangement)

/-- The first of some items is their first, by the definition. -/
theorem answer_first (items : coll.items? = some (x :: xs))
    : Primitive.first.answer a [coll] = .ok x := by
  change (Collections.firstOf coll).mapError _ = _
  unfold Collections.firstOf Collections.itemsArg
  rw [items]
  rfl

/-- The rest of some items are those after the first, by the definition. -/
theorem answer_rest (items : coll.items? = some (x :: xs))
    : Primitive.rest.answer a [coll] = .ok (.listOf xs) := by
  change (Collections.restOf coll).mapError _ = _
  unfold Collections.restOf Collections.itemsArg
  rw [items]
  rfl

/-- An item before some items makes a list of them all, by the definition. -/
theorem answer_cons (items : coll.items? = some xs)
    : Primitive.cons.answer a [x, coll] = .ok (.listOf (x :: xs)) := by
  change (Collections.consOnto x coll).mapError _ = _
  unfold Collections.consOnto Collections.itemsArg
  rw [items]
  rfl

/-- The count of some items is their number, by cases on the kind of collection. -/
theorem answer_count (items : coll.items? = some xs)
    : Primitive.count.answer a [coll] = .ok (.int (.ofNat xs.length)) := by
  change (Collections.countOf coll).mapError _ = _
  unfold Collections.countOf Collections.itemsArg
  cases coll <;> cases items <;> rfl

/-- The number of items is no more than 64 bits can say, so only that of no items is zero. -/
theorem answer_equal_zero (few : xs.length < 2 ^ 64)
    : Primitive.equal.answer a [.int (.ofNat xs.length), .int 0] = .ok (.truth xs.isEmpty) := by
  have zero : (Int64.ofNat xs.length == 0) = xs.isEmpty := by
    cases xs with
    | nil => rfl
    | cons x xs =>
        refine beq_eq_false_iff_ne.mpr fun same => ?_
        have bits := congrArg (BitVec.toNat ∘ Int64.toBitVec) same
        change (x :: xs).length % 2 ^ 64 = 0 at bits
        rw [Nat.mod_eq_of_lt few] at bits
        cases bits
  change Except.ok (Value.truth ((Int64.ofNat xs.length == 0) && true)) = _
  rw [zero, Bool.and_true]

end Primitives

-----------------------------------------------------------------------------------------
-- Calls inside a function
-----------------------------------------------------------------------------------------

/-- (Global base c b name) says that a name has no lexical value, and a definition in the core. -/
structure Global (base : Store) (c : ContextId) (b : Bindings) (name : String) : Prop where
  free : b.lexical? (.bare name) = none
  defined : base.Defines c (core name)

/-- What the names are bound to in a call of a function literal. -/
def frame (params : List String) (args : List Value)
    : Bindings :=
  Bindings.overridden [] (params.map .bare) none args

/-- A name that is no parameter is not bound. -/
theorem lexical?_frame {params : List String} {name : String} (other : name ∉ params)
    (args : List Value)
    : (frame params args).lexical? (.bare name) = none := by
  have outside : .bare name ∉ ((params.map Symbol.bare).zip args).map (·.1) := by
    intro among
    obtain ⟨entry, bound, same⟩ := List.mem_map.mp among
    obtain ⟨param, listed, spelled⟩ := List.mem_map.mp (List.of_mem_zip (b := entry.2) bound).1
    rw [same] at spelled
    exact other ((Symbol.mk.inj spelled).2 ▸ listed)
  exact Bindings.get?_foldl_insert (b := []) outside

/-- A function literal accepts as many arguments as it has parameters. -/
theorem accepts_literal {params : List String} {args : List Value}
    (count : args.length = params.length) (body : Node)
    : (Bindings.closing [] (params.map .bare) none body 0 0).arity.accepts args.length = true := by
  change (args.length == (params.map Symbol.bare).length) = true
  rw [List.length_map, count]
  exact beq_self_eq_true _

section Functions

variable {base : Store} {defs : List (Symbol × Node)} {c : ContextId} {b : Bindings}
  {depth limit : Nat} {R : Except Halt Value → Prop} {v coll x : Value} {args vs xs : List Value}
  {trees : List Node}

/-- A call of a name that a primitive that calls no function is bound to as a parameter ends as the
primitive does on the arguments, by the rule for calls.
-/
theorem evaluates_parameter {p : Primitive} (other : p ≠ .apply) {name : String}
    (bound : b.lexical? (.bare name) = some (.function (.builtin p)))
    (values : EvaluatesAll base trees c b depth limit (· = .ok vs))
    (answers : ∀ a, R (Halt.ofExcept (p.answer a vs)))
    : Evaluates base (called name trees) c b depth limit R := by
  refine .call (Evaluates.lexical bound).finds values ?_ nofun
  rintro _ _ rfl ⟨⟩
  exact .builtin other answers

variable (library : base.Library defs) (sequential : Sequential defs)
include library sequential

/-- A call of a name that a primitive is defined as ends as the primitive does on the arguments, by
the rule for applications.
-/
theorem evaluates_primitive (p : Primitive) (other : p ≠ .apply) (means : Global base c b p.name)
    {Q : Except Halt (List Value) → Prop} (values : EvaluatesAll base trees c b depth limit Q)
    (answers : ∀ vs, Q (.ok vs) → ∀ a, R (Halt.ofExcept (p.answer a vs)))
    (failed : ∀ h, Q (.error h) → R (.error h))
    : Evaluates base (called p.name trees) c b depth limit R :=
  .apply library means.free means.defined values
    (fun vs known => .builtin library other (sequential.primitive p) (answers vs known)) failed

/-- The same where the arguments come to values on which the primitive answers one thing. -/
theorem evaluates_answer (p : Primitive) (other : p ≠ .apply) (means : Global base c b p.name)
    (values : EvaluatesAll base trees c b depth limit (· = .ok vs))
    (answers : ∀ a, p.answer a vs = .ok v)
    : Evaluates base (called p.name trees) c b depth limit (· = .ok v) := by
  refine evaluates_primitive library sequential p other means values ?_ nofun
  rintro _ ⟨⟩ a
  exact congrArg Halt.ofExcept (answers a)

/-- A call of first on the sequence comes to the first item, by what the primitive answers. -/
theorem evaluates_first (means : Global base c b "first")
    (bound : b.lexical? (.bare "coll") = some coll) (items : coll.items? = some (x :: xs))
    : Evaluates base (called "first" [named "coll"]) c b depth limit (· = .ok x) :=
  evaluates_answer library sequential .first nofun means (.given (.cons (.lexical bound) .nil))
    (answer_first · items)

/-- A call of rest on the sequence comes to the other items, by what the primitive answers. -/
theorem evaluates_rest (means : Global base c b "rest")
    (bound : b.lexical? (.bare "coll") = some coll) (items : coll.items? = some (x :: xs))
    : Evaluates base (called "rest" [named "coll"]) c b depth limit (· = .ok (.listOf xs)) :=
  evaluates_answer library sequential .rest nofun means (.given (.cons (.lexical bound) .nil))
    (answer_rest · items)

omit sequential in
/-- A call of a library function ends as its body does, which finds the names that it uses defined.
Witness: the dependencies of the function are among what its context defines.
-/
theorem answers_literal {s : Symbol} {params : List String} {body : Node}
    (given : defs.lookup s = some (literal params body)) (count : args.length = params.length)
    (names : List String) (uses : ∀ name ∈ names, .bare name ∈ (literal params body).dependencies)
    (free : ∀ name ∈ names, name ∉ params)
    (room : depth < limit)
    (runs : ∀ d, (∀ name ∈ names, Global base d (frame params args) name)
      → Evaluates base body d (frame params args) (depth + 1) limit R)
    : Replies base s args depth limit R := by
  refine Replies.function library given (accepts_literal count body) room fun d _ defined =>
    runs d fun name used => ?_
  exact ⟨lexical?_frame (free name used) args, defined _ (uses name used)⟩

/-- The function empty? tells whether there are items, one call deeper. Witness: its body compares
the count with zero.
-/
theorem answers_empty (items : coll.items? = some xs) (few : xs.length < 2 ^ 64)
    (room : depth ≤ limit)
    : Replies base (core "empty?") [coll] depth limit
        (Within (depth + 1) limit (· = .truth xs.isEmpty)) := by
  by_cases inside : depth < limit
  · refine answers_literal library sequential.empty rfl ["=", "count"] (by decide +kernel)
      (by decide) inside fun d means => Evaluates.sequence_singleton ?_
    have counted : Evaluates base (called "count" [named "coll"]) d _ (depth + 1) limit
        (· = .ok (.int (.ofNat xs.length))) :=
      evaluates_answer library sequential .count nofun (means _ (by decide))
        (.given (.cons (.lexical rfl) .nil)) (answer_count · items)
    have compared : Evaluates base (called "=" [called "count" [named "coll"], .constant (.int 0)])
        d _ (depth + 1) limit (· = .ok (.truth xs.isEmpty)) :=
      evaluates_answer library sequential .equal nofun (means _ (by decide))
        (.given (.cons counted (.cons .constant .nil))) (answer_equal_zero · few)
    refine compared.mono ?_
    rintro _ rfl
    exact ⟨inside, rfl⟩
  · obtain rfl : depth = limit := Nat.le_antisymm room (Nat.le_of_not_lt inside)
    exact Replies.overflow library sequential.empty rfl inside ⟨inside, rfl⟩

/-- A call of a function that does one thing if its sequence is empty, and otherwise another.
Witness: the call itself takes one call, and the question inside of it another.
-/
theorem answers_unlessEmpty {s : Symbol} {params : List String} {done step : Node}
    (given : defs.lookup s = some (literal params (unlessEmpty done step)))
    (count : args.length = params.length) (names : List String) (asks : "empty?" ∈ names)
    (uses : ∀ name ∈ names, .bare name ∈ (literal params (unlessEmpty done step)).dependencies)
    (free : ∀ name ∈ names, name ∉ params)
    (bound : (frame params args).lexical? (.bare "coll") = some coll)
    (items : coll.items? = some xs) (few : xs.length < 2 ^ 64) (room : depth ≤ limit) {calls : Nat}
    (deep : depth + 2 ≤ calls) {P : Value → Prop}
    (runs : depth + 2 ≤ limit
      → ∀ d, (∀ name ∈ names, Global base d (frame params args) name)
      → Evaluates base (if xs.isEmpty then done else step) d
          (frame params args) (depth + 1) limit (Within calls limit P))
    : Replies base s args depth limit (Within calls limit P) := by
  by_cases inside : depth < limit
  · refine answers_literal library given count names uses free inside fun d means => ?_
    have asking := means "empty?" asks
    have tested : Evaluates base (called "empty?" [named "coll"]) d (frame params args) (depth + 1)
        limit (Within (depth + 2) limit (· = .truth xs.isEmpty)) := by
      refine .apply library asking.free asking.defined
        (.given (.cons (.lexical bound) .nil)) ?_ nofun
      rintro _ ⟨⟩
      exact answers_empty library sequential items few inside
    refine tested.conditional ?_ ?_
    · rintro _ ⟨enough, rfl⟩
      have chooses : (Value.truth xs.isEmpty).isTruthy = xs.isEmpty := by cases xs.isEmpty <;> rfl
      rw [chooses]
      exact runs enough d means
    · rintro _ ⟨short, rfl⟩
      exact ⟨fun enough => short (deep.trans enough), rfl⟩
  · obtain rfl : depth = limit := Nat.le_antisymm room (Nat.le_of_not_lt inside)
    exact Replies.overflow library given (accepts_literal count _) inside ⟨by omega, rfl⟩

/-- A call of cons on a list that a recursive call comes to, by what cons answers on its items. -/
theorem evaluates_cons {tree tree' : Node} {calls : Nat} (means : Global base c b "cons")
    (head : Evaluates base tree c b depth limit (· = .ok x))
    (tail : Evaluates base tree' c b depth limit (Within calls limit (· = v)))
    (items : v.items? = some xs)
    : Evaluates base (called "cons" [tree, tree']) c b depth limit
        (Within calls limit (· = .listOf (x :: xs))) := by
  have values : EvaluatesAll base [tree, tree'] c b depth limit
      (Listed [(· = .ok x), Within calls limit (· = v)]) :=
    .listed (.cons head (.cons tail .nil))
  refine evaluates_primitive library sequential .cons nofun means values ?_ ?_
  · rintro _ (_ | ⟨⟨⟩, _ | ⟨⟨enough, rfl⟩, ⟨⟩⟩⟩) a
    rw [answer_cons a items]
    exact ⟨enough, rfl⟩
  · rintro h ⟨R, among, error⟩
    rcases List.mem_pair.mp among with rfl | rfl
    · cases error
    · exact error

end Functions

-----------------------------------------------------------------------------------------
-- One item
-----------------------------------------------------------------------------------------

/-- The list of some items, which is at a place if it is empty. -/
def listEnding (place : Location) (items : List Value)
    : Value :=
  .list items (if items.isEmpty then some place else none)

/-- The names that all functions on sequences use. -/
def tools : List String :=
  ["empty?", "first", "rest"]

section Steps

variable {base : Store} {defs : List (Symbol × Node)} (library : base.Library defs)
  (sequential : Sequential defs) {p : Primitive} (other : p ≠ .apply) {c : ContextId} {b : Bindings}
  {depth limit calls : Nat} {coll x y init : Value} {xs ys : List Value}
  (sequence : b.lexical? (.bare "coll") = some coll) (items : coll.items? = some (x :: xs))
include library sequential other sequence items

/-- The step of map puts what its function answers before what map comes to on the rest, by the
rules for the calls of its body.
-/
theorem evaluates_mapStep (means : ∀ name ∈ "map" :: "cons" :: tools, Global base c b name)
    (function : b.lexical? (.bare "f") = some (.function (.builtin p)))
    (answers : ∀ a, p.answer a [x] = .ok y)
    (again : Replies base (core "map") [.function (.builtin p), .listOf xs] depth limit
      (Within calls limit (· = listEnding mapEnd ys)))
    : Evaluates base mapStep c b depth limit
        (Within calls limit (· = listEnding mapEnd (y :: ys))) := by
  have first : Evaluates base (called "first" [named "coll"]) c b depth limit _ :=
    evaluates_first library sequential (means "first" (by decide)) sequence items
  have rest : Evaluates base (called "rest" [named "coll"]) c b depth limit _ :=
    evaluates_rest library sequential (means "rest" (by decide)) sequence items
  have self := means "map" (by decide)
  have head : Evaluates base (called "f" [called "first" [named "coll"]]) c b depth limit
      (· = .ok y) :=
    evaluates_parameter other function (.given (.cons first .nil)) fun a =>
      congrArg Halt.ofExcept (answers a)
  have tail : Evaluates base (called "map" [named "f", called "rest" [named "coll"]]) c b depth
      limit (Within calls limit (· = listEnding mapEnd ys)) := by
    refine .apply library self.free self.defined
      (.given (.cons (.lexical function) (.cons rest .nil))) ?_ nofun
    rintro _ ⟨⟩
    exact again
  exact evaluates_cons library sequential (means "cons" (by decide)) head tail rfl

/-- The step of filter puts the item before what filter comes to on the rest, if its function
answers no nil, by the rules for the calls of its body.
-/
theorem evaluates_filterStep (means : ∀ name ∈ "filter" :: "cons" :: tools, Global base c b name)
    (function : b.lexical? (.bare "pred") = some (.function (.builtin p)))
    (answers : ∀ a, p.answer a [x] = .ok y)
    (again : Replies base (core "filter") [.function (.builtin p), .listOf xs] depth limit
      (Within calls limit (· = listEnding filterEnd ys)))
    : Evaluates base filterStep c b depth limit
        (Within calls limit (· = listEnding filterEnd (if y.isTruthy then x :: ys else ys))) := by
  have first : Evaluates base (called "first" [named "coll"]) c b depth limit _ :=
    evaluates_first library sequential (means "first" (by decide)) sequence items
  have rest : Evaluates base (called "rest" [named "coll"]) c b depth limit _ :=
    evaluates_rest library sequential (means "rest" (by decide)) sequence items
  have self := means "filter" (by decide)
  have on : Evaluates base filterOn c b depth limit
      (Within calls limit (· = listEnding filterEnd ys)) := by
    refine .apply library self.free self.defined
      (.given (.cons (.lexical function) (.cons rest .nil))) ?_ nofun
    rintro _ ⟨⟩
    exact again
  have chosen : Evaluates base (called "pred" [called "first" [named "coll"]]) c b depth limit
      (· = .ok y) :=
    evaluates_parameter other function (.given (.cons first .nil)) fun a =>
      congrArg Halt.ofExcept (answers a)
  refine chosen.conditional ?_ nofun
  rintro _ ⟨⟩
  cases y.isTruthy with
  | true => exact evaluates_cons library sequential (means "cons" (by decide)) first on rfl
  | false => exact on

/-- The step of reduce ends as reduce does from what its function answers on the item, by the rules
for the calls of its body.
-/
theorem evaluates_reduceStep (means : ∀ name ∈ "reduce" :: tools, Global base c b name)
    (function : b.lexical? (.bare "f") = some (.function (.builtin p)))
    (start : b.lexical? (.bare "init") = some init)
    (answers : ∀ a, ∃ sum, p.answer a [init, x] = .ok sum) {R : Except Halt Value → Prop}
    (again : ∀ a sum, p.answer a [init, x] = .ok sum
      → Replies base (core "reduce") [.function (.builtin p), sum, .listOf xs] depth limit R)
    : Evaluates base reduceStep c b depth limit R := by
  have first : Evaluates base (called "first" [named "coll"]) c b depth limit _ :=
    evaluates_first library sequential (means "first" (by decide)) sequence items
  have rest : Evaluates base (called "rest" [named "coll"]) c b depth limit _ :=
    evaluates_rest library sequential (means "rest" (by decide)) sequence items
  have self := means "reduce" (by decide)
  let folded (r : Except Halt Value) : Prop := ∃ a sum, p.answer a [init, x] = .ok sum ∧ r = .ok sum
  have folds : Evaluates base (called "f" [named "init", called "first" [named "coll"]]) c b depth
      limit folded := by
    refine evaluates_parameter other function
      (.given (.cons (.lexical start) (.cons first .nil))) fun a => ?_
    obtain ⟨sum, answer⟩ := answers a
    exact ⟨a, sum, answer, congrArg Halt.ofExcept answer⟩
  have values : EvaluatesAll base
      [named "f", called "f" [named "init", called "first" [named "coll"]],
        called "rest" [named "coll"]] c b depth limit
      (Listed [(· = .ok (.function (.builtin p))), folded, (· = .ok (.listOf xs))]) :=
    .listed (.cons (.lexical function) (.cons folds (.cons rest .nil)))
  refine .apply library self.free self.defined values ?_ ?_
  · rintro _ (_ | ⟨⟨⟩, _ | ⟨⟨a, sum, answer, ⟨⟩⟩, _ | ⟨⟨⟩, ⟨⟩⟩⟩⟩)
    exact again a _ answer
  · rintro h ⟨S, among, error⟩
    simp only [List.mem_cons, List.not_mem_nil, or_false] at among
    rcases among with rfl | rfl | rfl
    · cases error
    · obtain ⟨_, _, _, ⟨⟩⟩ := error
    · cases error

end Steps

-----------------------------------------------------------------------------------------
-- All items
-----------------------------------------------------------------------------------------

section Loops

variable {base : Store} {defs : List (Symbol × Node)} (library : base.Library defs)
  (sequential : Sequential defs) {p : Primitive} (other : p ≠ .apply) {g : Value → Value}
  {depth limit : Nat} {coll : Value} {xs : List Value} (few : xs.length < 2 ^ 64)
  (room : depth ≤ limit) (items : coll.items? = some xs)
include library sequential other few room items

/-- The function map comes to the list of what its function answers. The items that the function is
called on are those before the calls are too deep. By induction on the items: one item less is one
call deeper, so that the calls that the whole takes stay the same.
-/
theorem answers_map
    (answers : ∀ a, ∀ x ∈ xs.take (limit - (depth + 1)), p.answer a [x] = .ok (g x))
    : Replies base (core "map") [.function (.builtin p), coll] depth limit
        (Within (depth + xs.length + 2) limit (· = listEnding mapEnd (xs.map g))) := by
  induction xs generalizing coll depth
  all_goals
    refine answers_unlessEmpty library sequential sequential.map rfl ("map" :: "cons" :: tools)
      (by decide) (by decide +kernel) (by decide) rfl items few room (by omega)
      fun enough d means => ?_
  case nil =>
    refine Evaluates.constant.mono ?_
    rintro _ rfl
    exact ⟨enough, rfl⟩
  case cons x xs ih =>
    have left : limit - (depth + 1) = limit - (depth + 1 + 1) + 1 := by omega
    simp only [left, List.take_succ_cons, List.forall_mem_cons] at answers
    have again := @ih (depth + 1) (.listOf xs) (Nat.lt_of_succ_lt few) (by omega) rfl
      fun a => (answers a).2
    rw [Nat.add_right_comm depth 1] at again
    exact evaluates_mapStep library sequential other rfl items means rfl (fun a => (answers a).1)
      again

/-- The function filter comes to the list of the items on which its function answers no nil, by
induction on the items as for map.
-/
theorem answers_filter
    (answers : ∀ a, ∀ x ∈ xs.take (limit - (depth + 1)), p.answer a [x] = .ok (g x))
    : Replies base (core "filter") [.function (.builtin p), coll] depth limit
        (Within (depth + xs.length + 2) limit
          (· = listEnding filterEnd (xs.filter fun x => (g x).isTruthy))) := by
  induction xs generalizing coll depth
  all_goals
    refine answers_unlessEmpty library sequential sequential.filter rfl
      ("filter" :: "cons" :: tools) (by decide) (by decide +kernel) (by decide) rfl items few room
      (by omega) fun enough d means => ?_
  case nil =>
    refine Evaluates.constant.mono ?_
    rintro _ rfl
    exact ⟨enough, rfl⟩
  case cons x xs ih =>
    have left : limit - (depth + 1) = limit - (depth + 1 + 1) + 1 := by omega
    simp only [left, List.take_succ_cons, List.forall_mem_cons] at answers
    have again := @ih (depth + 1) (.listOf xs) (Nat.lt_of_succ_lt few) (by omega) rfl
      fun a => (answers a).2
    rw [Nat.add_right_comm depth 1] at again
    rw [List.filter_cons]
    exact evaluates_filterStep library sequential other rfl items means rfl
      (fun a => (answers a).1) again

/-- The function reduce comes to what folding from the left comes to, by induction on the items:
where there is room for the call on an item, the fold begins with it.
-/
theorem answers_reduce {init : Value}
    (folds : FoldsThrough p init (xs.take (limit - (depth + 1))))
    : Replies base (core "reduce") [.function (.builtin p), init, coll] depth limit
        (Within (depth + xs.length + 2) limit (Folds p init xs)) := by
  induction xs generalizing coll depth init
  all_goals
    refine answers_unlessEmpty library sequential sequential.reduce rfl ("reduce" :: tools)
      (by decide) (by decide +kernel) (by decide) rfl items few room (by omega)
      fun enough d means => ?_
  case nil =>
    refine (Evaluates.lexical (v := init) rfl).mono ?_
    rintro _ rfl
    exact ⟨enough, .nil⟩
  case cons x xs ih =>
    have left : limit - (depth + 1) = limit - (depth + 1 + 1) + 1 := by omega
    rw [left, List.take_succ_cons] at folds
    refine evaluates_reduceStep library sequential other rfl items means rfl rfl
      (fun a => (folds a).imp fun _ both => both.1) fun a sum answer => ?_
    obtain ⟨_, same, onward⟩ := folds a
    obtain rfl := Except.ok.inj (same.symm.trans answer)
    have again := @ih (depth + 1) (.listOf xs) (Nat.lt_of_succ_lt few) (by omega) rfl _ onward
    rw [Nat.add_right_comm depth 1] at again
    exact again.mono fun _ => Within.mono fun _ => .cons a answer

end Loops

end Prelude

end IncrementalLisp
