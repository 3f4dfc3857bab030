import IncrementalLisp.Machine.Tower
import IncrementalLisp.Proofs.Mirror.Run

/-! Evaluation of programs that differ only by a pass: of related nodes under alike bindings, if the
machines below evaluate their parts alike.
-/

namespace IncrementalLisp

/-- (EndsAlike P x y) says that two evaluations had alike values and left the same context. -/
def EndsAlike (P : Pass) (x y : Value × ContextId)
    : Prop :=
  x.1.Alike P y.1 ∧ y.2 = x.2

/-- (m.Mirrored F P) says that what the machine does with nodes, values, slots and forms, the
machines of almost all levels of the filter do with those that differ from them by the pass.
-/
structure Machine.Mirrored (F : Filter Nat) (P : Pass) (m : Machine) : Prop where
  eval
    : ∀ {n n' : Node} {b b' : Bindings} (c : ContextId), P.Related n n' → BindingsAlike P b b'
        → Run.Mirrored F P (EndsAlike P) (m.eval n c b) fun k => (ofLevels k).eval n' c b'
  call
    : ∀ {f f' : Value} {args args' : List Value} (c : ContextId), f.Alike P f'
        → ValuesAlike P args args'
        → Run.Mirrored F P (Value.Alike P) (m.call f args c) fun k => (ofLevels k).call f' args' c
  force
    : ∀ {slot other : Slot} (c : ContextId), slot.Alike P other
        → Run.Mirrored F P (Value.Alike P) (m.force slot c) fun k => (ofLevels k).force other c
  expand
    : ∀ {e e' k k' : Expander} {form form' : Value} (c : ContextId), e.Alike P e'
        → form.Alike P form' → k.Alike P k'
        → Run.Mirrored F P (Node.Alike P) (m.expand e c form k)
            fun level => (ofLevels level).expand e' c form' k'

variable {F : Filter Nat} {P : Pass}

-----------------------------------------------------------------------------------------
-- Shapes with related parts
-----------------------------------------------------------------------------------------

/-- Pairs of the same names and related nodes. -/
def Pass.PairRelated (P : Pass) (pair other : Symbol × Node)
    : Prop :=
  other.1 = pair.1 ∧ P.Related pair.2 other.2

/-- Shapes whose parts are related; the nodes that a definition stores are alike. -/
inductive Shape.Related (P : Pass) : Shape → Shape → Prop where
  | constant {v w : Value} : v.Alike P w → Related P (.constant v) (.constant w)
  | lookup (s : Symbol) : Related P (.lookup s) (.lookup s)
  | apply {f f' : Node} {args args' : List Node}
      : P.Related f f' → List.Forall₂ P.Related args args'
        → Related P (.apply f args) (.apply f' args')
  | define (s : Symbol) {expr expr' : Node}
      : expr.Alike P expr' → Related P (.define s expr) (.define s expr')
  | sequence {body body' : List Node}
      : List.Forall₂ P.Related body body' → Related P (.sequence body) (.sequence body')
  | conditional {test test' yes yes' no no' : Node}
      : P.Related test test' → P.Related yes yes' → P.Related no no'
        → Related P (.conditional test yes no) (.conditional test' yes' no')
  | binding {pairs pairs' : List (Symbol × Node)} {body body' : Node}
      : List.Forall₂ P.PairRelated pairs pairs' → P.Related body body'
        → Related P (.binding pairs body) (.binding pairs' body')
  | lambda (params : List Symbol) (rest : Option Symbol) {body body' : Node}
      : P.Related body body' → Related P (.lambda params rest body) (.lambda params rest body')
  | expander (continuation : Symbol) (params : List Symbol) {body body' : Node}
      : P.Related body body'
        → Related P (.expander continuation params body) (.expander continuation params body')
  | quote {form form' : Value} (isSyntax : Bool)
      : form.Alike P form' → Related P (.quote form isSyntax) (.quote form' isSyntax)
  | vector {items items' : List Node}
      : List.Forall₂ P.Related items items' → Related P (.vector items) (.vector items')
  | list {items items' : List Node}
      : List.Forall₂ P.Related items items' → Related P (.list items) (.list items')
  | hashMap {items items' : List Node}
      : List.Forall₂ P.Related items items' → Related P (.hashMap items) (.hashMap items')
  | set {items items' : List Node}
      : List.Forall₂ P.Related items items' → Related P (.set items) (.set items')
  | invoke {target target' : Node} (member : Symbol) {args args' : List Node}
      : P.Related target target' → List.Forall₂ P.Related args args'
        → Related P (.invoke target member args) (.invoke target' member args')
  | invokeStatic (type : String) (member : Symbol) {args args' : List Node}
      : List.Forall₂ P.Related args args'
        → Related P (.invokeStatic type member args) (.invokeStatic type member args')
  | cast (type : String) {expr expr' : Node}
      : P.Related expr expr' → Related P (.cast type expr) (.cast type expr')
  | instanceOf {type type' expr expr' : Node}
      : P.Related type type' → P.Related expr expr'
        → Related P (.instanceOf type expr) (.instanceOf type' expr')

/-- Nodes that are alike are related. -/
theorem NodesAlike.related {ns ns' : List Node} (alike : NodesAlike P ns ns')
    : List.Forall₂ P.Related ns ns' :=
  (nodesAlike_iff_forall₂.mp alike).imp fun _ _ => .inl

/-- So are pairs of names and nodes. Witness: induction on the pairs. -/
theorem PairsAlike.related {ps ps' : List (Symbol × Node)} (alike : PairsAlike P ps ps')
    : List.Forall₂ P.PairRelated ps ps' := by
  induction ps generalizing ps' with
  | nil =>
      obtain rfl := alike
      exact .nil
  | cons pair rest ih =>
      obtain ⟨n', others, rfl, first, last⟩ := alike
      exact .cons ⟨rfl, .inl first⟩ (ih last)

/-- So are shapes, case by case. -/
theorem Shape.Alike.related {s s' : Shape} (alike : s.Alike P s')
    : Shape.Related P s s' := by
  cases s with
  | constant =>
      obtain ⟨_, rfl, same⟩ := alike
      exact .constant same
  | lookup =>
      obtain rfl := alike
      exact .lookup _
  | apply =>
      obtain ⟨_, _, rfl, callee, args⟩ := alike
      exact .apply (.inl callee) args.related
  | define =>
      obtain ⟨_, rfl, expr⟩ := alike
      exact .define _ expr
  | sequence =>
      obtain ⟨_, rfl, body⟩ := alike
      exact .sequence body.related
  | conditional =>
      obtain ⟨_, _, _, rfl, test, yes, no⟩ := alike
      exact .conditional (.inl test) (.inl yes) (.inl no)
  | binding =>
      obtain ⟨_, _, rfl, pairs, body⟩ := alike
      exact .binding pairs.related (.inl body)
  | lambda =>
      obtain ⟨_, rfl, body⟩ := alike
      exact .lambda _ _ (.inl body)
  | expander =>
      obtain ⟨_, rfl, body⟩ := alike
      exact .expander _ _ (.inl body)
  | quote =>
      obtain ⟨_, rfl, form⟩ := alike
      exact .quote _ form
  | vector =>
      obtain ⟨_, rfl, items⟩ := alike
      exact .vector items.related
  | list =>
      obtain ⟨_, rfl, items⟩ := alike
      exact .list items.related
  | hashMap =>
      obtain ⟨_, rfl, items⟩ := alike
      exact .hashMap items.related
  | set =>
      obtain ⟨_, rfl, items⟩ := alike
      exact .set items.related
  | invoke =>
      obtain ⟨_, _, rfl, target, args⟩ := alike
      exact .invoke _ (.inl target) args.related
  | invokeStatic =>
      obtain ⟨_, rfl, args⟩ := alike
      exact .invokeStatic _ _ args.related
  | cast =>
      obtain ⟨_, rfl, expr⟩ := alike
      exact .cast _ (.inl expr)
  | instanceOf =>
      obtain ⟨_, _, rfl, type, expr⟩ := alike
      exact .instanceOf (.inl type) (.inl expr)

/-- Nodes that are alike have shapes that are. -/
theorem Node.Alike.shape {n n' : Node} (alike : n.Alike P n')
    : n.shape.Alike P n'.shape := by
  obtain ⟨_, _, _, _⟩ := n
  exact alike.1

-----------------------------------------------------------------------------------------
-- Looking symbols up
-----------------------------------------------------------------------------------------

namespace Machine.Mirrored

open Run

variable {m : Machine} [m.Steady] (machines : m.Mirrored F P) {b b' : Bindings}

section Lookups

include machines

omit [m.Steady] in
/-- The values of related nodes mirror each other, as their ends do. -/
theorem compute {n n' : Node} (related : P.Related n n') (bindings : BindingsAlike P b b')
    (c : ContextId)
    : Run.Mirrored F P (Value.Alike P) (m.compute n c b) fun k => (ofLevels k).compute n' c b' :=
  (machines.eval c related bindings).bind fun ends => .pure ends.1

/-- So do the values of several nodes, one by one. -/
theorem computeAll {ns ns' : List Node} (related : List.Forall₂ P.Related ns ns')
    (bindings : BindingsAlike P b b') (c : ContextId)
    : Run.Mirrored F P (ValuesAlike P) (m.computeAll ns c b)
        fun k => (ofLevels k).computeAll ns' c b' := by
  have each := related.imp fun _ _ same => machines.compute same bindings c
  exact (Run.Mirrored.gather id each).imp valuesAlike_iff_forall₂.mpr

/-- Under wider bounds the namespace is constant, so that there is no failure to compute it. -/
theorem currentSpace (c : ContextId)
    : Run.Mirrored F P (fun space other => other = space) (m.currentSpace c)
        fun k => (ofLevels k).currentSpace c := by
  refine (Run.Mirrored.context c).andThen (fun _ => ?_) fun {here there} both => ?_
  · split
    · infer_instance
    · exact .andThen fun _ => by split <;> infer_instance
  obtain ⟨contexts, constant⟩ := both
  have both := contexts.slots Symbol.currentSpace
  generalize here.slots[Symbol.currentSpace]? = o, there.slots[Symbol.currentSpace]? = o'
    at both constant ⊢
  cases both with
  | none => exact .pure rfl
  | some slots =>
      refine (machines.force c slots).attempt (fun _ => by split <;> infer_instance)
        (fun results => ?_) ?_
      case refine_2 =>
        intro widens scope st e after _ failed
        have steady := Steady.constant (m := m) (constant widens _ rfl) c scope st e
        rw [failed] at steady
        exact absurd rfl steady
      cases results with
      | error => exact .pure rfl
      | @ok v w alike =>
          cases v with
          | list | vector | map | set | function | expander | node =>
              obtain ⟨_, rfl, _⟩ := alike
              exact .pure rfl
          | _ =>
              obtain rfl := alike
              exact .pure rfl

/-- Both sides qualify a symbol alike, since they find the same namespace. -/
theorem qualify (c : ContextId) (s : Symbol)
    : Run.Mirrored F P (fun t other => other = t) (m.qualify c s)
        fun k => (ofLevels k).qualify c s := by
  unfold Machine.qualify
  split
  · exact .pure rfl
  · exact (machines.currentSpace c).bind fun same => .pure (by rw [same])

/-- Both sides find slots that are alike, in contexts that are. -/
theorem slot? (c : ContextId) (s : Symbol)
    : Run.Mirrored F P (Option.Rel (Slot.Alike P)) (m.slot? c s) fun k =>
      (ofLevels k).slot? c s := by
  unfold Machine.slot?
  split
  · exact (Run.Mirrored.context c).bind fun contexts => .pure (contexts.1.slots s)
  · refine (machines.currentSpace c).bind fun {space other} same => ?_
    obtain rfl : other = space := same
    exact (Run.Mirrored.context c).bind fun contexts => .pure (contexts.1.slotIn? other s)

/-- They find values of a symbol that are alike, those of such slots. -/
theorem valueOf (c : ContextId) (s : Symbol)
    : Run.Mirrored F P (Value.Alike P) (m.valueOf c s) fun k => (ofLevels k).valueOf c s := by
  refine (machines.slot? c s).andThen (fun _ => by split <;> infer_instance) fun slots => ?_
  cases slots with
  | none => exact (machines.qualify c s).bind fun same => .fail (by rw [same]; rfl)
  | some slots => exact machines.force c slots

/-- They make the same context for a definition, of nodes and bindings that are alike. -/
theorem define {n n' : Node} (alike : n.Alike P n') (bindings : BindingsAlike P b b')
    (c : ContextId) (s : Symbol)
    : Run.Mirrored F P (fun d other => other = d) (m.define c s n b)
        fun k => (ofLevels k).define c s n' b' := by
  refine (machines.currentSpace c).andThen (fun _ => ⟨fun _ _ => Store.Step.grows (.define ..)⟩)
    fun {space other} same => ?_
  obtain rfl : other = space := same
  exact .modifyGet fun stores => stores.define alike bindings c other s

end Lookups

-----------------------------------------------------------------------------------------
-- Evaluating nodes
-----------------------------------------------------------------------------------------

include machines in
/-- Sequences of related nodes mirror each other. Witness: induction on the nodes. -/
theorem evalSequence {ns ns' : List Node} (related : List.Forall₂ P.Related ns ns')
    (bindings : BindingsAlike P b b') {last last' : Value} (ends : last.Alike P last')
    (c : ContextId)
    : Run.Mirrored F P (EndsAlike P) (m.evalSequence ns last c b)
        fun k => (ofLevels k).evalSequence ns' last' c b' := by
  induction related generalizing last last' c with
  | nil => exact .pure ⟨ends, rfl⟩
  | cons first _ ih =>
      refine ((machines.eval c first bindings).holdingOne ends).bind fun {x y} ends => ?_
      obtain ⟨v, d⟩ := x
      obtain ⟨w, d'⟩ := y
      obtain ⟨same, rfl⟩ : v.Alike P w ∧ d' = d := ends
      exact ih same d'

/-- (BoundAlike P x y) says that two evaluations of bindings left alike ones and the same context.
-/
def BoundAlike (P : Pass) (x y : Bindings × ContextId)
    : Prop :=
  BindingsAlike P x.1 y.1 ∧ y.2 = x.2

include machines in
/-- Bindings of related expressions mirror each other. Witness: induction on the pairs. -/
theorem evalPairs {ps ps' : List (Symbol × Node)} (related : List.Forall₂ P.PairRelated ps ps')
    {outer outer' : Bindings} (outside : BindingsAlike P outer outer')
    (bindings : BindingsAlike P b b') (c : ContextId)
    : Run.Mirrored F P (BoundAlike P) (m.evalPairs outer ps b c)
        fun k => (ofLevels k).evalPairs outer' ps' b' c := by
  induction related generalizing b b' c with
  | nil => exact .pure ⟨bindings, rfl⟩
  | @cons pair other _ _ first _ ih =>
      obtain ⟨s, n⟩ := pair
      obtain ⟨s', n'⟩ := other
      obtain ⟨rfl, same⟩ : s' = s ∧ P.Related n n' := first
      refine ((machines.eval c same outside).holdingBindings bindings).bind fun {x y} ends => ?_
      obtain ⟨v, d⟩ := x
      obtain ⟨w, d'⟩ := y
      obtain ⟨values, rfl⟩ : v.Alike P w ∧ d' = d := ends
      exact ih (bindings.insert s' values) d'

/-- Closures of related bodies are alike, over bindings that are. -/
theorem closureOf {body body' : Node} (related : P.Related body body')
    (bindings : BindingsAlike P b b') (params : List Symbol) (rest : Option Symbol) (c : ContextId)
    : Run.Mirrored F P (Closure.Alike P) (Machine.closureOf params rest body c b)
        fun _ => Machine.closureOf params rest body' c b' := by
  unfold Machine.closureOf
  refine Run.Mirrored.newIdentity.bind fun {i j} same => .pure ?_
  exact ⟨congrArg some same, rfl, rfl, related.stands bindings _, bindings.eraseAll _, rfl⟩

/-- So are the expanders of related bodies. -/
theorem userExpanderOf {body body' : Node} (related : P.Related body body')
    (bindings : BindingsAlike P b b') (continuation : Symbol) (params : List Symbol)
    : Run.Mirrored F P (UserExpander.Alike P) (Machine.userExpanderOf continuation params body b)
        fun _ => Machine.userExpanderOf continuation params body' b' := by
  unfold Machine.userExpanderOf
  refine Run.Mirrored.newIdentity.bind fun {i j} same => .pure ?_
  exact ⟨congrArg some same, rfl, rfl, related.stands bindings _, bindings.eraseAll _⟩

include machines in
/-- Evaluation of related shapes. Witness: by the shapes; the parts are evaluated alike. -/
theorem evalNode {n n' : Node} (related : Shape.Related P n.shape n'.shape)
    (bindings : BindingsAlike P b b') (c : ContextId)
    : Run.Mirrored F P (EndsAlike P) (m.evalNode n c b) fun k => (ofLevels k).evalNode n' c b' := by
  unfold Machine.evalNode
  generalize n.shape = s, n'.shape = s' at related ⊢
  cases related with
  | constant same => exact .pure ⟨same, rfl⟩
  | lookup s =>
      have bound := bindings.lexical? s
      dsimp only
      generalize b.lexical? s = o, b'.lexical? s = o' at bound ⊢
      cases bound with
      | none => exact (machines.valueOf c s).bind fun same => .pure ⟨same, rfl⟩
      | some same => exact .pure ⟨same, rfl⟩
  | apply callee args =>
      refine (machines.compute callee bindings c).bind fun callees => ?_
      refine ((machines.computeAll args bindings c).holdingOne callees).bind fun values => ?_
      exact (machines.call c callees values).bind fun same => .pure ⟨same, rfl⟩
  | define s expr =>
      exact (machines.define (expr.specialized bindings) bindings c s).bind fun same =>
        .pure ⟨rfl, same⟩
  | sequence body => exact machines.evalSequence body bindings (.refl P.exact .nil) c
  | conditional test yes no =>
      refine (machines.eval c test bindings).bind fun {x y} ends => ?_
      obtain ⟨v, d⟩ := x
      obtain ⟨w, d'⟩ := y
      obtain ⟨same, rfl⟩ : v.Alike P w ∧ d' = d := ends
      dsimp only
      rw [same.isTruthy_eq]
      refine Run.Mirrored.holdingOne same ?_
      split
      · exact machines.eval d' yes bindings
      · exact machines.eval d' no bindings
  | binding pairs body =>
      refine (machines.evalPairs pairs bindings bindings c).bind fun {x y} ends => ?_
      obtain ⟨inner, d⟩ := x
      obtain ⟨inner', d'⟩ := y
      obtain ⟨same, rfl⟩ : BindingsAlike P inner inner' ∧ d' = d := ends
      exact machines.eval d' body same
  | lambda params rest body =>
      exact (closureOf body bindings params rest c).bind fun same =>
        .pure ⟨⟨_, rfl, _, rfl, same⟩, rfl⟩
  | expander continuation params body =>
      exact (userExpanderOf body bindings continuation params).bind fun same =>
        .pure ⟨⟨_, rfl, _, rfl, same⟩, rfl⟩
  | quote _ form => exact .pure ⟨form, rfl⟩
  | vector items =>
      exact (machines.computeAll items bindings c).bind fun values =>
        .pure ⟨⟨_, rfl, values⟩, rfl⟩
  | list items =>
      exact (machines.computeAll items bindings c).bind fun values =>
        .pure ⟨⟨_, rfl, values⟩, rfl⟩
  | hashMap items =>
      refine (machines.computeAll items bindings c).andThen
        (fun _ => .andThen fun _ => by split <;> infer_instance) fun {vs ws} values => ?_
      rw [values.length_eq]
      refine (Run.Mirrored.arrangementIf _).andThen (fun _ => by split <;> infer_instance)
        fun {a a'} same => ?_
      obtain rfl : a' = a := same
      have built := mapOf_alike (a := a') values (.inr P.exact)
      have odd : (EvalError.call .oddHashMap).Alike P (.call .oddHashMap) := ⟨_, rfl, rfl⟩
      unfold mapOfItems?
      rw [values.length_eq]
      by_cases even : (vs.length % 2 == 0) = true
      · rw [if_pos even, if_pos even]
        exact .pure ⟨built, rfl⟩
      · rw [if_neg even, if_neg even]
        exact .fail odd
  | set items =>
      refine (machines.computeAll items bindings c).bind fun {vs ws} values => ?_
      rw [values.length_eq]
      refine (Run.Mirrored.arrangementIf _).bind fun {a a'} same => ?_
      obtain rfl : a' = a := same
      exact .pure ⟨setOf_alike values (.inr P.exact), rfl⟩
  | invoke member target args =>
      refine (machines.compute target bindings c).bind fun targets => ?_
      refine ((machines.computeAll args bindings c).holdingOne targets).bind fun values => ?_
      refine (Run.Mirrored.askHost fun host blind => ?_).bind fun same => .pure ⟨same, rfl⟩
      exact blind.invoke_alike P.exact targets member.name values
  | invokeStatic type member args =>
      refine (machines.computeAll args bindings c).bind fun values => ?_
      refine (Run.Mirrored.askHost fun host blind => ?_).bind fun same => .pure ⟨same, rfl⟩
      exact blind.invokeStatic_alike P.exact type member.name values
  | cast type expr =>
      refine (machines.compute expr bindings c).bind fun same => ?_
      refine Run.Mirrored.get.bind fun stores => ?_
      rw [stores.host]
      exact (Run.Mirrored.ofExcept (stores.blind.cast_alike P.exact type same)).bind fun values =>
        .pure ⟨values, rfl⟩
  | instanceOf type expr =>
      refine (machines.compute type bindings c).andThen (fun _ => by split <;> infer_instance)
        fun {v w} types => ?_
      have refused := wrongType_alike "type" types
      cases v with
      | type name =>
          obtain rfl := types
          refine (machines.compute expr bindings c).bind fun same => ?_
          refine Run.Mirrored.get.bind fun stores => .pure ⟨?_, rfl⟩
          rw [stores.host, stores.blind.isInstance_eq P.exact name same]
          exact .refl P.exact _
      | list | vector | map | set | function | expander | node =>
          obtain ⟨_, rfl, _⟩ := types
          exact .fail refused
      | _ =>
          obtain rfl := types
          exact .fail refused

end Machine.Mirrored

end IncrementalLisp
