import IncrementalLisp.Node.Basic
import IncrementalLisp.Value.Contexts

/-! Values and programs that are alike: the same but for the places of nodes and for what a
likeness lets differ, which may be identities, the contexts of functions, and the bodies of
functions and expanders. The contexts of two alike functions need only match on the names that a
call can look up in them.
-/

namespace IncrementalLisp

/-- A relation of contexts on some names. -/
abbrev Match := (Symbol → Prop) → ContextId → ContextId → Prop

/-- (n.Free b s) says that evaluation of the node under the bindings may look up the name in its
context.
-/
def Node.Free (n : Node) (b : Bindings) (s : Symbol)
    : Prop :=
  s ∈ n.dependencies ∧ b.lexical? s = none

/-- (f.Free s) says that a call of the function may look up the name in its context. -/
def Closure.Free (f : Closure) (s : Symbol)
    : Prop :=
  f.body.Free f.captured s ∧ s ∉ f.params ++ f.rest.toList

/-- What may differ between alike values: related identities, contexts that match on the names
looked up in them, bodies that stand for each other under their captured bindings, given the names
that a call binds, and related numbers of expansions that are left to the initial expander.
-/
structure Likeness where
  context : Match
  identity : Option Identity → Option Identity → Prop
  body : List Symbol → Bindings → Node → Bindings → Node → Prop
  count : Nat → Nat → Prop
  reflexive : ∀ i, identity i i
  counted : ∀ n, count n n

/-- The likeness that pays no attention to identities and lets no body stand for another. -/
def Match.likeness (M : Match)
    : Likeness :=
  ⟨M, fun _ _ => True, fun _ _ _ _ _ => False, fun n k => k = n, fun _ => trivial, fun _ => rfl⟩

instance : Coe Match Likeness := ⟨Match.likeness⟩

section Alike

variable (M : Likeness)

mutual

/-- Likeness of values. -/
def Value.Alike : Value → Value → Prop
  | .list items source, w => ∃ others, w = .list others source ∧ ValuesAlike items others
  | .vector items, w => ∃ others, w = .vector others ∧ ValuesAlike items others
  | .map entries, w => ∃ others, w = .map others ∧ EntriesAlike entries others
  | .set items, w => ∃ others, w = .set others ∧ ValuesAlike items others
  | .function f, w => ∃ g, w = .function g ∧ f.Alike g
  | .expander e, w => ∃ e', w = .expander e' ∧ e.Alike e'
  | .node n, w => ∃ n', w = .node n' ∧ n.Alike n'
  | v, w => w = v
termination_by structural v => v

/-- Likeness of functions. -/
def Function.Alike : Function → Function → Prop
  | .builtin p, g => g = .builtin p
  | .closure f, g => ∃ f', g = .closure f' ∧ f.Alike f'
termination_by structural f => f

/-- Likeness of functions written in the language, whose contexts match on their free names. -/
def Closure.Alike : Closure → Closure → Prop
  | ⟨identity, params, rest, body, captured, context⟩, g =>
      M.identity (some identity) (some g.identity) ∧ g.params = params ∧ g.rest = rest
        ∧ (body.Alike g.body ∨ M.body (params ++ rest.toList) captured body g.captured g.body)
        ∧ BindingsAlike captured g.captured
        ∧ M.context (Closure.Free ⟨identity, params, rest, body, captured, context⟩) context
            g.context
termination_by structural f => f

/-- Likeness of expanders. -/
def Expander.Alike : Expander → Expander → Prop
  | .initial remaining, e => ∃ other, e = .initial other ∧ M.count remaining other
  | .form f, e => e = .form f
  | .ofUser u, e => ∃ u', e = .ofUser u' ∧ u.Alike u'
  | .ofMacro m, e => ∃ m', e = .ofMacro m' ∧ m.Alike m'
termination_by structural e => e

/-- Likeness of users' expanders. -/
def UserExpander.Alike : UserExpander → UserExpander → Prop
  | ⟨identity, continuation, params, body, captured⟩, u =>
      M.identity (some identity) (some u.identity) ∧ u.continuation = continuation
        ∧ u.params = params
        ∧ (body.Alike u.body ∨ M.body (params ++ [continuation]) captured body u.captured u.body)
        ∧ BindingsAlike captured u.captured
termination_by structural u => u

/-- Likeness of macros. -/
def Macro.Alike : Macro → Macro → Prop
  | ⟨identity, function⟩, m =>
      M.identity (some identity) (some m.identity) ∧ function.Alike m.function
termination_by structural m => m

/-- Likeness of nodes, wherever they stand. -/
def Node.Alike : Node → Node → Prop
  | ⟨shape, recorded, _, identity⟩, n =>
      shape.Alike n.shape ∧ n.recorded = recorded ∧ M.identity identity n.identity
termination_by structural n => n

/-- Likeness of shapes, by that of their parts. -/
def Shape.Alike : Shape → Shape → Prop
  | .constant v, s => ∃ w, s = .constant w ∧ v.Alike w
  | .lookup name, s => s = .lookup name
  | .apply f args, s => ∃ g others, s = .apply g others ∧ f.Alike g ∧ NodesAlike args others
  | .define name expr, s => ∃ other, s = .define name other ∧ expr.Alike other
  | .sequence body, s => ∃ others, s = .sequence others ∧ NodesAlike body others
  | .conditional test yes no, s =>
      ∃ test' yes' no', s = .conditional test' yes' no'
        ∧ test.Alike test' ∧ yes.Alike yes' ∧ no.Alike no'
  | .binding pairs body, s =>
      ∃ others body', s = .binding others body' ∧ PairsAlike pairs others ∧ body.Alike body'
  | .lambda params rest body, s => ∃ body', s = .lambda params rest body' ∧ body.Alike body'
  | .expander continuation params body, s =>
      ∃ body', s = .expander continuation params body' ∧ body.Alike body'
  | .quote form isSyntax, s => ∃ form', s = .quote form' isSyntax ∧ form.Alike form'
  | .vector items, s => ∃ others, s = .vector others ∧ NodesAlike items others
  | .list items, s => ∃ others, s = .list others ∧ NodesAlike items others
  | .hashMap items, s => ∃ others, s = .hashMap others ∧ NodesAlike items others
  | .set items, s => ∃ others, s = .set others ∧ NodesAlike items others
  | .invoke target member args, s =>
      ∃ target' others, s = .invoke target' member others
        ∧ target.Alike target' ∧ NodesAlike args others
  | .invokeStatic type member args, s =>
      ∃ others, s = .invokeStatic type member others ∧ NodesAlike args others
  | .cast type expr, s => ∃ expr', s = .cast type expr' ∧ expr.Alike expr'
  | .instanceOf type expr, s =>
      ∃ type' expr', s = .instanceOf type' expr' ∧ type.Alike type' ∧ expr.Alike expr'
termination_by structural s => s

/-- Lists of alike values. -/
def ValuesAlike : List Value → List Value → Prop
  | [], ws => ws = []
  | v :: rest, ws => ∃ w others, ws = w :: others ∧ v.Alike w ∧ ValuesAlike rest others
termination_by structural vs => vs

/-- Lists of entries with alike keys and values. -/
def EntriesAlike : List (Value × Value) → List (Value × Value) → Prop
  | [], es => es = []
  | (k, v) :: rest, es =>
      ∃ k' v' others, es = (k', v') :: others ∧ k.Alike k' ∧ v.Alike v' ∧ EntriesAlike rest others
termination_by structural es => es

/-- Bindings of the same names to alike values. -/
def BindingsAlike : List (Symbol × Value) → List (Symbol × Value) → Prop
  | [], bs => bs = []
  | (s, v) :: rest, bs =>
      ∃ v' others, bs = (s, v') :: others ∧ v.Alike v' ∧ BindingsAlike rest others
termination_by structural bs => bs

/-- Lists of alike nodes. -/
def NodesAlike : List Node → List Node → Prop
  | [], ns => ns = []
  | n :: rest, ns => ∃ n' others, ns = n' :: others ∧ n.Alike n' ∧ NodesAlike rest others
termination_by structural ns => ns

/-- Pairs of the same names and alike nodes. -/
def PairsAlike : List (Symbol × Node) → List (Symbol × Node) → Prop
  | [], ps => ps = []
  | (s, n) :: rest, ps =>
      ∃ n' others, ps = (s, n') :: others ∧ n.Alike n' ∧ PairsAlike rest others
termination_by structural ps => ps

end

end Alike

-----------------------------------------------------------------------------------------
-- Wider matches
-----------------------------------------------------------------------------------------

section Mono

variable {M N : Likeness}

/-- (M.Within N) says that whatever is alike in the first likeness is so in the second. -/
structure Likeness.Within (M N : Likeness) : Prop where
  context : ∀ {names c d}, M.context names c d → N.context names c d
  identity : ∀ {i j}, M.identity i j → N.identity i j
  body : ∀ {names b n b' n'}, M.body names b n b' n' → N.body names b n b' n'
  count : ∀ {n k}, M.count n k → N.count n k

/-- A wider match of contexts gives a wider likeness. -/
theorem Match.within {M N : Match} (wider : ∀ {names c d}, M names c d → N names c d)
    : M.likeness.Within N.likeness :=
  ⟨wider, id, id, id⟩

mutual

/-- What is alike stays alike when more may differ. Witness: induction on the value. -/
theorem Value.Alike.mono (wider : M.Within N)
    : ∀ {v w : Value}, v.Alike M w → v.Alike N w
  | .list _ _, _, ⟨others, same, alike⟩ => ⟨others, same, ValuesAlike.mono wider alike⟩
  | .vector _, _, ⟨others, same, alike⟩ => ⟨others, same, ValuesAlike.mono wider alike⟩
  | .map _, _, ⟨others, same, alike⟩ => ⟨others, same, EntriesAlike.mono wider alike⟩
  | .set _, _, ⟨others, same, alike⟩ => ⟨others, same, ValuesAlike.mono wider alike⟩
  | .function _, _, ⟨g, same, alike⟩ => ⟨g, same, Function.Alike.mono wider alike⟩
  | .expander _, _, ⟨e, same, alike⟩ => ⟨e, same, Expander.Alike.mono wider alike⟩
  | .node _, _, ⟨n, same, alike⟩ => ⟨n, same, Node.Alike.mono wider alike⟩
  | .nil, _, same | .bool _, _, same | .int _, _, same | .float _, _, same | .char _, _, same
  | .string _, _, same | .symbol _, _, same | .keyword _, _, same | .type _, _, same => same
termination_by structural v => v

/-- Functions stay alike under a wider likeness, by their kind. -/
theorem Function.Alike.mono (wider : M.Within N)
    : ∀ {f g : Function}, f.Alike M g → f.Alike N g
  | .builtin _, _, same => same
  | .closure _, _, ⟨g, same, alike⟩ => ⟨g, same, Closure.Alike.mono wider alike⟩
termination_by structural f => f

/-- So do closures, by their bodies and what they captured. -/
theorem Closure.Alike.mono (wider : M.Within N)
    : ∀ {f g : Closure}, f.Alike M g → f.Alike N g
  | ⟨_, _, _, _, _, _⟩, _, ⟨identity, params, rest, body, captured, context⟩ =>
      ⟨wider.identity identity, params, rest, body.imp (Node.Alike.mono wider) wider.body,
        BindingsAlike.mono wider captured, wider.context context⟩
termination_by structural f => f

/-- So do expanders, by their kind. -/
theorem Expander.Alike.mono (wider : M.Within N)
    : ∀ {e e' : Expander}, e.Alike M e' → e.Alike N e'
  | .initial _, _, ⟨other, same, counts⟩ => ⟨other, same, wider.count counts⟩
  | .form _, _, same => same
  | .ofUser _, _, ⟨u, same, alike⟩ => ⟨u, same, UserExpander.Alike.mono wider alike⟩
  | .ofMacro _, _, ⟨m, same, alike⟩ => ⟨m, same, Macro.Alike.mono wider alike⟩
termination_by structural e => e

/-- So do expanders of users, by their bodies and what they captured. -/
theorem UserExpander.Alike.mono (wider : M.Within N)
    : ∀ {u u' : UserExpander}, u.Alike M u' → u.Alike N u'
  | ⟨_, _, _, _, _⟩, _, ⟨identity, continuation, params, body, captured⟩ =>
      ⟨wider.identity identity, continuation, params,
        body.imp (Node.Alike.mono wider) wider.body, BindingsAlike.mono wider captured⟩
termination_by structural u => u

/-- So do macros, by their functions. -/
theorem Macro.Alike.mono (wider : M.Within N)
    : ∀ {m m' : Macro}, m.Alike M m' → m.Alike N m'
  | ⟨_, _⟩, _, ⟨identity, alike⟩ => ⟨wider.identity identity, Function.Alike.mono wider alike⟩
termination_by structural m => m

/-- So do nodes, by their shapes. -/
theorem Node.Alike.mono (wider : M.Within N)
    : ∀ {n n' : Node}, n.Alike M n' → n.Alike N n'
  | ⟨_, _, _, _⟩, _, ⟨shape, recorded, identity⟩ =>
      ⟨Shape.Alike.mono wider shape, recorded, wider.identity identity⟩
termination_by structural n => n

/-- So do shapes, part by part. -/
theorem Shape.Alike.mono (wider : M.Within N)
    : ∀ {s s' : Shape}, s.Alike M s' → s.Alike N s'
  | .constant _, _, ⟨w, same, alike⟩ => ⟨w, same, Value.Alike.mono wider alike⟩
  | .lookup _, _, same => same
  | .apply _ _, _, ⟨g, others, same, alike, args⟩ =>
      ⟨g, others, same, Node.Alike.mono wider alike, NodesAlike.mono wider args⟩
  | .define _ _, _, ⟨other, same, alike⟩ => ⟨other, same, Node.Alike.mono wider alike⟩
  | .sequence _, _, ⟨others, same, alike⟩ => ⟨others, same, NodesAlike.mono wider alike⟩
  | .conditional _ _ _, _, ⟨test, yes, no, same, tests, yeses, noes⟩ =>
      ⟨test, yes, no, same, Node.Alike.mono wider tests, Node.Alike.mono wider yeses,
        Node.Alike.mono wider noes⟩
  | .binding _ _, _, ⟨others, body, same, pairs, bodies⟩ =>
      ⟨others, body, same, PairsAlike.mono wider pairs, Node.Alike.mono wider bodies⟩
  | .lambda _ _ _, _, ⟨body, same, alike⟩ => ⟨body, same, Node.Alike.mono wider alike⟩
  | .expander _ _ _, _, ⟨body, same, alike⟩ => ⟨body, same, Node.Alike.mono wider alike⟩
  | .quote _ _, _, ⟨form, same, alike⟩ => ⟨form, same, Value.Alike.mono wider alike⟩
  | .vector _, _, ⟨others, same, alike⟩ => ⟨others, same, NodesAlike.mono wider alike⟩
  | .list _, _, ⟨others, same, alike⟩ => ⟨others, same, NodesAlike.mono wider alike⟩
  | .hashMap _, _, ⟨others, same, alike⟩ => ⟨others, same, NodesAlike.mono wider alike⟩
  | .set _, _, ⟨others, same, alike⟩ => ⟨others, same, NodesAlike.mono wider alike⟩
  | .invoke _ _ _, _, ⟨target, others, same, alike, args⟩ =>
      ⟨target, others, same, Node.Alike.mono wider alike, NodesAlike.mono wider args⟩
  | .invokeStatic _ _ _, _, ⟨others, same, args⟩ => ⟨others, same, NodesAlike.mono wider args⟩
  | .cast _ _, _, ⟨expr, same, alike⟩ => ⟨expr, same, Node.Alike.mono wider alike⟩
  | .instanceOf _ _, _, ⟨type, expr, same, types, exprs⟩ =>
      ⟨type, expr, same, Node.Alike.mono wider types, Node.Alike.mono wider exprs⟩
termination_by structural s => s

/-- So do several values. -/
theorem ValuesAlike.mono (wider : M.Within N)
    : ∀ {vs ws : List Value}, ValuesAlike M vs ws → ValuesAlike N vs ws
  | [], _, same => same
  | _ :: _, _, ⟨w, others, same, first, rest⟩ =>
      ⟨w, others, same, Value.Alike.mono wider first, ValuesAlike.mono wider rest⟩
termination_by structural vs => vs

/-- So do entries. -/
theorem EntriesAlike.mono (wider : M.Within N)
    : ∀ {es es' : List (Value × Value)}, EntriesAlike M es es' → EntriesAlike N es es'
  | [], _, same => same
  | (_, _) :: _, _, ⟨k, v, others, same, key, value, rest⟩ =>
      ⟨k, v, others, same, Value.Alike.mono wider key, Value.Alike.mono wider value,
        EntriesAlike.mono wider rest⟩
termination_by structural es => es

/-- So do bindings. -/
theorem BindingsAlike.mono (wider : M.Within N)
    : ∀ {bs bs' : List (Symbol × Value)}, BindingsAlike M bs bs' → BindingsAlike N bs bs'
  | [], _, same => same
  | (_, _) :: _, _, ⟨v, others, same, first, rest⟩ =>
      ⟨v, others, same, Value.Alike.mono wider first, BindingsAlike.mono wider rest⟩
termination_by structural bs => bs

/-- So do several nodes. -/
theorem NodesAlike.mono (wider : M.Within N)
    : ∀ {ns ns' : List Node}, NodesAlike M ns ns' → NodesAlike N ns ns'
  | [], _, same => same
  | _ :: _, _, ⟨n, others, same, first, rest⟩ =>
      ⟨n, others, same, Node.Alike.mono wider first, NodesAlike.mono wider rest⟩
termination_by structural ns => ns

/-- So do pairs. -/
theorem PairsAlike.mono (wider : M.Within N)
    : ∀ {ps ps' : List (Symbol × Node)}, PairsAlike M ps ps' → PairsAlike N ps ps'
  | [], _, same => same
  | (_, _) :: _, _, ⟨n, others, same, first, rest⟩ =>
      ⟨n, others, same, Node.Alike.mono wider first, PairsAlike.mono wider rest⟩
termination_by structural ps => ps

end

end Mono

-----------------------------------------------------------------------------------------
-- Likeness of a value to itself
-----------------------------------------------------------------------------------------

section Self

variable {M : Likeness}

/-- (Fixed M contexts) says that each of the contexts matches itself on all names. -/
def Fixed (M : Likeness) (contexts : List ContextId)
    : Prop :=
  ∀ c ∈ contexts, ∀ names, M.context names c c

/-- Contexts in two lists are fixed if those of each are. -/
theorem fixed_append {first rest : List ContextId}
    : Fixed M (first ++ rest) ↔ Fixed M first ∧ Fixed M rest := by
  unfold Fixed
  simp only [List.mem_append, or_imp, forall_and]

/-- Contexts in a list are fixed if the first one and the others are. -/
theorem fixed_cons {c : ContextId} {rest : List ContextId}
    : Fixed M (c :: rest) ↔ (∀ names, M.context names c c) ∧ Fixed M rest := by
  unfold Fixed
  simp only [List.mem_cons, forall_eq_or_imp]

mutual

/-- A value is like itself when the contexts that it refers to match themselves. Witness:
induction on the value.
-/
theorem Value.Alike.self
    : ∀ {v : Value}, Fixed M v.contexts → v.Alike M v
  | .list items _, fixed => ⟨items, rfl, ValuesAlike.self fixed⟩
  | .vector items, fixed => ⟨items, rfl, ValuesAlike.self fixed⟩
  | .map entries, fixed => ⟨entries, rfl, EntriesAlike.self fixed⟩
  | .set items, fixed => ⟨items, rfl, ValuesAlike.self fixed⟩
  | .function f, fixed => ⟨f, rfl, Function.Alike.self fixed⟩
  | .expander e, fixed => ⟨e, rfl, Expander.Alike.self fixed⟩
  | .node n, fixed => ⟨n, rfl, Node.Alike.self fixed⟩
  | .nil, _ | .bool _, _ | .int _, _ | .float _, _ | .char _, _ | .string _, _ | .symbol _, _
  | .keyword _, _ | .type _, _ => rfl
termination_by structural v => v

/-- A function is like itself if it refers to fixed contexts alone, by its kind. -/
theorem Function.Alike.self
    : ∀ {f : Function}, Fixed M f.contexts → f.Alike M f
  | .builtin _, _ => rfl
  | .closure f, fixed => ⟨f, rfl, Closure.Alike.self fixed⟩
termination_by structural f => f

/-- So is a closure, by its body and what it captured. -/
theorem Closure.Alike.self
    : ∀ {f : Closure}, Fixed M f.contexts → f.Alike M f
  | ⟨_, _, _, _, _, _⟩, fixed =>
      have ⟨context, inner⟩ := fixed_cons.mp fixed
      have ⟨body, captured⟩ := fixed_append.mp inner
      ⟨M.reflexive _, rfl, rfl, .inl (Node.Alike.self body), BindingsAlike.self captured, context _⟩
termination_by structural f => f

/-- So is an expander, by its kind. -/
theorem Expander.Alike.self
    : ∀ {e : Expander}, Fixed M e.contexts → e.Alike M e
  | .initial n, _ => ⟨n, rfl, M.counted n⟩
  | .form _, _ => rfl
  | .ofUser u, fixed => ⟨u, rfl, UserExpander.Alike.self fixed⟩
  | .ofMacro m, fixed => ⟨m, rfl, Macro.Alike.self fixed⟩
termination_by structural e => e

/-- So is an expander of a user, by its body and what it captured. -/
theorem UserExpander.Alike.self
    : ∀ {u : UserExpander}, Fixed M u.contexts → u.Alike M u
  | ⟨_, _, _, _, _⟩, fixed =>
      have ⟨body, captured⟩ := fixed_append.mp fixed
      ⟨M.reflexive _, rfl, rfl, .inl (Node.Alike.self body), BindingsAlike.self captured⟩
termination_by structural u => u

/-- So is a macro, by its function. -/
theorem Macro.Alike.self
    : ∀ {m : Macro}, Fixed M m.contexts → m.Alike M m
  | ⟨_, _⟩, fixed => ⟨M.reflexive _, Function.Alike.self fixed⟩
termination_by structural m => m

/-- So is a node, by its shape. -/
theorem Node.Alike.self
    : ∀ {n : Node}, Fixed M n.contexts → n.Alike M n
  | ⟨_, _, _, _⟩, fixed => ⟨Shape.Alike.self fixed, rfl, M.reflexive _⟩
termination_by structural n => n

/-- So is a shape, part by part. -/
theorem Shape.Alike.self
    : ∀ {s : Shape}, Fixed M s.contexts → s.Alike M s
  | .constant v, fixed => ⟨v, rfl, Value.Alike.self fixed⟩
  | .lookup _, _ => rfl
  | .apply f args, fixed =>
      have ⟨callee, others⟩ := fixed_append.mp fixed
      ⟨f, args, rfl, Node.Alike.self callee, NodesAlike.self others⟩
  | .define _ expr, fixed => ⟨expr, rfl, Node.Alike.self fixed⟩
  | .sequence body, fixed => ⟨body, rfl, NodesAlike.self fixed⟩
  | .conditional test yes no, fixed =>
      have ⟨first, last⟩ := fixed_append.mp fixed
      have ⟨tests, yeses⟩ := fixed_append.mp first
      ⟨test, yes, no, rfl, Node.Alike.self tests, Node.Alike.self yeses, Node.Alike.self last⟩
  | .binding pairs body, fixed =>
      have ⟨first, last⟩ := fixed_append.mp fixed
      ⟨pairs, body, rfl, PairsAlike.self first, Node.Alike.self last⟩
  | .lambda _ _ body, fixed => ⟨body, rfl, Node.Alike.self fixed⟩
  | .expander _ _ body, fixed => ⟨body, rfl, Node.Alike.self fixed⟩
  | .quote form _, fixed => ⟨form, rfl, Value.Alike.self fixed⟩
  | .vector items, fixed => ⟨items, rfl, NodesAlike.self fixed⟩
  | .list items, fixed => ⟨items, rfl, NodesAlike.self fixed⟩
  | .hashMap items, fixed => ⟨items, rfl, NodesAlike.self fixed⟩
  | .set items, fixed => ⟨items, rfl, NodesAlike.self fixed⟩
  | .invoke target _ args, fixed =>
      have ⟨first, last⟩ := fixed_append.mp fixed
      ⟨target, args, rfl, Node.Alike.self first, NodesAlike.self last⟩
  | .invokeStatic _ _ args, fixed => ⟨args, rfl, NodesAlike.self fixed⟩
  | .cast _ expr, fixed => ⟨expr, rfl, Node.Alike.self fixed⟩
  | .instanceOf type expr, fixed =>
      have ⟨first, last⟩ := fixed_append.mp fixed
      ⟨type, expr, rfl, Node.Alike.self first, Node.Alike.self last⟩
termination_by structural s => s

/-- So are several values. -/
theorem ValuesAlike.self
    : ∀ {vs : List Value}, Fixed M (contextsOfAll vs) → ValuesAlike M vs vs
  | [], _ => rfl
  | v :: rest, fixed =>
      have ⟨first, last⟩ := fixed_append.mp fixed
      ⟨v, rest, rfl, Value.Alike.self first, ValuesAlike.self last⟩
termination_by structural vs => vs

/-- So are entries. -/
theorem EntriesAlike.self
    : ∀ {es : List (Value × Value)}, Fixed M (contextsOfEntries es) → EntriesAlike M es es
  | [], _ => rfl
  | (k, v) :: rest, fixed =>
      have ⟨first, last⟩ := fixed_append.mp fixed
      have ⟨key, value⟩ := fixed_append.mp first
      ⟨k, v, rest, rfl, Value.Alike.self key, Value.Alike.self value, EntriesAlike.self last⟩
termination_by structural es => es

/-- So are bindings. -/
theorem BindingsAlike.self
    : ∀ {bs : List (Symbol × Value)}, Fixed M (contextsOfBindings bs) → BindingsAlike M bs bs
  | [], _ => rfl
  | (_, v) :: rest, fixed =>
      have ⟨first, last⟩ := fixed_append.mp fixed
      ⟨v, rest, rfl, Value.Alike.self first, BindingsAlike.self last⟩
termination_by structural bs => bs

/-- So are several nodes. -/
theorem NodesAlike.self
    : ∀ {ns : List Node}, Fixed M (contextsOfNodes ns) → NodesAlike M ns ns
  | [], _ => rfl
  | n :: rest, fixed =>
      have ⟨first, last⟩ := fixed_append.mp fixed
      ⟨n, rest, rfl, Node.Alike.self first, NodesAlike.self last⟩
termination_by structural ns => ns

/-- So are pairs. -/
theorem PairsAlike.self
    : ∀ {ps : List (Symbol × Node)}, Fixed M (contextsOfPairs ps) → PairsAlike M ps ps
  | [], _ => rfl
  | (_, n) :: rest, fixed =>
      have ⟨first, last⟩ := fixed_append.mp fixed
      ⟨n, rest, rfl, Node.Alike.self first, PairsAlike.self last⟩
termination_by structural ps => ps

end

end Self

end IncrementalLisp
