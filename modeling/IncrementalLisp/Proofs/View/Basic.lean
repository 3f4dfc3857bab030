import IncrementalLisp.Proofs.Node.Reads
import IncrementalLisp.Value.Contexts
import Mathlib.Data.List.Forall2

/-! Views of values: what can be told of a value, and what cannot. A view may leave out the places
of forms and nodes, of which it only tells whether there is one. And it may leave out captured
values that the body of a function or an expander does not read, as long as they refer to contexts
alone that are kept in any case. Two values look alike in a view if the same is seen of them; then
they are built alike, from parts that look alike.
-/

namespace IncrementalLisp

/-- A view of values: whether it sees places, and, if it does not see all captured values, the
contexts that an unread one it leaves out may refer to.
-/
structure View where
  places : Bool
  kept : Option (List ContextId)

namespace View

variable (V : View)

/-- What a view sees of a place. -/
def place (l : Location)
    : Location :=
  if V.places then l else ⟨"", 0, 0⟩

/-- What a view sees of a place that need not be known. -/
def source (source : Option Location)
    : Option Location :=
  source.map V.place

/-- The contexts to which unseen values may refer. -/
def absorbed : List ContextId :=
  V.kept.getD []

/-- Whether a view leaves out a captured value that is not read. -/
def drops (v : Value)
    : Bool :=
  match V.kept with
  | none => false
  | some kept => v.contexts.all kept.contains

end View

section Seen

variable (V : View)

mutual

/-- What a view sees of a value. -/
def Value.seen : Value → Value
  | .nil => .nil
  | .bool b => .bool b
  | .int n => .int n
  | .float x => .float x
  | .char c => .char c
  | .string s => .string s
  | .symbol s => .symbol s
  | .keyword s => .keyword s
  | .list items source => .list (seenAll items) (V.source source)
  | .vector items => .vector (seenAll items)
  | .map entries => .map (seenEntries entries)
  | .set items => .set (seenAll items)
  | .function f => .function f.seen
  | .expander e => .expander e.seen
  | .node n => .node n.seen
  | .type name => .type name
termination_by structural v => v

/-- What a view sees of a function. -/
def Function.seen : Function → Function
  | .builtin p => .builtin p
  | .closure f => .closure f.seen
termination_by structural f => f

/-- What a view sees of a function written in the language. -/
def Closure.seen : Closure → Closure
  | ⟨identity, params, rest, body, captured, context⟩ =>
      ⟨identity, params, rest, body.seen, seenCaptured body.reads captured, context⟩
termination_by structural f => f

/-- What a view sees of an expander. -/
def Expander.seen : Expander → Expander
  | .initial remaining => .initial remaining
  | .form f => .form f
  | .ofUser u => .ofUser u.seen
  | .ofMacro m => .ofMacro m.seen
termination_by structural e => e

/-- What a view sees of a user's expander. -/
def UserExpander.seen : UserExpander → UserExpander
  | ⟨identity, continuation, params, body, captured⟩ =>
      ⟨identity, continuation, params, body.seen, seenCaptured body.reads captured⟩
termination_by structural u => u

/-- What a view sees of a macro. -/
def Macro.seen : Macro → Macro
  | ⟨identity, function⟩ => ⟨identity, function.seen⟩
termination_by structural m => m

/-- What a view sees of a node. -/
def Node.seen : Node → Node
  | ⟨shape, recorded, source, identity⟩ => ⟨shape.seen, recorded, V.source source, identity⟩
termination_by structural n => n

/-- What a view sees of a shape. -/
def Shape.seen : Shape → Shape
  | .constant v => .constant v.seen
  | .lookup s => .lookup s
  | .apply f args => .apply f.seen (seenNodes args)
  | .define s expr => .define s expr.seen
  | .sequence body => .sequence (seenNodes body)
  | .conditional test yes no => .conditional test.seen yes.seen no.seen
  | .binding pairs body => .binding (seenPairs pairs) body.seen
  | .lambda params rest body => .lambda params rest body.seen
  | .expander continuation params body => .expander continuation params body.seen
  | .quote form isSyntax => .quote form.seen isSyntax
  | .vector items => .vector (seenNodes items)
  | .list items => .list (seenNodes items)
  | .hashMap items => .hashMap (seenNodes items)
  | .set items => .set (seenNodes items)
  | .invoke target member args => .invoke target.seen member (seenNodes args)
  | .invokeStatic type member args => .invokeStatic type member (seenNodes args)
  | .cast type expr => .cast type expr.seen
  | .instanceOf type expr => .instanceOf type.seen expr.seen
termination_by structural s => s

/-- What a view sees of several values. -/
def seenAll : List Value → List Value
  | [] => []
  | v :: rest => v.seen :: seenAll rest
termination_by structural vs => vs

/-- What a view sees of entries. -/
def seenEntries : List (Value × Value) → List (Value × Value)
  | [] => []
  | (k, v) :: rest => (k.seen, v.seen) :: seenEntries rest
termination_by structural es => es

/-- What a view sees of captured values, some names of which are read. -/
def seenCaptured : (Symbol → Bool) → List (Symbol × Value) → List (Symbol × Value)
  | _, [] => []
  | reads, (s, v) :: rest =>
      if reads s || !V.drops v then (s, v.seen) :: seenCaptured reads rest
      else seenCaptured reads rest
termination_by structural _ bs => bs

/-- What a view sees of several nodes. -/
def seenNodes : List Node → List Node
  | [] => []
  | n :: rest => n.seen :: seenNodes rest
termination_by structural ns => ns

/-- What a view sees of a list of bindings. -/
def seenPairs : List (Symbol × Node) → List (Symbol × Node)
  | [] => []
  | (s, n) :: rest => (s, n.seen) :: seenPairs rest
termination_by structural ps => ps

end

/-- What a view sees of an entry. -/
@[simp] def seenEntry (entry : Value × Value)
    : Value × Value :=
  (entry.1.seen V, entry.2.seen V)

/-- What a view sees of a binding. -/
@[simp] def seenBinding (binding : Symbol × Value)
    : Symbol × Value :=
  (binding.1, binding.2.seen V)

/-- What a view sees of a name with an expression. -/
@[simp] def seenPair (pair : Symbol × Node)
    : Symbol × Node :=
  (pair.1, pair.2.seen V)

/-- What a view sees of bindings, some names of which are read. -/
def Bindings.seen (reads : Symbol → Bool) (b : Bindings)
    : Bindings :=
  (b.filter fun entry => reads entry.1 || !V.drops entry.2).map (seenBinding V)

/-- Several values are seen one by one. Witness: induction on them. -/
@[simp] theorem seenAll_eq_map (vs : List Value)
    : seenAll V vs = vs.map (Value.seen V) := by
  induction vs with
  | nil => rfl
  | cons v rest ih => rw [seenAll, ih, List.map_cons]

/-- So are entries. Witness: induction on them. -/
@[simp] theorem seenEntries_eq_map (es : List (Value × Value))
    : seenEntries V es = es.map (seenEntry V) := by
  induction es with
  | nil => rfl
  | cons e rest ih =>
      rw [seenEntries, ih]
      rfl

/-- What was captured is seen as bindings are. Witness: induction on it. -/
@[simp] theorem seenCaptured_eq_seen (reads : Symbol → Bool) (bs : List (Symbol × Value))
    : seenCaptured V reads bs = Bindings.seen V reads bs := by
  unfold Bindings.seen
  induction bs with
  | nil => rfl
  | cons b rest ih =>
      rw [seenCaptured, ih, List.filter_cons]
      split <;> rfl

/-- Several nodes are seen one by one. Witness: induction on them. -/
@[simp] theorem seenNodes_eq_map (ns : List Node)
    : seenNodes V ns = ns.map (Node.seen V) := by
  induction ns with
  | nil => rfl
  | cons n rest ih => rw [seenNodes, ih, List.map_cons]

/-- So are pairs. Witness: induction on them. -/
@[simp] theorem seenPairs_eq_map (ps : List (Symbol × Node))
    : seenPairs V ps = ps.map (seenPair V) := by
  induction ps with
  | nil => rfl
  | cons p rest ih =>
      rw [seenPairs, ih]
      rfl

attribute [simp] Value.seen Function.seen Expander.seen Shape.seen

/-- No place is seen as none. -/
@[simp] theorem View.source_none
    : V.source none = none :=
  rfl

end Seen

section

variable {V : View}

-----------------------------------------------------------------------------------------
-- Parts of functions, expanders and nodes
-----------------------------------------------------------------------------------------

section Parts

variable (f : Closure) (u : UserExpander) (m : Macro) (n : Node)

/-- A closure is seen with its identity. -/
@[simp] theorem Closure.identity_seen
    : (f.seen V).identity = f.identity := by
  cases f
  rfl

/-- It is seen with its parameters. -/
@[simp] theorem Closure.params_seen
    : (f.seen V).params = f.params := by
  cases f
  rfl

/-- It is seen with its rest parameter. -/
@[simp] theorem Closure.rest_seen
    : (f.seen V).rest = f.rest := by
  cases f
  rfl

/-- Its body is seen. -/
@[simp] theorem Closure.body_seen
    : (f.seen V).body = f.body.seen V := by
  cases f
  rfl

/-- Of what it captured, what its body reads is seen. -/
@[simp] theorem Closure.captured_seen
    : (f.seen V).captured = Bindings.seen V f.body.reads f.captured := by
  cases f
  exact seenCaptured_eq_seen V _ _

/-- It is seen with its context. -/
@[simp] theorem Closure.context_seen
    : (f.seen V).context = f.context := by
  cases f
  rfl

/-- An expander of a user is seen with its identity. -/
@[simp] theorem UserExpander.identity_seen
    : (u.seen V).identity = u.identity := by
  cases u
  rfl

/-- It is seen with the name of its continuation. -/
@[simp] theorem UserExpander.continuation_seen
    : (u.seen V).continuation = u.continuation := by
  cases u
  rfl

/-- It is seen with its parameters. -/
@[simp] theorem UserExpander.params_seen
    : (u.seen V).params = u.params := by
  cases u
  rfl

/-- Its body is seen. -/
@[simp] theorem UserExpander.body_seen
    : (u.seen V).body = u.body.seen V := by
  cases u
  rfl

/-- Of what it captured, what its body reads is seen. -/
@[simp] theorem UserExpander.captured_seen
    : (u.seen V).captured = Bindings.seen V u.body.reads u.captured := by
  cases u
  exact seenCaptured_eq_seen V _ _

/-- A macro is seen with its identity. -/
@[simp] theorem Macro.identity_seen
    : (m.seen V).identity = m.identity := by
  cases m
  rfl

/-- Its function is seen. -/
@[simp] theorem Macro.function_seen
    : (m.seen V).function = m.function.seen V := by
  cases m
  rfl

/-- The shape of a node is seen. -/
@[simp] theorem Node.shape_seen
    : (n.seen V).shape = n.shape.seen V := by
  cases n
  rfl

/-- A node is seen with what it recorded. -/
@[simp] theorem Node.recorded_seen
    : (n.seen V).recorded = n.recorded := by
  cases n
  rfl

/-- Its place is seen. -/
@[simp] theorem Node.source_seen
    : (n.seen V).source = V.source n.source := by
  cases n
  rfl

/-- It is seen with its identity. -/
@[simp] theorem Node.identity_seen
    : (n.seen V).identity = n.identity := by
  cases n
  rfl

end Parts

-----------------------------------------------------------------------------------------
-- What a view always sees
-----------------------------------------------------------------------------------------

namespace Value

/-- The place of a value is seen, if it has one. -/
@[simp] theorem location?_seen (v : Value)
    : (v.seen V).location? = V.source v.location? := by
  cases v <;> rfl

/-- A value is seen with the name of its type. -/
@[simp] theorem typeName_seen (v : Value)
    : (v.seen V).typeName = v.typeName := by
  cases v <;> rfl

/-- It is seen to be true if it is. -/
@[simp] theorem isTruthy_seen (v : Value)
    : (v.seen V).isTruthy = v.isTruthy := by
  cases v <;> rfl

/-- It is seen to be a number if it is. -/
@[simp] theorem isNumber_seen (v : Value)
    : (v.seen V).isNumber = v.isNumber := by
  cases v <;> rfl

end Value

end

-----------------------------------------------------------------------------------------
-- What looks alike
-----------------------------------------------------------------------------------------

/-- Lists of which the same is seen have as many items, and of each the same is seen. -/
theorem forall₂_of_map_eq {α β γ : Type} {f : α → γ} {g : β → γ} {xs : List α} {ys : List β}
    (same : xs.map f = ys.map g)
    : List.Forall₂ (fun x y => f x = g y) xs ys := by
  rwa [← List.forall₂_eq_eq_eq, List.forall₂_map_left_iff, List.forall₂_map_right_iff] at same

/-- Lists that correspond under two functions have the same images. -/
theorem map_eq_of_forall₂ {α β γ : Type} {f : α → γ} {g : β → γ} {xs : List α} {ys : List β}
    (same : List.Forall₂ (fun x y => f x = g y) xs ys)
    : xs.map f = ys.map g := by
  rwa [← List.forall₂_eq_eq_eq, List.forall₂_map_left_iff, List.forall₂_map_right_iff]

/-- Of two options of which the same is seen, both are none, or the same is seen of their values. -/
theorem rel_of_map_eq {α β γ : Type} {f : α → γ} {g : β → γ} {o : Option α} {o' : Option β}
    (same : o.map f = o'.map g)
    : Option.Rel (fun x y => f x = g y) o o' := by
  cases o <;> cases o' <;> simp at same
  · exact .none
  · exact .some same

variable (V : View)

/-- Values that look alike, by how they are built. -/
inductive Value.LooksLike : Value → Value → Prop where
  | nil : LooksLike .nil .nil
  | bool (b : Bool) : LooksLike (.bool b) (.bool b)
  | int (n : Int64) : LooksLike (.int n) (.int n)
  | float (x : Number.Double) : LooksLike (.float x) (.float x)
  | char (c : Char) : LooksLike (.char c) (.char c)
  | string (s : String) : LooksLike (.string s) (.string s)
  | symbol (s : Symbol) : LooksLike (.symbol s) (.symbol s)
  | keyword (s : Symbol) : LooksLike (.keyword s) (.keyword s)
  | list {items items' : List Value} {source source' : Option Location}
      (same : items.map (seen V) = items'.map (seen V)) (place : V.source source = V.source source')
      : LooksLike (.list items source) (.list items' source')
  | vector {items items' : List Value} (same : items.map (seen V) = items'.map (seen V))
      : LooksLike (.vector items) (.vector items')
  | map {entries entries' : List (Value × Value)}
      (same : entries.map (seenEntry V) = entries'.map (seenEntry V))
      : LooksLike (.map entries) (.map entries')
  | set {items items' : List Value} (same : items.map (seen V) = items'.map (seen V))
      : LooksLike (.set items) (.set items')
  | function {f g : Function} (same : f.seen V = g.seen V) : LooksLike (.function f) (.function g)
  | expander {e e' : Expander} (same : e.seen V = e'.seen V)
      : LooksLike (.expander e) (.expander e')
  | node {n n' : Node} (same : n.seen V = n'.seen V) : LooksLike (.node n) (.node n')
  | type (name : String) : LooksLike (.type name) (.type name)

variable {V}

/-- Values that are seen alike look alike. Witness: by the kinds of both. -/
theorem Value.looksLike {v w : Value} (same : v.seen V = w.seen V)
    : LooksLike V v w := by
  cases v <;> cases w <;> simp at same
  case list.list => exact .list same.1 same.2
  case vector.vector => exact .vector same
  case map.map => exact .map same
  case set.set => exact .set same
  case function.function => exact .function same
  case expander.expander => exact .expander same
  case node.node => exact .node same
  all_goals
    subst_vars
    constructor

end IncrementalLisp
