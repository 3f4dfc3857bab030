import IncrementalLisp.Proofs.View.Primitive

/-! Values without their places. Every place in a value, of a form or of a node, also in captured
bindings and in the constants of programs, is made the same; what remains is whether there is
one. This is what a view sees of the value that sees no places but all captured values.
-/

namespace IncrementalLisp

/-- The place that stands for every other. -/
def Location.nowhere : Location := ⟨"", 0, 0⟩

/-- A place of which nothing is known but whether there is one. -/
def unplacedSource (source : Option Location)
    : Option Location :=
  source.map fun _ => .nowhere

mutual

/-- A value without its places. -/
def Value.unplaced : Value → Value
  | .nil => .nil
  | .bool b => .bool b
  | .int n => .int n
  | .float x => .float x
  | .char c => .char c
  | .string s => .string s
  | .symbol s => .symbol s
  | .keyword s => .keyword s
  | .list items source => .list (unplacedAll items) (unplacedSource source)
  | .vector items => .vector (unplacedAll items)
  | .map entries => .map (unplacedEntries entries)
  | .set items => .set (unplacedAll items)
  | .function f => .function f.unplaced
  | .expander e => .expander e.unplaced
  | .node n => .node n.unplaced
  | .type name => .type name
termination_by structural v => v

/-- A function without its places. -/
def Function.unplaced : Function → Function
  | .builtin p => .builtin p
  | .closure f => .closure f.unplaced
termination_by structural f => f

/-- A function written in the language, without its places. -/
def Closure.unplaced : Closure → Closure
  | ⟨identity, params, rest, body, captured, context⟩ =>
      ⟨identity, params, rest, body.unplaced, unplacedBindings captured, context⟩
termination_by structural f => f

/-- An expander without its places. -/
def Expander.unplaced : Expander → Expander
  | .initial remaining => .initial remaining
  | .form f => .form f
  | .ofUser u => .ofUser u.unplaced
  | .ofMacro m => .ofMacro m.unplaced
termination_by structural e => e

/-- A user's expander without its places. -/
def UserExpander.unplaced : UserExpander → UserExpander
  | ⟨identity, continuation, params, body, captured⟩ =>
      ⟨identity, continuation, params, body.unplaced, unplacedBindings captured⟩
termination_by structural u => u

/-- A macro without its places. -/
def Macro.unplaced : Macro → Macro
  | ⟨identity, function⟩ => ⟨identity, function.unplaced⟩
termination_by structural m => m

/-- A node without its places. -/
def Node.unplaced : Node → Node
  | ⟨shape, recorded, source, identity⟩ =>
      ⟨shape.unplaced, recorded, unplacedSource source, identity⟩
termination_by structural n => n

/-- A shape without the places in it. -/
def Shape.unplaced : Shape → Shape
  | .constant v => .constant v.unplaced
  | .lookup s => .lookup s
  | .apply f args => .apply f.unplaced (unplacedNodes args)
  | .define s expr => .define s expr.unplaced
  | .sequence body => .sequence (unplacedNodes body)
  | .conditional test yes no => .conditional test.unplaced yes.unplaced no.unplaced
  | .binding pairs body => .binding (unplacedPairs pairs) body.unplaced
  | .lambda params rest body => .lambda params rest body.unplaced
  | .expander continuation params body => .expander continuation params body.unplaced
  | .quote form isSyntax => .quote form.unplaced isSyntax
  | .vector items => .vector (unplacedNodes items)
  | .list items => .list (unplacedNodes items)
  | .hashMap items => .hashMap (unplacedNodes items)
  | .set items => .set (unplacedNodes items)
  | .invoke target member args => .invoke target.unplaced member (unplacedNodes args)
  | .invokeStatic type member args => .invokeStatic type member (unplacedNodes args)
  | .cast type expr => .cast type expr.unplaced
  | .instanceOf type expr => .instanceOf type.unplaced expr.unplaced
termination_by structural s => s

/-- Several values without their places. -/
def unplacedAll : List Value → List Value
  | [] => []
  | v :: rest => v.unplaced :: unplacedAll rest
termination_by structural vs => vs

/-- Entries whose keys and values are without their places. -/
def unplacedEntries : List (Value × Value) → List (Value × Value)
  | [] => []
  | (k, v) :: rest => (k.unplaced, v.unplaced) :: unplacedEntries rest
termination_by structural es => es

/-- Bindings to values without their places. -/
def unplacedBindings : List (Symbol × Value) → List (Symbol × Value)
  | [] => []
  | (s, v) :: rest => (s, v.unplaced) :: unplacedBindings rest
termination_by structural bs => bs

/-- Several nodes without their places. -/
def unplacedNodes : List Node → List Node
  | [] => []
  | n :: rest => n.unplaced :: unplacedNodes rest
termination_by structural ns => ns

/-- A list of bindings whose expressions are without their places. -/
def unplacedPairs : List (Symbol × Node) → List (Symbol × Node)
  | [] => []
  | (s, n) :: rest => (s, n.unplaced) :: unplacedPairs rest
termination_by structural ps => ps

end

/-- An entry without the places of its key and its value. -/
@[simp] def unplacedEntry (entry : Value × Value)
    : Value × Value :=
  (entry.1.unplaced, entry.2.unplaced)

/-- Several values lose their places one by one. Witness: induction on them. -/
@[simp] theorem unplacedAll_eq_map (vs : List Value)
    : unplacedAll vs = vs.map Value.unplaced := by
  induction vs with
  | nil => rfl
  | cons v rest ih => rw [unplacedAll, ih, List.map_cons]

/-- Entries lose the places of their keys and values. Witness: induction on them. -/
@[simp] theorem unplacedEntries_eq_map (es : List (Value × Value))
    : unplacedEntries es = es.map unplacedEntry := by
  induction es with
  | nil => rfl
  | cons e rest ih =>
      rw [unplacedEntries, ih]
      rfl

attribute [simp] Value.unplaced Function.unplaced Expander.unplaced Shape.unplaced

/-- A place becomes nowhere. -/
@[simp] theorem unplacedSource_some (place : Location)
    : unplacedSource (some place) = some .nowhere :=
  rfl

/-- To forget a place twice is to forget it once. -/
@[simp] theorem unplacedSource_unplacedSource (source : Option Location)
    : unplacedSource (unplacedSource source) = unplacedSource source := by
  cases source <;> rfl

-----------------------------------------------------------------------------------------
-- Nothing left to be taken away
-----------------------------------------------------------------------------------------

mutual

/-- Nothing is left to be taken away. Witness: induction on the value. -/
@[simp] theorem Value.unplaced_unplaced
    : ∀ v : Value, v.unplaced.unplaced = v.unplaced
  | .list items _ => by
      rw [Value.unplaced, Value.unplaced, unplacedAll_unplacedAll items,
        unplacedSource_unplacedSource]
  | .vector items => by simp only [Value.unplaced, unplacedAll_unplacedAll items]
  | .map entries => by simp only [Value.unplaced, unplacedEntries_unplacedEntries entries]
  | .set items => by simp only [Value.unplaced, unplacedAll_unplacedAll items]
  | .function f => by simp only [Value.unplaced, Function.unplaced_unplaced f]
  | .expander e => by simp only [Value.unplaced, Expander.unplaced_unplaced e]
  | .node n => by simp only [Value.unplaced, Node.unplaced_unplaced n]
  | .nil | .bool _ | .int _ | .float _ | .char _ | .string _ | .symbol _ | .keyword _
  | .type _ => rfl
termination_by structural v => v

/-- To forget the places of a function twice is to forget them once, by its kind. -/
@[simp] theorem Function.unplaced_unplaced
    : ∀ f : Function, f.unplaced.unplaced = f.unplaced
  | .builtin _ => rfl
  | .closure f => by simp only [Function.unplaced, Closure.unplaced_unplaced f]
termination_by structural f => f

/-- So it is for a closure, by its body and what it captured. -/
@[simp] theorem Closure.unplaced_unplaced
    : ∀ f : Closure, f.unplaced.unplaced = f.unplaced
  | ⟨_, _, _, body, captured, _⟩ => by
      simp only [Closure.unplaced, Node.unplaced_unplaced body,
        unplacedBindings_unplacedBindings captured]
termination_by structural f => f

/-- So it is for an expander, by its kind. -/
@[simp] theorem Expander.unplaced_unplaced
    : ∀ e : Expander, e.unplaced.unplaced = e.unplaced
  | .initial _ | .form _ => rfl
  | .ofUser u => by simp only [Expander.unplaced, UserExpander.unplaced_unplaced u]
  | .ofMacro m => by simp only [Expander.unplaced, Macro.unplaced_unplaced m]
termination_by structural e => e

/-- So it is for an expander of a user, by its body and what it captured. -/
@[simp] theorem UserExpander.unplaced_unplaced
    : ∀ u : UserExpander, u.unplaced.unplaced = u.unplaced
  | ⟨_, _, _, body, captured⟩ => by
      simp only [UserExpander.unplaced, Node.unplaced_unplaced body,
        unplacedBindings_unplacedBindings captured]
termination_by structural u => u

/-- So it is for a macro, by its function. -/
@[simp] theorem Macro.unplaced_unplaced
    : ∀ m : Macro, m.unplaced.unplaced = m.unplaced
  | ⟨_, function⟩ => by simp only [Macro.unplaced, Function.unplaced_unplaced function]
termination_by structural m => m

/-- So it is for a node, by its shape and its place. -/
@[simp] theorem Node.unplaced_unplaced
    : ∀ n : Node, n.unplaced.unplaced = n.unplaced
  | ⟨shape, _, _, _⟩ => by
      simp only [Node.unplaced, Shape.unplaced_unplaced shape, unplacedSource_unplacedSource]
termination_by structural n => n

/-- So it is for a shape, part by part. -/
@[simp] theorem Shape.unplaced_unplaced
    : ∀ s : Shape, s.unplaced.unplaced = s.unplaced
  | .constant v => by simp only [Shape.unplaced, Value.unplaced_unplaced v]
  | .lookup _ => rfl
  | .apply f args => by
      simp only [Shape.unplaced, Node.unplaced_unplaced f, unplacedNodes_unplacedNodes args]
  | .define _ expr => by simp only [Shape.unplaced, Node.unplaced_unplaced expr]
  | .sequence body => by simp only [Shape.unplaced, unplacedNodes_unplacedNodes body]
  | .conditional test yes no => by
      simp only [Shape.unplaced, Node.unplaced_unplaced test, Node.unplaced_unplaced yes,
        Node.unplaced_unplaced no]
  | .binding pairs body => by
      simp only [Shape.unplaced, unplacedPairs_unplacedPairs pairs, Node.unplaced_unplaced body]
  | .lambda _ _ body => by simp only [Shape.unplaced, Node.unplaced_unplaced body]
  | .expander _ _ body => by simp only [Shape.unplaced, Node.unplaced_unplaced body]
  | .quote form isSyntax => by simp only [Shape.unplaced, Value.unplaced_unplaced form]
  | .vector items => by simp only [Shape.unplaced, unplacedNodes_unplacedNodes items]
  | .list items => by simp only [Shape.unplaced, unplacedNodes_unplacedNodes items]
  | .hashMap items => by simp only [Shape.unplaced, unplacedNodes_unplacedNodes items]
  | .set items => by simp only [Shape.unplaced, unplacedNodes_unplacedNodes items]
  | .invoke target _ args => by
      simp only [Shape.unplaced, Node.unplaced_unplaced target, unplacedNodes_unplacedNodes args]
  | .invokeStatic _ _ args => by simp only [Shape.unplaced, unplacedNodes_unplacedNodes args]
  | .cast _ expr => by simp only [Shape.unplaced, Node.unplaced_unplaced expr]
  | .instanceOf type expr => by
      simp only [Shape.unplaced, Node.unplaced_unplaced type, Node.unplaced_unplaced expr]
termination_by structural s => s

/-- So it is for several values. -/
theorem unplacedAll_unplacedAll
    : ∀ vs : List Value, unplacedAll (unplacedAll vs) = unplacedAll vs
  | [] => rfl
  | v :: rest => by
      simp only [unplacedAll, Value.unplaced_unplaced v, unplacedAll_unplacedAll rest]
termination_by structural vs => vs

/-- So it is for entries. -/
theorem unplacedEntries_unplacedEntries
    : ∀ es : List (Value × Value), unplacedEntries (unplacedEntries es) = unplacedEntries es
  | [] => rfl
  | (k, v) :: rest => by
      simp only [unplacedEntries, Value.unplaced_unplaced k, Value.unplaced_unplaced v,
        unplacedEntries_unplacedEntries rest]
termination_by structural es => es

/-- So it is for bindings. -/
theorem unplacedBindings_unplacedBindings
    : ∀ bs : List (Symbol × Value),
        unplacedBindings (unplacedBindings bs) = unplacedBindings bs
  | [] => rfl
  | (_, v) :: rest => by
      simp only [unplacedBindings, Value.unplaced_unplaced v,
        unplacedBindings_unplacedBindings rest]
termination_by structural bs => bs

/-- So it is for several nodes. -/
theorem unplacedNodes_unplacedNodes
    : ∀ ns : List Node, unplacedNodes (unplacedNodes ns) = unplacedNodes ns
  | [] => rfl
  | n :: rest => by
      simp only [unplacedNodes, Node.unplaced_unplaced n, unplacedNodes_unplacedNodes rest]
termination_by structural ns => ns

/-- So it is for pairs. -/
theorem unplacedPairs_unplacedPairs
    : ∀ ps : List (Symbol × Node), unplacedPairs (unplacedPairs ps) = unplacedPairs ps
  | [] => rfl
  | (_, n) :: rest => by
      simp only [unplacedPairs, Node.unplaced_unplaced n, unplacedPairs_unplacedPairs rest]
termination_by structural ps => ps

end

-----------------------------------------------------------------------------------------
-- The view without places
-----------------------------------------------------------------------------------------

/-- The view that does not see places, but all captured values. -/
def View.placeless : View := ⟨false, none⟩

/-- The view without places sees a place as nowhere. -/
@[simp] theorem View.source_placeless (source : Option Location)
    : placeless.source source = unplacedSource source :=
  rfl

mutual

/-- What is seen of a value without places is the value without its places. Witness: induction on
the value.
-/
@[simp] theorem Value.seen_placeless
    : ∀ v : Value, v.seen .placeless = v.unplaced
  | .list items _ => by
      rw [Value.seen, Value.unplaced, seenAll_placeless items, View.source_placeless]
  | .vector items => by rw [Value.seen, Value.unplaced, seenAll_placeless items]
  | .map entries => by rw [Value.seen, Value.unplaced, seenEntries_placeless entries]
  | .set items => by rw [Value.seen, Value.unplaced, seenAll_placeless items]
  | .function f => by rw [Value.seen, Value.unplaced, Function.seen_placeless f]
  | .expander e => by rw [Value.seen, Value.unplaced, Expander.seen_placeless e]
  | .node n => by rw [Value.seen, Value.unplaced, Node.seen_placeless n]
  | .nil | .bool _ | .int _ | .float _ | .char _ | .string _ | .symbol _ | .keyword _
  | .type _ => rfl
termination_by structural v => v

/-- The view without places sees a function without its places, by its kind. -/
theorem Function.seen_placeless
    : ∀ f : Function, f.seen .placeless = f.unplaced
  | .builtin _ => rfl
  | .closure f => by rw [Function.seen, Function.unplaced, Closure.seen_placeless f]
termination_by structural f => f

/-- So it sees a closure, by its body and what it captured. -/
theorem Closure.seen_placeless
    : ∀ f : Closure, f.seen .placeless = f.unplaced
  | ⟨_, _, _, body, captured, _⟩ => by
      rw [Closure.seen, Closure.unplaced, Node.seen_placeless body,
        seenCaptured_placeless body.reads captured]
termination_by structural f => f

/-- So it sees an expander, by its kind. -/
theorem Expander.seen_placeless
    : ∀ e : Expander, e.seen .placeless = e.unplaced
  | .initial _ | .form _ => rfl
  | .ofUser u => by rw [Expander.seen, Expander.unplaced, UserExpander.seen_placeless u]
  | .ofMacro m => by rw [Expander.seen, Expander.unplaced, Macro.seen_placeless m]
termination_by structural e => e

/-- So it sees an expander of a user, by its body and what it captured. -/
theorem UserExpander.seen_placeless
    : ∀ u : UserExpander, u.seen .placeless = u.unplaced
  | ⟨_, _, _, body, captured⟩ => by
      rw [UserExpander.seen, UserExpander.unplaced, Node.seen_placeless body,
        seenCaptured_placeless body.reads captured]
termination_by structural u => u

/-- So it sees a macro, by its function. -/
theorem Macro.seen_placeless
    : ∀ m : Macro, m.seen .placeless = m.unplaced
  | ⟨_, function⟩ => by rw [Macro.seen, Macro.unplaced, Function.seen_placeless function]
termination_by structural m => m

/-- So it sees a node, by its shape and its place. -/
@[simp] theorem Node.seen_placeless
    : ∀ n : Node, n.seen .placeless = n.unplaced
  | ⟨shape, _, _, _⟩ => by
      rw [Node.seen, Node.unplaced, Shape.seen_placeless shape, View.source_placeless]
termination_by structural n => n

/-- So it sees a shape, part by part. -/
theorem Shape.seen_placeless
    : ∀ s : Shape, s.seen .placeless = s.unplaced
  | .constant v => by rw [Shape.seen, Shape.unplaced, Value.seen_placeless v]
  | .lookup _ => rfl
  | .apply f args => by
      rw [Shape.seen, Shape.unplaced, Node.seen_placeless f, seenNodes_placeless args]
  | .define _ expr => by rw [Shape.seen, Shape.unplaced, Node.seen_placeless expr]
  | .sequence body => by rw [Shape.seen, Shape.unplaced, seenNodes_placeless body]
  | .conditional test yes no => by
      rw [Shape.seen, Shape.unplaced, Node.seen_placeless test, Node.seen_placeless yes,
        Node.seen_placeless no]
  | .binding pairs body => by
      rw [Shape.seen, Shape.unplaced, seenPairs_placeless pairs, Node.seen_placeless body]
  | .lambda _ _ body => by rw [Shape.seen, Shape.unplaced, Node.seen_placeless body]
  | .expander _ _ body => by rw [Shape.seen, Shape.unplaced, Node.seen_placeless body]
  | .quote form _ => by rw [Shape.seen, Shape.unplaced, Value.seen_placeless form]
  | .vector items => by rw [Shape.seen, Shape.unplaced, seenNodes_placeless items]
  | .list items => by rw [Shape.seen, Shape.unplaced, seenNodes_placeless items]
  | .hashMap items => by rw [Shape.seen, Shape.unplaced, seenNodes_placeless items]
  | .set items => by rw [Shape.seen, Shape.unplaced, seenNodes_placeless items]
  | .invoke target _ args => by
      rw [Shape.seen, Shape.unplaced, Node.seen_placeless target, seenNodes_placeless args]
  | .invokeStatic _ _ args => by rw [Shape.seen, Shape.unplaced, seenNodes_placeless args]
  | .cast _ expr => by rw [Shape.seen, Shape.unplaced, Node.seen_placeless expr]
  | .instanceOf type expr => by
      rw [Shape.seen, Shape.unplaced, Node.seen_placeless type, Node.seen_placeless expr]
termination_by structural s => s

/-- So it sees several values. -/
theorem seenAll_placeless
    : ∀ vs : List Value, seenAll .placeless vs = unplacedAll vs
  | [] => rfl
  | v :: rest => by rw [seenAll, unplacedAll, Value.seen_placeless v, seenAll_placeless rest]
termination_by structural vs => vs

/-- So it sees entries. -/
theorem seenEntries_placeless
    : ∀ es : List (Value × Value), seenEntries .placeless es = unplacedEntries es
  | [] => rfl
  | (k, v) :: rest => by
      rw [seenEntries, unplacedEntries, Value.seen_placeless k, Value.seen_placeless v,
        seenEntries_placeless rest]
termination_by structural es => es

/-- No captured value is left out. -/
theorem seenCaptured_placeless
    : ∀ (reads : Symbol → Bool) (bs : List (Symbol × Value)),
        seenCaptured .placeless reads bs = unplacedBindings bs
  | _, [] => rfl
  | reads, (s, v) :: rest => by
      have seen : (reads s || !View.placeless.drops v) = true := Bool.or_true _
      rw [seenCaptured, unplacedBindings, if_pos seen, Value.seen_placeless v,
        seenCaptured_placeless reads rest]
termination_by structural _ bs => bs

/-- The view without places sees several nodes without theirs, one by one. -/
theorem seenNodes_placeless
    : ∀ ns : List Node, seenNodes .placeless ns = unplacedNodes ns
  | [] => rfl
  | n :: rest => by rw [seenNodes, unplacedNodes, Node.seen_placeless n, seenNodes_placeless rest]
termination_by structural ns => ns

/-- So it sees pairs. -/
theorem seenPairs_placeless
    : ∀ ps : List (Symbol × Node), seenPairs .placeless ps = unplacedPairs ps
  | [] => rfl
  | (_, n) :: rest => by
      rw [seenPairs, unplacedPairs, Node.seen_placeless n, seenPairs_placeless rest]
termination_by structural ps => ps

end

namespace Value

variable {a : Arrangement}

/-- Values without places are equal if the values are, as under any view. -/
@[simp] theorem beq_unplaced (v w : Value)
    : (v.unplaced == w.unplaced) = (v == w) := by
  rw [← seen_placeless, ← seen_placeless, beq_seen]

/-- A set of items without places is the set without its places. -/
@[simp] theorem setOf_unplaced (items : List Value)
    : setOf a (items.map unplaced) = (setOf a items).unplaced := by
  rw [← funext seen_placeless, setOf_seen]

/-- A map of entries without places is the map without its places. -/
@[simp] theorem mapOf_unplaced (entries : List (Value × Value))
    : mapOf a (entries.map unplacedEntry) = (mapOf a entries).unplaced := by
  have entry : unplacedEntry = seenEntry .placeless := by
    funext entry
    simp
  rw [entry, mapOf_seen, seen_placeless]

end Value

end IncrementalLisp
