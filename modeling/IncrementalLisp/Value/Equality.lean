import IncrementalLisp.Value.Basic

/-! Equality of values. Lists and vectors with equal items are equal, wherever they were read.
Floats are equal when their bits are. Functions, expanders and nodes are equal when they are
the same object; all initial expanders count as one. Maps and sets are equal when each holds as
many items as the other and every item of the first occurs in the second.
-/

namespace IncrementalLisp

/-- Sameness of functions. -/
def Function.same : Function → Function → Bool
  | .builtin p, .builtin q => p == q
  | .closure c, .closure d => c.identity == d.identity
  | _, _ => false

/-- Sameness of expanders. -/
def Expander.same : Expander → Expander → Bool
  | .initial _, .initial _ => true
  | .form f, .form g => f == g
  | .ofUser u, .ofUser v => u.identity == v.identity
  | .ofMacro m, .ofMacro k => m.identity == k.identity
  | _, _ => false

/-- Sameness of nodes that have been values. -/
def Node.same (n m : Node)
    : Bool :=
  n.identity == m.identity

namespace Value

mutual

/-- Equality of values. -/
def equal : Value → Value → Bool
  | .nil, .nil => true
  | .bool a, .bool b => a == b
  | .int a, .int b => a == b
  | .float a, .float b => a == b
  | .char a, .char b => a == b
  | .string a, .string b => a == b
  | .symbol a, .symbol b => a == b
  | .keyword a, .keyword b => a == b
  | .list a _, .list b _ => equalAll a b
  | .list a _, .vector b => equalAll a b
  | .vector a, .list b _ => equalAll a b
  | .vector a, .vector b => equalAll a b
  | .map a, .map b => a.length == b.length && entriesWithin a b
  | .set a, .set b => a.length == b.length && itemsWithin a b
  | .function a, .function b => a.same b
  | .expander a, .expander b => a.same b
  | .node a, .node b => a.same b
  | .type a, .type b => a == b
  | _, _ => false
termination_by structural a => a

/-- Equality item by item. -/
def equalAll : List Value → List Value → Bool
  | [], [] => true
  | x :: xs, y :: ys => equal x y && equalAll xs ys
  | _, _ => false
termination_by structural xs => xs

/-- Whether every item of the first list equals one of the second. -/
def itemsWithin : List Value → List Value → Bool
  | [], _ => true
  | x :: xs, ys => ys.any (equal x) && itemsWithin xs ys
termination_by structural xs => xs

/-- Whether every entry of the first list equals one of the second. -/
def entriesWithin : List (Value × Value) → List (Value × Value) → Bool
  | [], _ => true
  | (k, v) :: xs, ys => ys.any (fun (k', v') => equal k k' && equal v v') && entriesWithin xs ys
termination_by structural xs => xs

end

instance : BEq Value := ⟨equal⟩

end Value

end IncrementalLisp
