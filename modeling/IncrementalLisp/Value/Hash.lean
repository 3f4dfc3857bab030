import IncrementalLisp.Value.Basic

/-! Hashing of values. What a hasher is fed with for a value agrees on equal values: lists and
vectors give the same words, places of forms give none, and the hashes of the entries of a map or
the items of a set are added up, so that their order does not matter. What the hasher makes of the
words is a parameter, because it is no part of the language, and because it depends on where the
objects lie that are hashed by their address.
-/

namespace IncrementalLisp

/-- What a hasher is fed with. -/
inductive HashWord where
  | tag (kind : Nat)
  | flag (b : Bool)
  | int (n : Int64)
  | bits (n : UInt64)
  | char (c : Char)
  | text (s : String)
  | symbol (s : Symbol)
  | size (n : Nat)
  | sum (n : UInt64)
  | primitive (p : Primitive)
  | form (f : Option SpecialForm)
  | object (identity : Option Identity)

/-- The hash that a hasher comes to when it has been fed with words. -/
abbrev Digest := List HashWord → UInt64

/-- A number for a word. -/
def HashWord.code : HashWord → UInt64
  | .tag kind => .ofNat kind
  | .flag b => if b then 1 else 0
  | .int n => n.toUInt64
  | .bits n => n
  | .char c => .ofNat c.toNat
  | .text s => hash s
  | .symbol s => mixHash (hash s.qualifier) (hash s.name)
  | .size n => .ofNat n
  | .sum n => n
  | .primitive p => .ofNat p.ctorIdx
  | .form f => hash (f.map SpecialForm.ctorIdx)
  | .object identity => hash identity

/-- A hasher that mixes the numbers of its words. -/
def Digest.mixing : Digest :=
  fun words => words.foldl (fun code w => mixHash code w.code) 7

/-- The words of a function. -/
def Function.hashWords : Function → List HashWord
  | .builtin p => [.primitive p]
  | .closure c => [.object c.identity]

/-- The words of an expander. -/
def Expander.hashWords : Expander → List HashWord
  | .initial _ => [.form none]
  | .form f => [.form f]
  | .ofUser u => [.object u.identity]
  | .ofMacro m => [.object m.identity]

namespace Value

section Words

variable (digest : Digest)

mutual

/-- The words of a value. -/
def hashWords : Value → List HashWord
  | .nil => [.tag 0]
  | .bool b => [.tag 1, .flag b]
  | .int n => [.tag 2, .int n]
  | .float x => [.tag 3, .bits x.bits]
  | .char c => [.tag 4, .char c]
  | .string s => [.tag 5, .text s]
  | .symbol s => [.tag 6, .symbol s]
  | .keyword s => [.tag 7, .symbol s]
  | .list items _ => .tag 8 :: .size items.length :: hashWordsOfAll items
  | .vector items => .tag 8 :: .size items.length :: hashWordsOfAll items
  | .map entries => [.tag 9, .size entries.length, .sum (sumOfEntries entries)]
  | .set items => [.tag 10, .size items.length, .sum (sumOfItems items)]
  | .function f => .tag 11 :: f.hashWords
  | .expander e => .tag 12 :: e.hashWords
  | .node n => [.tag 13, .object n.identity]
  | .type name => [.tag 14, .text name]
termination_by structural v => v

/-- The words of several values, in order. -/
def hashWordsOfAll : List Value → List HashWord
  | [] => []
  | v :: rest => hashWords v ++ hashWordsOfAll rest
termination_by structural vs => vs

/-- The sum of the hashes of several values. -/
def sumOfItems : List Value → UInt64
  | [] => 0
  | v :: rest => digest (hashWords v) + sumOfItems rest
termination_by structural vs => vs

/-- The sum of the hashes of several entries. -/
def sumOfEntries : List (Value × Value) → UInt64
  | [] => 0
  | (k, v) :: rest => digest (hashWords k ++ hashWords v) + sumOfEntries rest
termination_by structural es => es

end

/-- The hash of a value as an integer. -/
def hashCode (v : Value)
    : Int64 :=
  (digest (v.hashWords digest)).toInt64

end Words

end Value

end IncrementalLisp
