import IncrementalLisp.Host.Basic
import IncrementalLisp.Number.Double
import IncrementalLisp.Text.Letter
import IncrementalLisp.Text.LetterCase
import IncrementalLisp.Value.Hash

/-! The types of the standard host: texts, numbers, characters, identifiers, collections, the
mathematical functions, and the root type that every value except nil belongs to.
-/

namespace IncrementalLisp.Host

/-- A text argument. -/
def textArg : Value → Except Fault String
  | .string s => .ok s
  | v => .error (.expected "string" v)

/-- An argument that counts characters or items. -/
def indexArg : Value → Except Fault Nat
  | .int n => if 0 ≤ n.toInt then .ok n.toInt.toNat else .error (.expectedIndex (.int n))
  | v => .error (.expectedIndex v)

/-- A number argument, as a float. -/
def numberArg : Value → Except Fault Number.Double
  | .int n => .ok (Number.ofInt n.toInt)
  | .float x => .ok x
  | v => .error (.expected "number" v)

/-- A character argument. -/
def charArg : Value → Except Fault Char
  | .char c => .ok c
  | v => .error (.expected "char" v)

/-- A symbol or keyword argument. -/
def identifierArg : Value → Except Fault Symbol
  | .symbol s => .ok s
  | .keyword s => .ok s
  | v => .error (.expected "identifier" v)

/-- A member of one argument, the target or the argument of a static member. -/
def unary (run : Value → Except Fault Value)
    : List Value → Except Fault Value
  | [a] => run a
  | args => .error (.argumentCount 1 1 args.length)

/-- A member of two arguments. -/
def binary (run : Value → Value → Except Fault Value)
    : List Value → Except Fault Value
  | [a, b] => run a b
  | args => .error (.argumentCount 2 2 args.length)

/-- A member of three arguments. -/
def ternary (run : Value → Value → Value → Except Fault Value)
    : List Value → Except Fault Value
  | [a, b, c] => run a b c
  | args => .error (.argumentCount 3 3 args.length)

/-- A number of items as a value. -/
def countValue (n : Nat)
    : Value :=
  .int (.ofNat n)

/-- Whether the first text starts the second. -/
def startsWith (part whole : List Char)
    : Bool :=
  part.isPrefixOf whole

/-- The number of characters before the first occurrence of a text in another. -/
def indexOf? (part : List Char)
    : List Char → Option Nat
  | [] => if part.isEmpty then some 0 else none
  | c :: rest =>
      if startsWith part (c :: rest) then some 0 else (indexOf? part rest).map (· + 1)

/-- The characters from a place up to another, or up to the end. -/
def substring (text : String) (start : Nat) (stop? : Option Nat)
    : Except Fault Value :=
  let chars := text.toList
  let stop := stop?.getD chars.length
  if start > stop ∨ stop > chars.length then .error (.rangeOutOfBounds start stop)
  else .ok (.string (String.ofList ((chars.take stop).drop start)))

/-- A test of one text against another. -/
def textTest (test : List Char → List Char → Bool) (target part : Value)
    : Except Fault Value := do
  let whole ← textArg target
  let part ← textArg part
  .ok (.bool (test part.toList whole.toList))

/-- Texts. -/
def stringType : HostType :=
  (HostType.plain "String" fun | .string _ => true | _ => false)
    |>.withInstance "length" (some 0) (unary fun a => do
      .ok (countValue (← textArg a).length))
    |>.withInstance "isEmpty" (some 0) (unary fun a => do .ok (.bool (← textArg a).isEmpty))
    |>.withInstance "toUpperCase" (some 0) (unary fun a => do
      .ok (.string (Text.toUpper (← textArg a))))
    |>.withInstance "toLowerCase" (some 0) (unary fun a => do
      .ok (.string (Text.toLower (← textArg a))))
    |>.withInstance "trim" (some 0) (unary fun a => do .ok (.string (Text.trim (← textArg a))))
    |>.withInstance "substring" (some 1) (binary fun a b => do
      substring (← textArg a) (← indexArg b) none)
    |>.withInstance "substring" (some 2) (ternary fun a b c => do
      let text ← textArg a
      let start ← indexArg b
      let stop ← indexArg c
      substring text start (some stop))
    |>.withInstance "charAt" (some 1) (binary fun a b => do
      let i ← indexArg b
      match (← textArg a).toList[i]? with
      | some c => .ok (.char c)
      | none => .error (.outOfBounds i))
    |>.withInstance "contains" (some 1)
      (binary (textTest fun part whole => (indexOf? part whole).isSome))
    |>.withInstance "startsWith" (some 1) (binary (textTest startsWith))
    |>.withInstance "endsWith" (some 1)
      (binary (textTest fun part whole => startsWith part.reverse whole.reverse))
    |>.withInstance "indexOf" (some 1) (binary fun a b => do
      let whole ← textArg a
      let part ← textArg b
      match indexOf? part.toList whole.toList with
      | some i => .ok (countValue i)
      | none => .ok (.int (-1)))
    |>.withInstance "concat" (some 1) (binary fun a b => do
      let first ← textArg a
      let second ← textArg b
      .ok (.string (first ++ second)))
    |>.withStatic "valueOf" (some 1) (unary fun a => .ok (.string a.text))

/-- An integer read from a text. -/
def parseLong (v : Value)
    : Except Fault Value := do
  match Number.readInteger (Text.trim (← textArg v)) with
  | .ok n => .ok (.int n)
  | .error fault => .error (.integer fault)

/-- Integers. -/
def longType : HostType :=
  (HostType.plain "Long" fun | .int _ => true | _ => false)
    |>.withInstance "doubleValue" (some 0) (unary fun a => do .ok (.float (← numberArg a)))
    |>.withStatic "parseLong" (some 1) (unary parseLong)
    |>.withStatic "valueOf" (some 1) (unary fun
      | .int n => .ok (.int n)
      | a => parseLong a)

/-- Floats. -/
def doubleType : HostType :=
  (HostType.plain "Double" fun | .float _ => true | _ => false)
    |>.withInstance "longValue" (some 0) (unary fun a => do
      .ok (.int (Number.toInt64 (← numberArg a))))
    |>.withInstance "isNaN" (some 0) (unary fun a => do
      .ok (.bool (Number.isNaN (← numberArg a))))
    |>.withStatic "parseDouble" (some 1) (unary fun a => do
      match Number.readFloat (Text.trim (← textArg a)) with
      | .ok x => .ok (.float x)
      | .error fault => .error (.float fault))

/-- Truth values. -/
def booleanType : HostType :=
  HostType.plain "Boolean" fun | .bool _ => true | _ => false

/-- Characters. -/
def characterType : HostType :=
  (HostType.plain "Character" fun | .char _ => true | _ => false)
    |>.withStatic "isDigit" (some 1) (unary fun a => do .ok (.bool (← charArg a).isDigit))
    |>.withStatic "isLetter" (some 1) (unary fun a => do
      .ok (.bool (Text.isLetter (← charArg a))))
    |>.withStatic "isWhitespace" (some 1) (unary fun a => do
      .ok (.bool (Text.isBlank (← charArg a))))

/-- Symbols or keywords. -/
def identifierType (name : String) (isInstance : Value → Bool)
    : HostType :=
  (HostType.plain name isInstance)
    |>.withInstance "getName" (some 0) (unary fun a => do
      .ok (.string (← identifierArg a).name))
    |>.withInstance "getNamespace" (some 0) (unary fun a => do
      match (← identifierArg a).qualifier with
      | some space => .ok (.string space)
      | none => .ok .nil)

/-- The number of items of a collection. -/
def size : Value → Except Fault Nat
  | .list items _ => .ok items.length
  | .vector items => .ok items.length
  | .map entries => .ok entries.length
  | .set items => .ok items.length
  | v => .error (.noSize v)

/-- A type with the members that tell the size of a collection. -/
def withSize (t : HostType)
    : HostType :=
  t |>.withInstance "size" (some 0) (unary fun a => do .ok (countValue (← size a)))
    |>.withInstance "isEmpty" (some 0) (unary fun a => do .ok (.bool ((← size a) == 0)))

/-- An item of a list or a vector. -/
def itemAt (target index : Value)
    : Except Fault Value := do
  let i ← indexArg index
  let items ← match target with
    | .list items _ => .ok items
    | .vector items => .ok items
    | v => .error (.notIndexed v)
  match items[i]? with
  | some item => .ok item
  | none => .error (.outOfBounds i)

/-- Lists or vectors. -/
def sequentialType (name : String) (isInstance : Value → Bool)
    : HostType :=
  withSize (HostType.plain name isInstance)
    |>.withInstance "get" (some 1) (binary itemAt)
    |>.withInstance "contains" (some 1) (binary fun a b =>
      .ok (.bool ((a.items?.getD []).any (· == b))))

/-- Maps. -/
def mapType : HostType :=
  withSize (HostType.plain "Map" fun | .map _ => true | _ => false)
    |>.withInstance "get" (some 1) (binary fun
      | .map entries, key => .ok ((Value.entry? entries key).getD .nil)
      | v, _ => .error (.expected "map" v))
    |>.withInstance "containsKey" (some 1) (binary fun
      | .map entries, key => .ok (.bool (Value.entry? entries key).isSome)
      | v, _ => .error (.expected "map" v))

/-- Sets. -/
def setType : HostType :=
  withSize (HostType.plain "Set" fun | .set _ => true | _ => false)
    |>.withInstance "contains" (some 1) (binary fun
      | .set items, item => .ok (.bool (items.any (· == item)))
      | v, _ => .error (.expected "set" v))

/-- One of two numbers. Both are compared as floats, also when they are integers. -/
def choose (firstWins : Number.Double → Number.Double → Bool) (a b : Value)
    : Except Fault Value :=
  match a, b with
  | .int m, .int n =>
      .ok (.int (if firstWins (Number.ofInt m.toInt) (Number.ofInt n.toInt) then m else n))
  | a, b => do
      let x ← numberArg a
      let y ← numberArg b
      .ok (.float (if firstWins x y then x else y))

/-- A function of one float. -/
def floatFunction (f : Number.Double → Number.Double)
    : List Value → Except Fault Value :=
  unary fun a => do .ok (.float (f (← numberArg a)))

/-- Mathematical functions. -/
def mathType : HostType :=
  (HostType.plain "Math" fun _ => false)
    |>.withStatic "abs" (some 1) (unary fun
      | .int n =>
          match Number.checked n.toInt.natAbs with
          | some m => .ok (.int m)
          | none => .error .overflow
      | a => do .ok (.float (← numberArg a).abs))
    |>.withStatic "max" (some 2) (binary (choose Number.Double.atLeast))
    |>.withStatic "min" (some 2) (binary (choose Number.Double.atMost))
    |>.withStatic "sqrt" (some 1) (floatFunction Number.Double.sqrt)
    |>.withStatic "pow" (some 2) (binary fun a b => do
      let x ← numberArg a
      let y ← numberArg b
      .ok (.float (x.pow y)))
    |>.withStatic "floor" (some 1) (floatFunction Number.Double.floor)
    |>.withStatic "ceil" (some 1) (floatFunction Number.Double.ceil)

/-- The root type, of which a hasher makes the hashes. -/
def objectType (digest : Digest)
    : HostType :=
  (HostType.plain rootType Value.isTruthy)
    |>.withInstance "toString" (some 0) (unary fun a => .ok (.string a.text))
    |>.withInstance "equals" (some 1) (binary fun a b => .ok (.bool (a == b)))
    |>.withInstance "hashCode" (some 0) (unary fun a => .ok (.int (a.hashCode digest)))

/-- The types of the standard host, in order. -/
def standardTypes (digest : Digest)
    : List HostType :=
  [stringType, longType, doubleType, booleanType, characterType,
    identifierType "Symbol" (fun | .symbol _ => true | _ => false),
    identifierType "Keyword" (fun | .keyword _ => true | _ => false),
    sequentialType "Vector" (fun | .vector _ => true | _ => false),
    sequentialType "List" (fun | .list _ _ => true | _ => false),
    mapType, setType, mathType, objectType digest]

/-- The standard host with a hasher. -/
def standard (digest : Digest := .mixing)
    : Host :=
  (standardTypes digest).foldl register empty

end IncrementalLisp.Host
