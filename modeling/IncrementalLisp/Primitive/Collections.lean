import IncrementalLisp.Error
import IncrementalLisp.Value.Collection

/-! The primitives on collections. Nil counts as an empty collection wherever items are taken,
and a map as the vector pairs of its entries.
-/

namespace IncrementalLisp.Collections

/-- The items of a collection argument. -/
def itemsArg (v : Value)
    : Except Fault (List Value) :=
  match v.items? with
  | some items => .ok items
  | none => .error (.expected "a collection" v)

/-- An integer as a position. -/
def position? : Value → Option Nat
  | .int n => if 0 ≤ n.toInt then some n.toInt.toNat else none
  | _ => none

/-- The number of items, or of the characters of a text. -/
def countOf : Value → Except Fault Value
  | .string s => .ok (.int (.ofNat s.length))
  | v => do .ok (.int (.ofNat (← itemsArg v).length))

/-- The first item, or nil. -/
def firstOf (v : Value)
    : Except Fault Value := do
  .ok ((← itemsArg v).head?.getD .nil)

/-- The items after the first. -/
def restOf (v : Value)
    : Except Fault Value := do
  .ok (.listOf ((← itemsArg v).drop 1))

/-- The item at a position. -/
def itemAt (coll index : Value)
    : Except Fault Value := do
  let items ← itemsArg coll
  match index with
  | .int n =>
      match (position? (.int n)).bind (items[·]?) with
      | some item => .ok item
      | none => .error (.outOfCount (.int n) items.length)
  | v => .error (.indexNotLong v)

/-- A list with one more item in front. -/
def consOnto (item coll : Value)
    : Except Fault Value := do
  .ok (.listOf (item :: (← itemsArg coll)))

/-- A collection with one more item, where its kind adds items. -/
def conjoin (a : Arrangement) (coll item : Value)
    : Except Fault Value :=
  match coll with
  | .nil => .ok (.listOf [item])
  | .list items _ => .ok (.listOf (item :: items))
  | .vector items => .ok (.vector (items ++ [item]))
  | .set items => .ok (.set (Value.insertItem a item items))
  | .map entries =>
      match item.items? with
      | some [k, v] => .ok (.map (Value.insertEntry a k v entries))
      | _ => .error .notAnEntry
  | v => .error (.cannot "conj onto" v)

/-- A collection with more items. -/
def conjoinAll (a : Arrangement)
    : List Value → Except Fault Value
  | [] => .error (.tooFewArguments 1 0)
  | coll :: additions => additions.foldlM (conjoin a) coll

/-- The items of several collections in one list. -/
def concatenated (colls : List Value)
    : Except Fault Value := do
  .ok (.listOf (← colls.mapM itemsArg).flatten)

/-- What a collection holds under a key, or a default. -/
def valueAt (coll key default : Value)
    : Value :=
  let found? := match coll with
    | .map entries => Value.entry? entries key
    | .vector items => (position? key).bind (items[·]?)
    | .set items => if items.any (· == key) then some key else none
    | _ => none
  found?.getD default

/-- A look-up with two or three arguments. -/
def lookedUp : List Value → Except Fault Value
  | [coll, key] => .ok (valueAt coll key .nil)
  | [coll, key, default] => .ok (valueAt coll key default)
  | args => .error (.argumentCount 2 3 args.length)

/-- A map or a vector with a value under a key. The position after the last extends a vector. -/
def associated (a : Arrangement) (coll key value : Value)
    : Except Fault Value :=
  match coll with
  | .nil => .ok (.map [(key, value)])
  | .map entries => .ok (.map (Value.insertEntry a key value entries))
  | .vector items =>
      match position? key with
      | some i =>
          if i < items.length then .ok (.vector (items.set i value))
          else if i == items.length then .ok (.vector (items ++ [value]))
          else .error (.outOfCount key items.length)
      | none => .error (.outOfCount key items.length)
  | v => .error (.cannot "assoc into" v)

end IncrementalLisp.Collections
