import IncrementalLisp.Value.Equality

/-! Maps and sets of values, kept as lists without equal keys, in the order in which they hand their
items out. That order is no part of the language: every table has one of its own, whatever it
holds. So where a table puts a new item is a parameter, its arrangement. A table puts new items
among the others without moving these, and an equal key is replaced where it stands, together with
its value.
-/

namespace IncrementalLisp

/-- Where a table puts a new item, by the number of items that it holds already. Every position
after the last one means the end.
-/
abbrev Arrangement := Nat → Nat

/-- The arrangement of a table that hands its items out in the order in which they were put in. -/
def Arrangement.last : Arrangement :=
  id

/-- A list with the first item that is the same as a given one replaced by it, if there is one. -/
def replaced? {α : Type} (same : α → α → Bool) (x : α)
    : List α → Option (List α)
  | [] => none
  | y :: ys => if same y x then some (x :: ys) else (replaced? same x ys).map (y :: ·)

/-- A table with one more item: in the place of one that is the same, or where a new one goes. -/
def upsert {α : Type} (a : Arrangement) (same : α → α → Bool) (x : α) (items : List α)
    : List α :=
  let place := a items.length
  (replaced? same x items).getD (items.take place ++ x :: items.drop place)

namespace Value

variable (a : Arrangement)

/-- A set with one more item. -/
def insertItem (x : Value) (items : List Value)
    : List Value :=
  upsert a equal x items

/-- The items of a set, given in any number. -/
def distinct (items : List Value)
    : List Value :=
  items.foldl (fun set x => insertItem a x set) []

/-- A map with one more entry. -/
def insertEntry (key value : Value) (entries : List (Value × Value))
    : List (Value × Value) :=
  upsert a (fun e f => equal e.1 f.1) (key, value) entries

/-- The entries of a map, given in any number. -/
def distinctEntries (entries : List (Value × Value))
    : List (Value × Value) :=
  entries.foldl (fun map (k, v) => insertEntry a k v map) []

/-- The value of a key. -/
def entry? (entries : List (Value × Value)) (key : Value)
    : Option Value :=
  (entries.find? (·.1 == key)).map (·.2)

/-- A set value. -/
def setOf (items : List Value)
    : Value :=
  .set (distinct a items)

/-- A map value. -/
def mapOf (entries : List (Value × Value))
    : Value :=
  .map (distinctEntries a entries)

/-- A list cut into pairs; the last of an odd number of items is dropped. -/
def pairs {α : Type}
    : List α → List (α × α)
  | x :: y :: rest => (x, y) :: pairs rest
  | _ => []

/-- The items of a collection, in its order. Nil is the empty collection, a map's items are its
entries.
-/
def items? : Value → Option (List Value)
  | .nil => some []
  | .list items _ => some items
  | .vector items => some items
  | .set items => some items
  | .map entries => some (entries.map fun (k, v) => .vector [k, v])
  | _ => none

end Value

end IncrementalLisp
