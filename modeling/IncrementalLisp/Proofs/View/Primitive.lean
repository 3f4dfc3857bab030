import IncrementalLisp.Primitive.Compute
import IncrementalLisp.Proofs.Value.Equality
import IncrementalLisp.Proofs.View.Error

/-! Primitives do not look beyond a view: what a primitive computes of what is seen of values is
what is seen of what it computes of them; and if it refuses the ones, it refuses the others for
the same reason.
-/

namespace IncrementalLisp

open Value (seen)

variable {V : View}

-----------------------------------------------------------------------------------------
-- Maps and sets
-----------------------------------------------------------------------------------------

namespace Value

variable {a : Arrangement}

/-- A set with one more item is seen item by item, since equality is seen as it is. -/
theorem insertItem_seen (v : Value) (items : List Value)
    : insertItem a (v.seen V) (items.map (seen V)) = (insertItem a v items).map (seen V) :=
  insertItem_map beq_seen v items

/-- A map with one more entry is seen entry by entry. -/
theorem insertEntry_seen (k v : Value) (entries : List (Value × Value))
    : insertEntry a (k.seen V) (v.seen V) (entries.map (seenEntry V))
      = (insertEntry a k v entries).map (seenEntry V) :=
  insertEntry_map beq_seen k v entries

/-- Distinct items are seen as the distinct ones that are seen. -/
theorem distinct_seen (items : List Value)
    : distinct a (items.map (seen V)) = (distinct a items).map (seen V) :=
  distinct_map beq_seen items

/-- So are distinct entries. -/
theorem distinctEntries_seen (entries : List (Value × Value))
    : distinctEntries a (entries.map (seenEntry V))
      = (distinctEntries a entries).map (seenEntry V) :=
  distinctEntries_map beq_seen entries

/-- A set is seen as the set of its items as they are seen. -/
@[simp] theorem setOf_seen (items : List Value)
    : setOf a (items.map (seen V)) = (setOf a items).seen V := by
  simp [setOf, distinct_seen]

/-- A map is seen as that of its entries. -/
@[simp] theorem mapOf_seen (entries : List (Value × Value))
    : mapOf a (entries.map (seenEntry V)) = (mapOf a entries).seen V := by
  simp [mapOf, distinctEntries_seen]

/-- The value of a key is found in entries as they are seen. Witness: induction on the entries. -/
theorem entry?_seen (entries : List (Value × Value)) (key : Value)
    : entry? (entries.map (seenEntry V)) (key.seen V)
      = Option.map (seen V) ( entry? entries key) := by
  unfold entry?
  induction entries with
  | nil => rfl
  | cons entry rest ih =>
      simp only [List.map_cons, List.find?_cons, seenEntry, beq_seen]
      split
      · rfl
      · exact ih

/-- Alternating keys and values are seen entry by entry. -/
theorem pairs_seen (items : List Value)
    : pairs (items.map (seen V)) = (pairs items).map (seenEntry V) :=
  pairs_map (seen V) items

/-- A collection is seen with its items as they are seen, by its kind. -/
@[simp] theorem items?_seen (v : Value)
    : (v.seen V).items? = v.items?.map (List.map (seen V)) := by
  cases v <;> simp [items?]

/-- An item is seen to be among others if it is. -/
@[simp] theorem any_beq_seen (v : Value) (items : List Value)
    : (items.map (seen V)).any (· == v.seen V) = items.any (· == v) := by
  simp [List.any_map, Function.comp_def]

end Value

-----------------------------------------------------------------------------------------
-- Numbers
-----------------------------------------------------------------------------------------

namespace Arithmetic

/-- A number is seen as itself, and any other argument as none. -/
theorem numberArg_seen (v : Value)
    : numberArg (v.seen V) = seenResult V (numberArg v) := by
  unfold numberArg
  rw [Value.isNumber_seen]
  split <;> rfl

/-- A number is seen as the float that it is. -/
theorem asFloat_seen (v : Value)
    : asFloat (v.seen V) = asFloat v := by
  cases v <;> rfl

/-- An integer result is seen as itself. -/
theorem integerResult_seen (n : Int)
    : integerResult n = seenResult V (integerResult n) := by
  unfold integerResult
  split <;> rfl

/-- A quotient of floats is seen as itself. -/
theorem quotientOfFloats_seen (x y : Number.Double)
    : quotientOfFloats x y = seenResult V (quotientOfFloats x y) := by
  unfold quotientOfFloats
  split <;> rfl

/-- A computed number is seen as itself, by the numbers that the arguments are. -/
theorem numeric_seen (onIntegers : Int → Int → Int)
    (onFloats : Number.Double → Number.Double → Number.Double) (a b : Value)
    : numeric onIntegers onFloats (a.seen V) (b.seen V)
      = seenResult V (numeric onIntegers onFloats a b) := by
  refine seenAnswer_bind (numberArg_seen a) fun v => ?_
  refine seenAnswer_bind (numberArg_seen b) fun w => ?_
  cases v with
  | int m =>
      cases w with
      | int n => exact integerResult_seen _
      | _ => rfl
  | _ => exact congrArg (fun y => Except.ok (Value.float (onFloats _ y))) (asFloat_seen w)

/-- So is a quotient. -/
theorem dividedBy_seen (a b : Value)
    : dividedBy (a.seen V) (b.seen V) = seenResult V (dividedBy a b) := by
  refine seenAnswer_bind (numberArg_seen a) fun v => ?_
  refine seenAnswer_bind (numberArg_seen b) fun w => ?_
  have byInteger (x : Number.Double) (y : Int64)
      : (if y == 0 then (.error .divisionByZero : Except Fault Value)
          else quotientOfFloats x (Number.ofInt y.toInt))
        = seenResult V (if y == 0 then .error .divisionByZero
          else quotientOfFloats x (Number.ofInt y.toInt)) := by
    split
    · rfl
    · exact quotientOfFloats_seen _ _
  cases v with
  | int m =>
      cases w with
      | int n =>
          dsimp only [seen]
          split
          · rfl
          · split
            · rfl
            · exact quotientOfFloats_seen _ _
      | _ => exact quotientOfFloats_seen _ _
  | _ =>
      cases w with
      | int n => exact byInteger _ n
      | _ => exact quotientOfFloats_seen _ _

/-- A folded operation is seen to answer as it does if each step is. -/
theorem folded_seen {op : Value → Value → Except Fault Value}
    (each : ∀ a b, op (a.seen V) (b.seen V) = seenResult V (op a b)) (args : List Value)
    : folded op (args.map (seen V)) = seenResult V (folded op args) := by
  cases args with
  | nil => rfl
  | cons first rest =>
      exact seenAnswer_bind (numberArg_seen first) fun start =>
        seenAnswer_foldlM each rest start

/-- A sum is seen as itself. -/
theorem sum_seen (args : List Value)
    : sum (args.map (seen V)) = seenResult V (sum args) := by
  cases args with
  | nil => rfl
  | cons first rest => exact folded_seen (numeric_seen _ _) (first :: rest)

/-- So is a product. -/
theorem product_seen (args : List Value)
    : product (args.map (seen V)) = seenResult V (product args) := by
  cases args with
  | nil => rfl
  | cons first rest => exact folded_seen (numeric_seen _ _) (first :: rest)

/-- So is a difference, of one argument or of several. -/
theorem difference_seen (args : List Value)
    : difference (args.map (seen V)) = seenResult V (difference args) := by
  rcases args with _ | ⟨only, _ | ⟨second, rest⟩⟩
  · rfl
  · exact numeric_seen _ _ (.int 0) only
  · exact folded_seen (numeric_seen _ _) (only :: second :: rest)

/-- So is a quotient of all arguments, of one or of several. -/
theorem quotient_seen (args : List Value)
    : quotient (args.map (seen V)) = seenResult V (quotient args) := by
  rcases args with _ | ⟨only, _ | ⟨second, rest⟩⟩
  · rfl
  · exact dividedBy_seen (.int 1) only
  · exact folded_seen dividedBy_seen (only :: second :: rest)

/-- Values are seen to be equivalent if they are, by their kinds. -/
theorem equivalent_seen (a b : Value)
    : equivalent (a.seen V) (b.seen V) = equivalent a b := by
  cases a with
  | int =>
      cases b with
      | float => rfl
      | _ => exact Value.beq_seen (.int _) _
  | float =>
      cases b with
      | int => rfl
      | _ => exact Value.beq_seen (.float _) _
  | _ => exact Value.beq_seen _ b

/-- A chained test is seen to hold if it does. Witness: induction on the arguments. -/
theorem chained_seen {test : Value → Value → Bool}
    (each : ∀ a b, test (a.seen V) (b.seen V) = test a b) (args : List Value)
    : chained test (args.map (seen V)) = chained test args := by
  induction args with
  | nil => rfl
  | cons a rest ih =>
      cases rest with
      | nil => rfl
      | cons b rest =>
          simp only [List.map_cons, chained, each] at ih ⊢
          rw [ih]

/-- A truth is seen as itself. -/
theorem truth_seen (condition : Bool)
    : (Value.truth condition).seen V = Value.truth condition := by
  cases condition <;> rfl

/-- So is the equality of all arguments, which needs one at least. -/
theorem allEqual_seen (args : List Value)
    : allEqual (args.map (seen V)) = seenResult V (allEqual args) := by
  cases args with
  | nil => rfl
  | cons first rest =>
      have same := chained_seen (equivalent_seen (V := V)) (first :: rest)
      simp only [List.map_cons] at same
      simp only [List.map_cons, allEqual, same, seenAnswer, truth_seen]

/-- So is the order of two floats. -/
theorem orderOfFloats_seen (x y : Number.Double)
    : orderOfFloats x y = seenAnswer V id (orderOfFloats x y) := by
  unfold orderOfFloats
  split <;> rfl

/-- So is the order of two numbers. -/
theorem order_seen (a b : Value)
    : order (a.seen V) (b.seen V) = seenAnswer V id (order a b) := by
  refine seenAnswer_bind (numberArg_seen a) fun v => ?_
  refine seenAnswer_bind (numberArg_seen b) fun w => ?_
  cases v with
  | int m =>
      cases w with
      | int n => rfl
      | _ => exact orderOfFloats_seen _ _
  | _ =>
      exact (congrArg (orderOfFloats _) (asFloat_seen w)).trans (orderOfFloats_seen _ _)

/-- So is a chain of comparisons. Witness: induction on the arguments. -/
theorem compareChain_seen (holds : Ordering → Bool) (args : List Value)
    : compareChain holds (args.map (seen V)) = seenResult V (compareChain holds args) := by
  induction args with
  | nil => rfl
  | cons a rest ih =>
      cases rest with
      | nil => rfl
      | cons b rest =>
          refine seenAnswer_bind (order_seen a b) fun order => ?_
          dsimp only [id]
          split
          · exact ih
          · rfl

/-- So is an ordering of arguments, which needs one at least. -/
theorem ordered_seen (holds : Ordering → Bool) (args : List Value)
    : ordered holds (args.map (seen V)) = seenResult V (ordered holds args) := by
  rcases args with _ | ⟨only, _ | ⟨second, rest⟩⟩
  · rfl
  · exact seenAnswer_bind (numberArg_seen only) fun _ => rfl
  · exact compareChain_seen holds (only :: second :: rest)

end Arithmetic

-----------------------------------------------------------------------------------------
-- Collections
-----------------------------------------------------------------------------------------

namespace Collections

/-- An argument is seen with its items, or to have none. -/
theorem itemsArg_seen (v : Value)
    : itemsArg (v.seen V) = seenAnswer V (List.map (seen V)) (itemsArg v) := by
  unfold itemsArg
  rw [Value.items?_seen]
  cases v.items? <;> rfl

/-- It is seen as the position that it is. -/
theorem position?_seen (v : Value)
    : position? (v.seen V) = position? v := by
  cases v <;> rfl

/-- A count is seen as itself. -/
theorem countOf_seen (v : Value)
    : countOf (v.seen V) = seenResult V (countOf v) := by
  have counted : (do .ok (.int (.ofNat (← itemsArg (v.seen V)).length)))
      = seenResult V (do .ok (.int (.ofNat (← itemsArg v).length))) :=
    seenAnswer_bind (itemsArg_seen v) fun items => by simp
  cases v with
  | string => rfl
  | _ => exact counted

/-- The first item is seen, or nil is. -/
theorem firstOf_seen (v : Value)
    : firstOf (v.seen V) = seenResult V (firstOf v) :=
  seenAnswer_bind (itemsArg_seen v) fun items => by cases items <;> rfl

/-- The rest is seen item by item. -/
theorem restOf_seen (v : Value)
    : restOf (v.seen V) = seenResult V (restOf v) :=
  seenAnswer_bind (itemsArg_seen v) fun items => by simp

/-- The item at an index is seen, or that there is none. -/
theorem itemAt_seen (coll index : Value)
    : itemAt (coll.seen V) (index.seen V) = seenResult V (itemAt coll index) := by
  refine seenAnswer_bind (itemsArg_seen coll) fun items => ?_
  cases index with
  | int n =>
      dsimp only [seen]
      cases position? (.int n) with
      | none => simp
      | some i =>
          simp only [Option.bind_some, List.getElem?_map]
          cases items[i]? with
          | none => simp
          | some item => rfl
  | _ => rfl

/-- An item in front of a collection is seen there. -/
theorem consOnto_seen (item coll : Value)
    : consOnto (item.seen V) (coll.seen V) = seenResult V (consOnto item coll) :=
  seenAnswer_bind (itemsArg_seen coll) fun items => by simp

/-- A collection is seen with one more item, by its kind. -/
theorem conjoin_seen (a : Arrangement) (coll item : Value)
    : conjoin a (coll.seen V) (item.seen V) = seenResult V (conjoin a coll item) := by
  cases coll with
  | map entries =>
      simp only [seen, seenEntries_eq_map, conjoin, Value.items?_seen]
      rcases item.items? with _ | items
      · rfl
      · rcases items with _ | ⟨k, _ | ⟨v, _ | ⟨_, _⟩⟩⟩
        case cons.cons.nil => simp [Value.insertEntry_seen]
        all_goals rfl
  | set items => simp [conjoin, Value.insertItem_seen]
  | list | vector => simp [conjoin]
  | _ => rfl

/-- It is seen with several more, one after the other. -/
theorem conjoinAll_seen (a : Arrangement) (args : List Value)
    : conjoinAll a (args.map (seen V)) = seenResult V (conjoinAll a args) := by
  cases args with
  | nil => rfl
  | cons coll additions => exact seenAnswer_foldlM (conjoin_seen a) additions coll

/-- Collections are seen put together. -/
theorem concatenated_seen (colls : List Value)
    : concatenated (colls.map (seen V)) = seenResult V (concatenated colls) :=
  seenAnswer_bind (seenAnswer_mapM itemsArg_seen colls) fun items => by
    simp [List.map_flatten]

/-- The value of a key in a collection is seen, or the default is, by the kind of the collection. -/
theorem valueAt_seen (coll key default : Value)
    : valueAt (coll.seen V) (key.seen V) (default.seen V) = (valueAt coll key default).seen V := by
  have found (o : Option Value)
      : (o.map (seen V)).getD (default.seen V) = (o.getD default).seen V := by
    cases o <;> rfl
  cases coll with
  | map entries => simp [valueAt, Value.entry?_seen, found]
  | vector items =>
      unfold valueAt
      rw [position?_seen, ← found]
      cases position? key <;> simp
  | set items =>
      unfold valueAt
      simp only [seen, seenAll_eq_map, Value.any_beq_seen, ← found]
      split <;> rfl
  | _ => rfl

/-- A value that is looked up is seen, by the number of arguments. -/
theorem lookedUp_seen (args : List Value)
    : lookedUp (args.map (seen V)) = seenResult V (lookedUp args) := by
  rcases args with _ | ⟨coll, _ | ⟨key, _ | ⟨default, _ | ⟨_, _⟩⟩⟩⟩
  case cons.cons.nil => exact congrArg Except.ok (valueAt_seen coll key .nil)
  case cons.cons.cons.nil => exact congrArg Except.ok (valueAt_seen coll key default)
  all_goals simp [lookedUp]

/-- A collection is seen with a value for a key, by its kind. -/
theorem associated_seen (a : Arrangement) (coll key value : Value)
    : associated a (coll.seen V) (key.seen V) (value.seen V)
      = seenResult V (associated a coll key value) := by
  cases coll with
  | map entries => simp [associated, Value.insertEntry_seen]
  | vector items =>
      simp only [associated, seen, seenAll_eq_map, position?_seen, List.length_map]
      cases position? key with
      | none => rfl
      | some i =>
          dsimp only
          split
          · simp [List.map_set]
          · split
            · simp
            · rfl
  | _ => rfl

end Collections

-----------------------------------------------------------------------------------------
-- All primitives
-----------------------------------------------------------------------------------------

namespace Primitive

open Arithmetic Collections

/-- Arguments are seen with their texts. -/
theorem texts_seen (args : List Value)
    : (args.map (seen V)).map Value.text = args.map Value.text := by
  simp [Function.comp_def]

/-- They are seen joined to the same text. -/
theorem joined_seen (args : List Value)
    : joined (args.map (seen V)) = joined args := by
  simp [joined, List.filter_map, Function.comp_def]

/-- Texts are seen to make the symbol that they make, by their number. -/
theorem symbolOfTexts_seen (args : List Value)
    : symbolOfTexts (args.map (seen V)) = seenAnswer V id (symbolOfTexts args) := by
  rcases args with _ | ⟨a, _ | ⟨b, _ | ⟨_, _⟩⟩⟩
  · rfl
  · cases a <;> rfl
  · cases a with
    | string => cases b <;> rfl
    | _ => rfl
  · simp [symbolOfTexts]

/-- A made symbol is seen as itself. -/
theorem symbolOf_seen (args : List Value)
    : symbolOf (args.map (seen V)) = seenResult V (symbolOf args) := by
  have made : (do .ok (.symbol (← symbolOfTexts (args.map (seen V)))))
      = seenResult V (do .ok (.symbol (← symbolOfTexts args))) :=
    seenAnswer_bind (symbolOfTexts_seen args) fun _ => rfl
  rcases args with _ | ⟨a, _ | ⟨b, rest⟩⟩
  · exact made
  · cases a with
    | symbol => rfl
    | _ => exact made
  · cases a <;> exact made

/-- So is a made keyword. -/
theorem keywordOf_seen (args : List Value)
    : keywordOf (args.map (seen V)) = seenResult V (keywordOf args) := by
  have made : (do .ok (.keyword (← symbolOfTexts (args.map (seen V)))))
      = seenResult V (do .ok (.keyword (← symbolOfTexts args))) :=
    seenAnswer_bind (symbolOfTexts_seen args) fun _ => rfl
  rcases args with _ | ⟨a, _ | ⟨b, rest⟩⟩
  · exact made
  · cases a with
    | symbol | keyword => rfl
    | _ => exact made
  · cases a <;> exact made

/-- What a view sees of a prepared call. -/
def seenCall (V : View) (call : Function × List Value)
    : Function × List Value :=
  (call.1.seen V, call.2.map (seen V))

/-- The spread arguments of apply are seen one by one, behind the function as it is seen. -/
theorem spread_seen (args : List Value)
    : spread (args.map (seen V)) = seenAnswer V (seenCall V) (spread args) := by
  rcases args with _ | ⟨a, _ | ⟨next, more⟩⟩
  · rfl
  · cases a <;> rfl
  · cases a with
    | function f =>
        have last : (next.seen V :: more.map (seen V)).getLast (List.cons_ne_nil _ _)
            = ((next :: more).getLast (List.cons_ne_nil _ _)).seen V := by
          simp only [← List.map_cons, List.getLast_map]
        simp only [List.map_cons, spread, seen]
        rw [last]
        refine seenAnswer_bind (itemsArg_seen _) fun items => ?_
        simp [seenCall, ← List.map_cons, ← List.map_dropLast]
    | _ => rfl

/-- A primitive is seen to write what it writes. -/
theorem output_seen (p : Primitive) (args : List Value)
    : p.output (args.map (seen V)) = p.output args := by
  have texts := texts_seen (V := V) args
  unfold output
  split <;> simp only [texts]

/-- Primitives do not look beyond a view. -/
theorem compute_seen (a : Arrangement) (p : Primitive) (args : List Value)
    : p.compute a (args.map (seen V)) = seenResult V (p.compute a args) := by
  cases p
  case add => exact sum_seen args
  case subtract => exact difference_seen args
  case multiply => exact product_seen args
  case divide => exact quotient_seen args
  case equal => exact allEqual_seen args
  case less | lessOrEqual | greater | greaterOrEqual => exact ordered_seen _ args
  case str => simp [compute, joined_seen]
  case print | printLine => rfl
  case symbol => exact symbolOf_seen args
  case keyword => exact keywordOf_seen args
  case conj => exact conjoinAll_seen a args
  case concat => exact concatenated_seen args
  case get => exact lookedUp_seen args
  case apply => simp [compute]
  case assoc =>
    rcases args with _ | ⟨coll, _ | ⟨key, _ | ⟨value, _ | ⟨_, _⟩⟩⟩⟩
    case cons.cons.cons.nil => exact associated_seen a coll key value
    all_goals simp [compute]
  case nth =>
    rcases args with _ | ⟨coll, _ | ⟨index, _ | ⟨_, _⟩⟩⟩
    case cons.cons.nil => exact itemAt_seen coll index
    all_goals simp [compute]
  case cons =>
    rcases args with _ | ⟨item, _ | ⟨coll, _ | ⟨_, _⟩⟩⟩
    case cons.cons.nil => exact consOnto_seen item coll
    all_goals simp [compute]
  all_goals rcases args with _ | ⟨a, _ | ⟨_, _⟩⟩
  case increment.cons.nil | decrement.cons.nil => exact numeric_seen _ _ a (.int 1)
  case not.cons.nil | isNil.cons.nil => simp [compute, truth_seen]
  case typeOf.cons.nil => simp [compute]
  case count.cons.nil => exact countOf_seen a
  case first.cons.nil => exact firstOf_seen a
  case rest.cons.nil => exact restOf_seen a
  case vec.cons.nil => exact seenAnswer_bind (itemsArg_seen a) fun items => by simp
  all_goals simp [compute]

end Primitive

end IncrementalLisp
