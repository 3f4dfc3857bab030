import IncrementalLisp.Context.Store

/-! Computations. A computation reads its surroundings (the calls it runs inside of, and what is at
hand meanwhile), changes the store, and ends with a result, with an error of the program, or because
it ran out of the fuel that bounds it. What it did to the store before an error stays done.
-/

namespace IncrementalLisp

/-- What a computation runs inside of: the number of function calls, the bound on it, and the
contexts that are held meanwhile, since a computation goes on in them or a value that is at hand
refers to them.
-/
structure Scope where
  callDepth : Nat
  callLimit : Nat
  held : ContextId → Bool

namespace Scope

/-- The scope of a computation outside of any call. -/
def outermost (callLimit : Nat)
    : Scope :=
  ⟨0, callLimit, fun _ => false⟩

/-- The scope of a computation in a context. -/
def entering (scope : Scope) (c : ContextId)
    : Scope :=
  { scope with held := fun d => c == d || scope.held d }

/-- The scope of a computation while some values are at hand. -/
def holding (scope : Scope) (values : List Value)
    : Scope :=
  { scope with held := fun c => (contextsOfAll values).contains c || scope.held c }

end Scope

/-- Why a computation ends without a result. -/
inductive Halt where
  | error (e : EvalError)
  | outOfFuel

/-- Computations with a result. -/
abbrev Run (α : Type) := ReaderT Scope (ExceptT Halt (StateM Store)) α

namespace Run

/-- The outcome of a computation in a scope, and the store after it. -/
def outcome {α : Type} (x : Run α) (scope : Scope) (st : Store)
    : Except Halt α × Store :=
  x scope st

/-- The outcome of a computation outside of any call, and the store after it. -/
def start {α : Type} (x : Run α) (callLimit : Nat) (st : Store)
    : Except Halt α × Store :=
  x.outcome (.outermost callLimit) st

/-- The computation that ends with an error. -/
def fail {α : Type} (e : EvalError)
    : Run α :=
  throw (.error e)

/-- The computation that ran out of fuel. -/
def exhausted {α : Type}
    : Run α :=
  throw .outOfFuel

/-- A computation whose error becomes its result. -/
def attempt {α : Type} (x : Run α)
    : Run (Except EvalError α) :=
  tryCatch (do return .ok (← x)) fun
    | .error e => pure (.error e)
    | .outOfFuel => exhausted

/-- The result of a function that may fail. -/
def ofExcept {α : Type}
    : Except EvalError α → Run α
  | .ok a => pure a
  | .error e => fail e

/-- The context of a number. -/
def context (c : ContextId)
    : Run Context := do
  return (← get).context c

/-- A number that no object has yet. -/
def newIdentity : Run Identity :=
  modifyGet fun st => (st.nextIdentity, { st with nextIdentity := st.nextIdentity + 1 })

/-- The arrangement of a new table. -/
def newArrangement : Run Arrangement :=
  modifyGet Store.arrange

/-- The arrangement of a new table, unless any is as good. -/
def arrangementIf (needed : Bool)
    : Run Arrangement :=
  if needed then newArrangement else pure .last

/-- The arrangement of a new table for a number of items. One item goes to one place only. -/
def arrangementFor (count : Nat)
    : Run Arrangement :=
  arrangementIf (1 < count)

/-- Writes a text. -/
def write (text : String)
    : Run Unit :=
  modify fun st => { st with output := st.output ++ text }

/-- Asks the host for something, which may change what the host remembers. -/
def askHost {α : Type} (question : Host → Except EvalError α × Host)
    : Run α := do
  let (answer, host) := question (← get).host
  modify fun st => { st with host := host }
  ofExcept answer

/-- A computation inside one more function call, unless there are too many. -/
def insideCall {α : Type} (x : Run α)
    : Run α := do
  let scope ← read
  if scope.callDepth < scope.callLimit then
    withReader (fun s => { s with callDepth := s.callDepth + 1 }) x
  else fail (.stackOverflow scope.callDepth scope.callLimit)

/-- The computation of a slot, unless that slot is being computed already. The slot is entered
before, and left however the computation ends.
-/
def insideSlot {α : Type} (slot : Slot) (x : Run α)
    : Run α := do
  if (← get).forcing.contains slot.id then fail (.cyclicDependency slot.symbol)
  else
    modify (·.enter slot.id)
    tryFinally x (modify (·.leave slot.id))

/-- A computation in a context. -/
def inContext {α : Type} (c : ContextId) (x : Run α)
    : Run α :=
  withReader (·.entering c) x

/-- A computation while some values are at hand. -/
def holding {α : Type} (values : List Value) (x : Run α)
    : Run α :=
  withReader (·.holding values) x

/-- The results of a computation for several items, from left to right. The values of the earlier
results are at hand while the later ones are computed.
-/
def gather {α β : Type} (value : β → Value) (f : α → Run β)
    : List α → Run (List β)
  | [] => return []
  | a :: rest => do
      let b ← f a
      return b :: (← holding [value b] (gather value f rest))

/-- Whether a context still lives. -/
def isLiving (c : ContextId)
    : Run Bool := do
  let scope ← read
  if (← get).isHeld scope.held c then return true
  modify (·.collected scope.held)
  return (← get).living.contains c

/-- A computation under another bound on function calls. -/
def withCallLimit {α : Type} (limit : Nat) (x : Run α)
    : Run α :=
  withReader (fun s => { s with callLimit := limit }) x

end Run

end IncrementalLisp
