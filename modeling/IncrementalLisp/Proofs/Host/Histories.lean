import IncrementalLisp.Proofs.Host.Standard

/-! Histories of a host. Types are registered, others take their place, and members are called on
types and on values, in any order. The host answers with members that it found before; beside it
stands a bare list of types that is searched anew at every call. The two select the same members,
fail alike and answer alike all the way.
-/

namespace IncrementalLisp

namespace Host

-----------------------------------------------------------------------------------------
-- Calls
-----------------------------------------------------------------------------------------

/-- A call of a member on a type or on a value. -/
inductive Invocation where
  | onType (type member : String) (args : List Value)
  | onInstance (target : Value) (member : String) (args : List Value)

namespace Invocation

def member : Invocation → String
  | .onType _ member _ => member
  | .onInstance _ member _ => member

def dispatch : Invocation → Dispatch
  | .onType .. => .onType
  | .onInstance .. => .onInstance

/-- What the member is run on: the arguments, after the target if there is one. -/
def passed : Invocation → List Value
  | .onType _ _ args => args
  | .onInstance target _ args => target :: args

/-- The error of a call for which the type has no member. -/
def missing (t : HostType) : Invocation → EvalError
  | .onType type member args => .call (.noStaticMember type member args.length)
  | .onInstance _ member args => .call (.noMember t.name member args.length)

end Invocation

/-- The type whose members a call is about. -/
def receiver (h : Host) : Invocation → Except EvalError HostType
  | .onType type _ _ =>
      match h.type? type with
      | some t => .ok t
      | none => .error (.call (.unknownType type))
  | .onInstance target member _ =>
      match h.typeOf? target with
      | some t => .ok t
      | none => .error (.call (.noReceiver member target))

/-- The member that a call selects, or the error that says why there is none, where the members of a
type are found by the given search.
-/
def selection (h : Host) (search : HostType → String → Nat → Dispatch → Option Member)
    (call : Invocation)
    : Except EvalError Member := do
  let t ← h.receiver call
  match search t call.member call.passed.length call.dispatch with
  | some m => .ok m
  | none => .error (call.missing t)

/-- What a host selects for a call, from the cache where it can: the member that it answers with. -/
def selected (h : Host) (call : Invocation)
    : Except EvalError Member :=
  h.selection (fun t name count dispatch => (h.resolve t name count dispatch).1) call

/-- What a bare list of types selects for a call, by the tables of the types. -/
def selectedAnew (types : List HostType) (call : Invocation)
    : Except EvalError Member :=
  let h : Host := ⟨types, []⟩
  h.selection h.member? call

/-- What a host answers to a call, and the host after it. -/
def answer (h : Host) : Invocation → Except EvalError Value × Host
  | .onType type member args => h.invokeStatic type member args
  | .onInstance target member args => h.invoke target member args

variable {h : Host} {t : HostType}

/-- The type that receives a call is one of the host's, whether it is named or is that of the
target.
-/
theorem mem_of_receiver {call : Invocation} (found : h.receiver call = .ok t)
    : t ∈ h.types := by
  cases call with
  | onType type member args =>
      cases known : h.type? type with
      | none => simp [receiver, known] at found
      | some u =>
          obtain rfl : u = t := by simpa [receiver, known] using found
          exact mem_of_type? known
  | onInstance target member args =>
      cases known : h.typeOf? target with
      | none => simp [receiver, known] at found
      | some u =>
          obtain rfl : u = t := by simpa [receiver, known] using found
          exact mem_of_typeOf? known

/-- A call is answered by the member that it selects, whatever the cache holds. -/
theorem answer_fst (h : Host) (call : Invocation)
    : (h.answer call).1 = (h.selected call).bind (·.call call.passed) := by
  cases call with
  | onType type member args =>
      rw [answer, invokeStatic_fst]
      unfold selected selection receiver
      dsimp only [Invocation.member, Invocation.dispatch, Invocation.passed]
      cases h.type? type with
      | none => rfl
      | some t =>
          dsimp only [bind, Except.bind]
          cases (h.resolve t member args.length .onType).1 <;> rfl
  | onInstance target member args =>
      rw [answer, invoke_fst]
      unfold selected selection receiver
      dsimp only [Invocation.member, Invocation.dispatch, Invocation.passed, List.length_cons]
      cases h.typeOf? target with
      | none => rfl
      | some t =>
          dsimp only [bind, Except.bind]
          cases (h.resolve t member (args.length + 1) .onInstance).1 <;> rfl

/-- An answer leaves the host as it was or with one more selection in its cache, by the kind of
call.
-/
theorem next_answer (h : Host) (call : Invocation)
    : h.Next (h.answer call).2 := by
  cases call with
  | onType type member args => exact next_invokeStatic h type member args
  | onInstance target member args => exact next_invoke h target member args

/-- A sound host selects what its types alone select. -/
theorem Sound.selected_eq (sound : h.Sound) (call : Invocation)
    : h.selected call = selectedAnew h.types call := by
  -- which type a call is about was never cached
  have receives : (⟨h.types, []⟩ : Host).receiver call = h.receiver call := by
    cases call <;> rfl
  unfold selected selectedAnew selection
  dsimp only
  rw [receives]
  cases found : h.receiver call with
  | error e => rfl
  | ok t =>
      have selects : (⟨h.types, []⟩ : Host).member? t call.member call.passed.length call.dispatch
          = h.member? t call.member call.passed.length call.dispatch := member?_congr rfl
      dsimp only [bind, Except.bind]
      rw [sound.resolve_fst (mem_of_receiver found), selects]

-----------------------------------------------------------------------------------------
-- Operations one after the other
-----------------------------------------------------------------------------------------

/-- What is done to a host. A type takes the place of one of its name. -/
inductive Operation where
  | register (t : HostType)
  | call (call : Invocation)

/-- What comes of a call: the member that it selects, or why it selects none, and the answer. -/
structure Outcome where
  selected : Except EvalError Member
  answer : Except EvalError Value

/-- What comes of an operation on a host, and the host after it. -/
def perform (h : Host) : Operation → Option Outcome × Host
  | .register t => (none, h.register t)
  | .call call => (some ⟨h.selected call, (h.answer call).1⟩, (h.answer call).2)

/-- What comes of an operation on a bare list of types, and the types after it. -/
def performAnew (types : List HostType) : Operation → Option Outcome × List HostType
  | .register t => (none, replaceType t types)
  | .call call =>
      let selected := selectedAnew types call
      (some ⟨selected, selected.bind (·.call call.passed)⟩, types)

/-- What comes of operations one after the other, and the state after them all. -/
def Operation.history {σ : Type} (step : σ → Operation → Option Outcome × σ)
    : σ → List Operation → List (Option Outcome) × σ
  | s, [] => ([], s)
  | s, operation :: rest =>
      let (outcome, next) := step s operation
      let (outcomes, last) := history step next rest
      (outcome :: outcomes, last)

/-- A sound host that lists no name of a type twice. -/
structure Regular (h : Host) : Prop where
  nodup : (h.types.map (·.name)).Nodup
  sound : h.Sound

/-- The empty host is regular. -/
theorem regular_empty
    : empty.Regular :=
  ⟨List.nodup_nil, .of_nodup List.nodup_nil rfl⟩

/-- Every operation keeps a host regular. A registered type leaves nothing in the cache, so nothing
that an older type of its name, or an older root type, had to offer is found any more; a call only
adds what the tables select.
-/
theorem Regular.perform (regular : h.Regular) (operation : Operation)
    : (h.perform operation).2.Regular := by
  cases operation with
  | register t =>
      have nodup : ((replaceType t h.types).map (·.name)).Nodup :=
        distinct_replaceType regular.nodup
      exact ⟨nodup, .of_nodup nodup rfl⟩
  | call call =>
      have next : h.Next (h.perform (.call call)).2 := next_answer h call
      refine ⟨?_, regular.sound.next next⟩
      rw [next.types]
      exact regular.nodup

/-- An operation comes to the same on a regular host and on its bare types. -/
theorem Regular.performAnew_eq (regular : h.Regular) (operation : Operation)
    : performAnew h.types operation
      = ((h.perform operation).1, (h.perform operation).2.types) := by
  cases operation with
  | register t => rfl
  | call call =>
      unfold performAnew Host.perform
      dsimp only
      rw [answer_fst, regular.sound.selected_eq, (next_answer h call).types]

/-- A history comes to the same on a regular host and on its bare types, by induction on the
operations.
-/
theorem Regular.history_eq (regular : h.Regular) (operations : List Operation)
    : Operation.history performAnew h.types operations
      = ((Operation.history Host.perform h operations).1,
        (Operation.history Host.perform h operations).2.types) := by
  induction operations generalizing h with
  | nil => rfl
  | cons operation rest ih =>
      unfold Operation.history
      rw [regular.performAnew_eq operation]
      dsimp only
      rw [ih (regular.perform operation)]

/-- In every history of a host that is empty at first, every call selects the member, fails and
answers as on the bare list of the types registered so far, where each call searches the tables
anew; and the host keeps just those types.
-/
theorem cache_keeps_selections (operations : List Operation)
    : (Operation.history perform empty operations).1
        = (Operation.history performAnew [] operations).1
      ∧ (Operation.history perform empty operations).2.types
        = (Operation.history performAnew [] operations).2 := by
  have same := regular_empty.history_eq operations
  exact ⟨(congrArg Prod.fst same).symm, (congrArg Prod.snd same).symm⟩

/-- A member of the root type that was found for another type gives way when that type is replaced
by one with such a member of its own.
-/
example
    : let root := (HostType.plain rootType fun _ => true).withInstance "size" (some 0) fun _ =>
        .ok (.int 1)
      let text := HostType.plain "Text" fun _ => true
      let sized := text.withInstance "size" (some 0) fun _ => .ok (.int 2)
      let size := Operation.call (.onInstance .nil "size" [])
      let operations := [.register root, .register text, size, size, .register sized, size]
      (Operation.history perform empty operations).1.filterMap (·.map (·.answer))
        = [.ok (.int 1), .ok (.int 1), .ok (.int 2)] := by
  rfl

end Host
end IncrementalLisp
