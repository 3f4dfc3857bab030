import IncrementalLisp.Error
import IncrementalLisp.Value.Collection

/-! Host types: native operations on values, grouped by type. A type knows its instances and has
overloaded members of two kinds, called on an instance or on the type itself. A host is a table
of types in the order of their registration, with a cache of the members found so far.
-/

namespace IncrementalLisp

/-- One overload of a member. The number of arguments counts the target of an instance member;
none means any number.
-/
structure Member where
  name : String
  arity? : Option Nat
  run : List Value → Except Fault Value

/-- The overloads of the members of one kind. -/
abbrev MemberTable := List (String × List Member)

/-- A type of the host. -/
structure HostType where
  name : String
  isInstance : Value → Bool
  instanceMembers : MemberTable
  staticMembers : MemberTable

/-- The two ways to call a member. -/
inductive Dispatch where
  | onType
  | onInstance
deriving DecidableEq, Repr

/-- What determines which overload a call selects. -/
structure MemberKey where
  type : String
  member : String
  count : Nat
  dispatch : Dispatch
deriving DecidableEq, Repr

/-- A table of types with the members found so far. -/
structure Host where
  types : List HostType
  cache : List (MemberKey × Member)

namespace Member

/-- Calls a member after a check of the number of arguments. -/
def call (m : Member) (args : List Value)
    : Except EvalError Value :=
  match m.arity? with
  | some count =>
      if args.length == count then ran
      else .error (.arity m.name (.exactly count) args.length)
  | none => ran
where
  ran : Except EvalError Value :=
    (m.run args).mapError fun fault => .call (.refused m.name fault)

end Member

namespace MemberTable

/-- A table with one more overload, after those of the same name. -/
def add (name : String) (m : Member)
    : MemberTable → MemberTable
  | [] => [(name, [m])]
  | (other, overloads) :: rest =>
      if other == name then (other, overloads ++ [m]) :: rest
      else (other, overloads) :: add name m rest

/-- The overload for a number of arguments: the first with just that number, else the first that
takes any.
-/
def select? (table : MemberTable) (name : String) (count : Nat)
    : Option Member :=
  (table.lookup name).bind fun overloads =>
    (overloads.find? (·.arity? == some count)).or (overloads.find? (·.arity?.isNone))

end MemberTable

namespace HostType

/-- A type without members. -/
def plain (name : String) (isInstance : Value → Bool)
    : HostType :=
  ⟨name, isInstance, [], []⟩

/-- A type with one more overload of an instance member, which takes the given number of
arguments besides its target.
-/
def withInstance (t : HostType) (name : String) (arity? : Option Nat)
    (run : List Value → Except Fault Value)
    : HostType :=
  let m : Member := ⟨t.name ++ "." ++ name, arity?.map (· + 1), run⟩
  { t with instanceMembers := t.instanceMembers.add name m }

/-- A type with one more overload of a static member. -/
def withStatic (t : HostType) (name : String) (arity? : Option Nat)
    (run : List Value → Except Fault Value)
    : HostType :=
  let m : Member := ⟨t.name ++ "/" ++ name, arity?, run⟩
  { t with staticMembers := t.staticMembers.add name m }

end HostType

namespace Host

/-- A host without types. -/
def empty : Host := ⟨[], []⟩

/-- The type that is tried last, and whose instance members every other type has too. -/
def rootType : String := "Object"

/-- The type of a name. -/
def type? (h : Host) (name : String)
    : Option HostType :=
  h.types.find? (·.name == name)

/-- A list of types with one of them replaced where it stands, or added at the end. -/
def replaceType (t : HostType)
    : List HostType → List HostType
  | [] => [t]
  | other :: rest => if other.name == t.name then t :: rest else other :: replaceType t rest

/-- A host with a type added or replaced. What was found before no longer counts. -/
def register (h : Host) (t : HostType)
    : Host :=
  ⟨replaceType t h.types, []⟩

/-- The names of the types in the order of their registration. -/
def typeNames (h : Host)
    : List String :=
  h.types.map (·.name)

/-- The type of a value. -/
def typeOf? (h : Host) (v : Value)
    : Option HostType :=
  (h.types.find? fun t => t.name != rootType && t.isInstance v).or
    ((h.type? rootType).filter (·.isInstance v))

/-- The member that a call selects, by the tables alone. -/
def member? (h : Host) (t : HostType) (name : String) (count : Nat)
    : Dispatch → Option Member
  | .onType => t.staticMembers.select? name count
  | .onInstance =>
      (t.instanceMembers.select? name count).or
        ((h.type? rootType).bind (·.instanceMembers.select? name count))

/-- The member that a call selects, from the cache if it was found before, and the host that
remembers it.
-/
def resolve (h : Host) (t : HostType) (name : String) (count : Nat) (dispatch : Dispatch)
    : Option Member × Host :=
  let key : MemberKey := ⟨t.name, name, count, dispatch⟩
  match h.cache.lookup key with
  | some m => (some m, h)
  | none =>
      match h.member? t name count dispatch with
      | some m => (some m, { h with cache := (key, m) :: h.cache })
      | none => (none, h)

/-- Calls a static member of a type. -/
def invokeStatic (h : Host) (type member : String) (args : List Value)
    : Except EvalError Value × Host :=
  match h.type? type with
  | none => (.error (.call (.unknownType type)), h)
  | some t =>
      match h.resolve t member args.length .onType with
      | (some m, h) => (m.call args, h)
      | (none, h) => (.error (.call (.noStaticMember type member args.length)), h)

/-- Calls a member on a value. -/
def invoke (h : Host) (target : Value) (member : String) (args : List Value)
    : Except EvalError Value × Host :=
  match h.typeOf? target with
  | none => (.error (.call (.noReceiver member target)), h)
  | some t =>
      match h.resolve t member (args.length + 1) .onInstance with
      | (some m, h) => (m.call (target :: args), h)
      | (none, h) => (.error (.call (.noMember t.name member args.length)), h)

/-- Whether a value is an instance of a type. -/
def isInstance (h : Host) (type : String) (v : Value)
    : Bool :=
  match h.type? type with
  | some t => t.isInstance v
  | none => false

/-- The conversions between numbers and characters. -/
def converted? : String → Value → Option Value
  | "Long", .float x => some (.int (Number.toInt64 x))
  | "Long", .char c => some (.int (.ofNat c.toNat))
  | "Double", .int n => some (.float (Number.ofInt n.toInt))
  | "Character", .int n =>
      if h : 0 ≤ n.toInt ∧ n.toInt.toNat.isValidChar then
        some (.char (Char.ofNatAux n.toInt.toNat h.2))
      else none
  | _, _ => none

/-- A value as an instance of a type: itself, or its conversion. -/
def cast (h : Host) (type : String) (v : Value)
    : Except EvalError Value :=
  if h.isInstance type v then .ok v
  else
    match converted? type v with
    | some w => .ok w
    | none => .error (.wrongType type v)

end Host

end IncrementalLisp
