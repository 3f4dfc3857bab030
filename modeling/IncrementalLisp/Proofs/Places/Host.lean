import IncrementalLisp.Proofs.Places.Value
import IncrementalLisp.Proofs.View.Host

/-! Errors without places, and hosts that ignore places. An error keeps its kind, its cause and
the form it names, of which only the places are left out, and so does the text of an error in a
call, of which all words are kept. To a host that ignores places the same values count
as being of a type, and its members answer alike, up to places. The standard host is one.
-/

namespace IncrementalLisp

-----------------------------------------------------------------------------------------
-- Errors
-----------------------------------------------------------------------------------------

/-- A piece of a text, with no other place than the one that stands for all. -/
def Piece.unplaced : Piece → Piece
  | .words text => .words text
  | .place _ => .place .nowhere

/-- A refusal without the places of its values, and without those that its text tells. -/
def Fault.unplaced : Fault → Fault
  | .expected what got => .expected what got.unplaced
  | .expectedIndex got => .expectedIndex got.unplaced
  | .indexNotLong got => .indexNotLong got.unplaced
  | .outOfCount index count => .outOfCount index.unplaced count
  | .cannot deed on => .cannot deed on.unplaced
  | .noSize v => .noSize v.unplaced
  | .notIndexed v => .notIndexed v.unplaced
  | .inCall text => .inCall (text.map Piece.unplaced)
  | other => other

/-- A wrong part without the places of the value in its stead. -/
def PartFault.unplaced : PartFault → PartFault
  | .valueNotASymbol role got => .valueNotASymbol role got.unplaced
  | other => other

/-- A failed call without places. -/
def CallFault.unplaced : CallFault → CallFault
  | .refused callee fault => .refused callee fault.unplaced
  | .noReceiver member target => .noReceiver member target.unplaced
  | other => other

/-- An error without places. -/
def EvalError.unplaced : EvalError → EvalError
  | .expansion fault form => .expansion fault form.unplaced
  | .analysis fault form => .analysis fault.unplaced form.unplaced
  | .invocation fault none => .invocation fault.unplaced none
  | .invocation fault (some cause) => .invocation fault.unplaced (some cause.unplaced)
  | .reading error => .reading { error with location := unplacedSource error.location }
  | .unresolvedSymbol s => .unresolvedSymbol s
  | .cyclicDependency s => .cyclicDependency s
  | .stackOverflow depth limit => .stackOverflow depth limit
  | .arity callee expected got => .arity callee expected got
  | .type expected got => .type expected got

/-- A piece of a text without places is that piece as it is seen without them. -/
theorem Piece.seen_placeless
    : Piece.seen .placeless = Piece.unplaced := by
  funext piece
  cases piece <;> rfl

/-- So is a fault, by its kind. -/
theorem Fault.seen_placeless (fault : Fault)
    : fault.seen .placeless = fault.unplaced := by
  cases fault <;> simp [seen, unplaced, Wording.seen, Piece.seen_placeless]

/-- So is a fault of a part, by its kind. -/
theorem PartFault.seen_placeless (fault : PartFault)
    : fault.seen .placeless = fault.unplaced := by
  cases fault <;> simp [seen, unplaced]

/-- So is a fault of a call, by its kind. -/
theorem CallFault.seen_placeless (fault : CallFault)
    : fault.seen .placeless = fault.unplaced := by
  cases fault <;> simp [seen, unplaced, Fault.seen_placeless]

/-- What is seen of an error without places is the error without its places. Witness: induction on
the causes.
-/
theorem EvalError.seen_placeless
    : ∀ e : EvalError, e.seen .placeless = e.unplaced
  | .invocation fault (some cause) => by
      rw [seen, unplaced, CallFault.seen_placeless fault, seen_placeless cause]
  | .invocation fault none => by rw [seen, unplaced, CallFault.seen_placeless fault]
  | .analysis fault form => by
      rw [seen, unplaced, PartFault.seen_placeless fault, Value.seen_placeless form]
  | .expansion _ form => by rw [seen, unplaced, Value.seen_placeless form]
  | .reading _ | .unresolvedSymbol _ | .cyclicDependency _ | .stackOverflow _ _ | .arity _ _ _
  | .type _ _ => rfl

-----------------------------------------------------------------------------------------
-- Answers
-----------------------------------------------------------------------------------------

/-- A result or a failure, changed in either case. -/
@[simp] def Except.altered {ε α : Type} (onError : ε → ε) (onResult : α → α)
    : Except ε α → Except ε α
  | .ok a => .ok (onResult a)
  | .error e => .error (onError e)

/-- An answer without places: a result without its own, or a refusal without its own. -/
abbrev unplacedAnswer {α : Type} (f : α → α)
    : Except Fault α → Except Fault α :=
  Except.altered Fault.unplaced f

/-- An answer that is a value, without places. -/
abbrev unplacedResult
    : Except Fault Value → Except Fault Value :=
  unplacedAnswer Value.unplaced

/-- An answer without places is that answer as it is seen without them. -/
theorem seenResult_placeless (answer : Except Fault Value)
    : seenResult .placeless answer = unplacedResult answer := by
  cases answer with
  | ok v => exact congrArg Except.ok v.seen_placeless
  | error fault => exact congrArg Except.error fault.seen_placeless

-----------------------------------------------------------------------------------------
-- Hosts
-----------------------------------------------------------------------------------------

/-- (RunIgnoresPlaces run) says that a function of values gives the same answers, up to places, to
arguments that are the same up to places.
-/
def RunIgnoresPlaces (run : List Value → Except Fault Value)
    : Prop :=
  ∀ args args' : List Value, args.map Value.unplaced = args'.map Value.unplaced
    → unplacedResult (run args) = unplacedResult (run args')

/-- A type to which places do not matter. -/
structure HostType.IgnoresPlaces (t : HostType) : Prop where
  isInstance_eq : ∀ v w : Value, v.unplaced = w.unplaced → t.isInstance v = t.isInstance w
  members : t.All fun m => RunIgnoresPlaces m.run

/-- A host to whose types and known members places do not matter. -/
structure Host.IgnoresPlaces (h : Host) : Prop where
  types : ∀ t ∈ h.types, t.IgnoresPlaces
  cache : ∀ entry ∈ h.cache, RunIgnoresPlaces entry.2.run

/-- A member that ignores places is one that respects the view without them. -/
theorem RunIgnoresPlaces.eq_respects
    : RunIgnoresPlaces = RunRespects .placeless := by
  funext run
  unfold RunIgnoresPlaces RunRespects
  simp only [seenResult_placeless, funext Value.seen_placeless]

/-- A host ignores places if it respects the view without places. -/
theorem Host.ignoresPlaces_iff {h : Host}
    : h.IgnoresPlaces ↔ h.Respects .placeless := by
  have types {t : HostType} : t.IgnoresPlaces ↔ t.Respects .placeless := by
    constructor
    · intro ignores
      refine ⟨fun v w same => ignores.isInstance_eq v w ?_, ?_⟩
      · rwa [v.seen_placeless, w.seen_placeless] at same
      · rw [← RunIgnoresPlaces.eq_respects]
        exact ignores.members
    · intro respects
      refine ⟨fun v w same => respects.isInstance_eq v w ?_, ?_⟩
      · rwa [v.seen_placeless, w.seen_placeless]
      · rw [RunIgnoresPlaces.eq_respects]
        exact respects.members
  constructor
  · intro ignores
    refine ⟨fun t known => types.mp (ignores.types t known), ?_⟩
    rw [← RunIgnoresPlaces.eq_respects]
    exact ignores.cache
  · intro respects
    refine ⟨fun t known => types.mpr (respects.types t known), ?_⟩
    rw [RunIgnoresPlaces.eq_respects]
    exact respects.cache

/-- The standard host ignores places. -/
theorem Host.ignoresPlaces_standard {digest : Digest}
    : (standard digest).IgnoresPlaces :=
  Host.ignoresPlaces_iff.mpr Host.respects_standard

end IncrementalLisp
