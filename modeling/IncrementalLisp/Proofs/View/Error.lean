import IncrementalLisp.Error
import IncrementalLisp.Proofs.View.Equality

/-! Views of errors and of answers. Of an error a view sees the kind, the cause, and what it sees of
the values that the error names. Of the text of an error in a call it sees the words, and of the
places that the text tells what it sees of places.
-/

namespace IncrementalLisp

-----------------------------------------------------------------------------------------
-- Errors
-----------------------------------------------------------------------------------------

section Seen

variable (V : View)

/-- What a view sees of a piece of a text. -/
def Piece.seen : Piece → Piece
  | .words text => .words text
  | .place l => .place (V.place l)

/-- What a view sees of a text that may tell places. -/
def Wording.seen (w : Wording)
    : Wording :=
  w.map (Piece.seen V)

/-- What a view sees of a refusal. -/
def Fault.seen : Fault → Fault
  | .expected what got => .expected what (got.seen V)
  | .expectedIndex got => .expectedIndex (got.seen V)
  | .indexNotLong got => .indexNotLong (got.seen V)
  | .outOfCount index count => .outOfCount (index.seen V) count
  | .cannot deed on => .cannot deed (on.seen V)
  | .noSize v => .noSize (v.seen V)
  | .notIndexed v => .notIndexed (v.seen V)
  | .inCall text => .inCall (Wording.seen V text)
  | other => other

/-- What a view sees of a wrong part. -/
def PartFault.seen : PartFault → PartFault
  | .valueNotASymbol role got => .valueNotASymbol role (got.seen V)
  | other => other

/-- What a view sees of a failed call. -/
def CallFault.seen : CallFault → CallFault
  | .refused callee fault => .refused callee (fault.seen V)
  | .noReceiver member target => .noReceiver member (target.seen V)
  | other => other

/-- What a view sees of an error. -/
def EvalError.seen : EvalError → EvalError
  | .expansion fault form => .expansion fault (form.seen V)
  | .analysis fault form => .analysis (fault.seen V) (form.seen V)
  | .invocation fault none => .invocation (fault.seen V) none
  | .invocation fault (some cause) => .invocation (fault.seen V) (some cause.seen)
  | .reading error => .reading { error with location := V.source error.location }
  | .unresolvedSymbol s => .unresolvedSymbol s
  | .cyclicDependency s => .cyclicDependency s
  | .stackOverflow depth limit => .stackOverflow depth limit
  | .arity callee expected got => .arity callee expected got
  | .type expected got => .type expected got

end Seen

attribute [simp] EvalError.seen

variable {V : View}

/-- The wrong number of arguments shows nothing but numbers. -/
@[simp] theorem Fault.seen_argumentCount (least most got : Nat)
    : (Fault.argumentCount least most got).seen V = .argumentCount least most got :=
  rfl

/-- An index out of a collection shows the index as it is seen. -/
@[simp] theorem Fault.seen_outOfCount (index : Value) (count : Nat)
    : (Fault.outOfCount index count).seen V = .outOfCount (index.seen V) count :=
  rfl

/-- A refused call shows its fault as it is seen. -/
@[simp] theorem CallFault.seen_refused (callee : String) (fault : Fault)
    : (CallFault.refused callee fault).seen V = .refused callee (fault.seen V) :=
  rfl

/-- A call without a receiver shows its target as it is seen. -/
@[simp] theorem CallFault.seen_noReceiver (member : String) (target : Value)
    : (CallFault.noReceiver member target).seen V = .noReceiver member (target.seen V) :=
  rfl

/-- The wrong type of a value shows the name of its type alone. -/
@[simp] theorem EvalError.wrongType_seen (expected : String) (got : Value)
    : wrongType expected (got.seen V) = wrongType expected got := by
  simp [wrongType]

-----------------------------------------------------------------------------------------
-- Texts
-----------------------------------------------------------------------------------------

/-- A text without places is seen as it is. -/
@[simp] theorem Wording.seen_plain (text : String)
    : (Wording.plain text).seen V = .plain text :=
  rfl

/-- Wordings that are put together are seen one after the other. -/
@[simp] theorem Wording.seen_append (w x : Wording)
    : Wording.seen V (w ++ x) = w.seen V ++ x.seen V :=
  List.map_append

/-- The wording of a place shows the place as it is seen. -/
theorem Wording.seen_atPlace (source : Option Location)
    : (Wording.atPlace source).seen V = .atPlace (V.source source) := by
  cases source <;> rfl

/-- A view that sees places sees a text as it is. -/
theorem Wording.seen_of_places (places : V.places = true) (w : Wording)
    : w.seen V = w := by
  have same : Piece.seen V = id := by
    funext piece
    cases piece with
    | words => rfl
    | place l => exact congrArg Piece.place (if_pos places)
  rw [Wording.seen, same, List.map_id]

/-- A fault that is seen has its wording as it is seen, by its kind. -/
theorem Fault.wording_seen (fault : Fault)
    : (fault.seen V).wording = fault.wording.seen V := by
  cases fault with
  | expected | indexNotLong | cannot | noSize | notIndexed =>
      unfold seen wording
      dsimp only
      rw [Value.typeName_seen, Wording.seen_plain]
  | expectedIndex | outOfCount =>
      unfold seen wording
      dsimp only
      rw [Value.repr_seen, Wording.seen_plain]
  | _ => rfl

/-- A fault of a part has the message that it is seen with. -/
theorem PartFault.message_seen (fault : PartFault)
    : (fault.seen V).message = fault.message := by
  cases fault with
  | valueNotASymbol =>
      unfold seen message
      dsimp only
      rw [Value.repr_seen]
  | _ => rfl

/-- A fault of a call that is seen has its wording as it is seen. -/
theorem CallFault.wording_seen (fault : CallFault)
    : (fault.seen V).wording = fault.wording.seen V := by
  cases fault with
  | refused =>
      unfold seen wording
      dsimp only
      rw [Fault.wording_seen, Wording.seen_append, Wording.seen_plain]
  | noReceiver =>
      unfold seen wording
      dsimp only
      rw [Value.typeName_seen, Wording.seen_plain]
  | _ => rfl

/-- A form that is seen is its site as it is seen. -/
theorem EvalError.site_seen (form : Value)
    : site (form.seen V) = (site form).seen V := by
  unfold site
  rw [Value.location?_seen, Value.repr_seen, Wording.seen_append, Wording.seen_plain,
    Wording.seen_atPlace]

/-- The wording of what is seen of an error is what is seen of its wording. Witness: the values that
an error names are printed without their places.
-/
theorem EvalError.wording_seen (e : EvalError)
    : (e.seen V).wording = e.wording.seen V := by
  cases e with
  | expansion =>
      unfold seen wording
      dsimp only
      rw [site_seen, Wording.seen_append, Wording.seen_plain]
  | analysis =>
      unfold seen wording
      dsimp only
      rw [site_seen, PartFault.message_seen, Wording.seen_append, Wording.seen_plain]
  | invocation fault cause =>
      have same := congrArg (Wording.plain "Invocation error: " ++ ·) (fault.wording_seen (V := V))
      cases cause <;> exact same
  | reading error =>
      unfold seen wording ReadError.wording
      dsimp only
      rw [Wording.seen_append, Wording.seen_plain, Wording.seen_atPlace]
  | _ => rfl

/-- A view that sees places sees the texts of errors. -/
theorem EvalError.text_seen (places : V.places = true) (e : EvalError)
    : (e.seen V).text = e.text := by
  unfold text
  rw [wording_seen, Wording.seen_of_places places]

/-- The texts of errors that look alike look alike. -/
theorem EvalError.wording_same {e e' : EvalError} (same : e.seen V = e'.seen V)
    : e.wording.seen V = e'.wording.seen V := by
  rw [← wording_seen, same, wording_seen]

-----------------------------------------------------------------------------------------
-- Answers
-----------------------------------------------------------------------------------------

section Answers

variable (V) {α β : Type} (f : α → α) {g : β → β}

/-- What is seen of an answer: of a result by the given function, else of the refusal. -/
@[simp] def seenAnswer
    : Except Fault α → Except Fault α
  | .ok a => .ok (f a)
  | .error fault => .error (fault.seen V)

/-- What is seen of an answer that is a value. -/
abbrev seenResult
    : Except Fault Value → Except Fault Value :=
  seenAnswer V (Value.seen V)

/-- What is seen of the end of a call: of a result by the given function, else of the error. -/
@[simp] def seenEnd
    : Except EvalError α → Except EvalError α
  | .ok a => .ok (f a)
  | .error e => .error (e.seen V)

variable {V f}

/-- Functions one after the other answer as they are seen if each of them does. -/
theorem seenAnswer_bind {x x' : Except Fault α} {h h' : α → Except Fault β}
    (first : x' = seenAnswer V f x) (rest : ∀ a, h' (f a) = seenAnswer V g (h a))
    : x' >>= h' = seenAnswer V g (x >>= h) := by
  subst first
  cases x with
  | error fault => rfl
  | ok a => exact rest a

/-- A fold answers as it is seen if each step does. Witness: induction on the items. -/
theorem seenAnswer_foldlM {op : β → α → Except Fault β}
    (each : ∀ b a, op (g b) (f a) = seenAnswer V g (op b a)) (items : List α) (b : β)
    : (items.map f).foldlM op (g b) = seenAnswer V g (items.foldlM op b) := by
  induction items generalizing b with
  | nil => rfl
  | cons a rest ih =>
      simp only [List.map_cons, List.foldlM_cons]
      exact seenAnswer_bind (each b a) ih

/-- A sequence of answers is seen one by one. Witness: induction on the items. -/
theorem seenAnswer_mapM {op : α → Except Fault β}
    (each : ∀ a, op (f a) = seenAnswer V g (op a)) (items : List α)
    : (items.map f).mapM op = seenAnswer V (List.map g) (items.mapM op) := by
  induction items with
  | nil => rfl
  | cons a rest ih =>
      simp only [List.map_cons, List.mapM_cons]
      refine seenAnswer_bind (each a) fun b => ?_
      exact seenAnswer_bind ih fun bs => rfl

end Answers

end IncrementalLisp
