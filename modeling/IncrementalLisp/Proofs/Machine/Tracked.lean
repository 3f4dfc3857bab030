import IncrementalLisp.Proofs.Machine.Tower
import IncrementalLisp.Proofs.Value.Plain

/-! Machines that run only what the dependencies of a slot account for. They are the machines of
the tower, except that they end a run, as if it had no fuel left, in four situations: a name with
a namespace would be bound, the current namespace would be defined, an expander would be called,
or something would depend on the identity of a function, an expander or a node, by a comparison
or in the host. Where such a machine has a result, the machine of as many levels has the same.
-/

namespace IncrementalLisp

/-- Whether the keys of a map are plain, or the items of a set. -/
def Value.hasPlainKeys : Value → Bool
  | .map entries => entries.all fun (k, _) => k.isPlain
  | .set items => arePlain items
  | _ => true

/-- Whether a value, put into a map as an entry, has a plain key. -/
def Value.isPlainlyKeyed (v : Value)
    : Bool :=
  match v.items? with
  | some [k, _] => k.isPlain
  | _ => true

/-- Whether a primitive on some arguments compares at most plain values. -/
def Primitive.isTracked : Primitive → List Value → Bool
  | .equal, args => arePlain args.tail
  | .get, args => arePlain (args.tail.take 1)
  | .assoc, args => arePlain (args.tail.take 1)
  | .conj, .set _ :: items => arePlain items
  | .conj, .map _ :: items => items.all Value.isPlainlyKeyed
  | .conj, _ => true
  | .not, _ => true
  | .isNil, _ => true
  | .str, _ => true
  | .print, _ => true
  | .printLine, _ => true
  | .typeOf, _ => true
  | .count, _ => true
  | .first, _ => true
  | .rest, _ => true
  | .nth, _ => true
  | .cons, _ => true
  | .concat, _ => true
  | .vec, _ => true
  | .apply, _ => true
  | _, args => arePlain args

/-- Whether no parameter of a function has a namespace. -/
def Closure.bindsBare (f : Closure)
    : Bool :=
  (f.params ++ f.rest.toList).all fun s => !s.isQualified

namespace Machine

/-- A result of an evaluation, if a test holds of its value. -/
def onlyIf (test : Value → Bool) (x : Run (Value × ContextId))
    : Run (Value × ContextId) := do
  let (v, c) ← x
  if test v then return (v, c) else Run.exhausted

variable (m : Machine)

/-- The machine that evaluates nodes only to plain values. -/
def plainly : Machine :=
  { m with eval := fun node c b => onlyIf Value.isPlain (m.eval node c b) }

/-- The value of a node, and the context after it, where the dependencies account for it. -/
def evalTracked (node : Node) (c : ContextId) (b : Bindings)
    : Run (Value × ContextId) :=
  match node.shape with
  | .define s _ => if s.name == Symbol.currentSpace.name then Run.exhausted else m.evalNode node c b
  | .binding pairs _ =>
      if pairs.all fun (s, _) => !s.isQualified then m.evalNode node c b else Run.exhausted
  | .hashMap _ => onlyIf Value.hasPlainKeys (m.evalNode node c b)
  | .set _ => onlyIf Value.hasPlainKeys (m.evalNode node c b)
  | .invoke _ _ _ => onlyIf Value.isPlain (m.plainly.evalNode node c b)
  | .invokeStatic _ _ _ => onlyIf Value.isPlain (m.plainly.evalNode node c b)
  | .cast _ _ => onlyIf Value.isPlain (m.plainly.evalNode node c b)
  | .instanceOf _ _ => onlyIf Value.isPlain (m.plainly.evalNode node c b)
  | _ => m.evalNode node c b

/-- The value of a call, where the dependencies account for it. -/
def callTracked (callee : Value) (args : List Value) (c : ContextId)
    : Run Value :=
  match callee with
  | .function (.builtin p) =>
      if p.isTracked args then m.callPrimitive p args c else Run.exhausted
  | .function (.closure f) => if f.bindsBare then m.callClosure f args else Run.exhausted
  | .expander _ => Run.exhausted
  | other => m.callValue other args c

/-- The machine of a number of levels that runs what the dependencies account for. -/
def tracked : Nat → Machine
  | 0 => .exhausted
  | n + 1 =>
      { eval := fun node c b =>
          Run.inContext c
            (Run.holding (.node node :: b.values) ((tracked n).evalTracked node c b))
        call := fun callee args c => (tracked n).callTracked callee args c
        force := fun slot c => Run.inContext c ((tracked n).forceSlot slot c)
        expand := fun _ _ _ _ => Run.exhausted }

-----------------------------------------------------------------------------------------
-- What they do to the store
-----------------------------------------------------------------------------------------

section Courses

open Run

variable {P : Store → Store → Prop} [Course P] {m : Machine} [m.Follows P]

instance follows_onlyIf (test : Value → Bool) (x : Run (Value × ContextId)) [Run.Follows P x]
    : Run.Follows P (onlyIf test x) := by
  unfold onlyIf
  infer_instance

instance follows_plainly
    : m.plainly.Follows P where
  eval := fun node c b => follows_onlyIf Value.isPlain (m.eval node c b)
  call := Machine.Follows.call (m := m)
  force := Machine.Follows.force (m := m)
  expand := Machine.Follows.expand (m := m)

instance follows_evalTracked (node : Node) (c : ContextId) (b : Bindings)
    : Run.Follows P (m.evalTracked node c b) := by
  unfold evalTracked
  split <;> infer_instance

instance follows_callTracked (callee : Value) (args : List Value) (c : ContextId)
    : Run.Follows P (m.callTracked callee args c) := by
  unfold callTracked
  split <;> infer_instance

end Courses

/-- Every tracked machine keeps a course that its own slots keep. Witness: induction on its levels.
-/
instance follows_tracked {P : Store → Store → Prop} [Recollection tracked P] (n : Nat)
    : (tracked n).Follows P := by
  induction n with
  | zero =>
      constructor
      · exact fun _ _ _ => Run.Follows.exhausted
      · exact fun _ _ _ => Run.Follows.exhausted
      · exact fun _ => Course.refl
      · exact fun _ _ _ _ => Run.Follows.exhausted
  | succ n ih =>
      constructor
      · exact fun node c b => Run.Follows.inContext c (Run.holding _ _)
      · exact fun callee args c => follows_callTracked callee args c
      · exact fun found => follows_forceSlot tracked n found
      · exact fun _ _ _ _ => Run.Follows.exhausted

end Machine
end IncrementalLisp
