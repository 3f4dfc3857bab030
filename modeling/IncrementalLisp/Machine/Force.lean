import IncrementalLisp.Machine.Basic

/-! Computing slots. A slot is computed once, in the context that owns it, switched to the
namespace in which the slot was defined. Once its owner no longer lives, a context in which the
slot is found takes the owner's place. A failure is not remembered.
-/

namespace IncrementalLisp.Machine

variable (m : Machine)

/-- The context in which a slot that is found in a context is computed. -/
def contextOf (slot : Slot) (finder : ContextId)
    : Run ContextId := do
  let c := if ← Run.isLiving slot.owner then slot.owner else finder
  if (← m.currentSpace c) == slot.space then return c
  else m.define c Symbol.currentSpace (.constant (.string slot.space)) []

/-- The value that a slot which is found in a context computes: that of its node. -/
def computeSlot (slot : Slot) (finder : ContextId)
    : Run Value :=
  match slot.node.constant? with
  | some v => pure v
  | none => Run.insideSlot slot do
      let c ← m.contextOf slot finder
      m.compute slot.node c slot.bindings

/-- The value of a slot that is found in a context. -/
def forceSlot (slot : Slot) (finder : ContextId)
    : Run Value := do
  match (← get).value? slot with
  | some v => return v
  | none =>
      let v ← m.computeSlot slot finder
      modify (·.remember slot v)
      return v

end IncrementalLisp.Machine
