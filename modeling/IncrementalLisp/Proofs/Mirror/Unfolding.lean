import IncrementalLisp.Proofs.Mirror.Folding

/-! Simplification taken back as a pass: whatever the evaluation of the simpler form of a program
that defines nothing comes to, that of the program comes to alike. What was left out ends as well.
-/

namespace IncrementalLisp

open Filter Machine

variable {F : Filter Nat} {P : Pass} {m : Machine} {level : Nat} {n : Node} {b b' : Bindings}
  {a : Arrangement}

/-- (m.Unfolds P a n) says that what the machine does with the simpler form of a node, the machines
of enough levels do with the node.
-/
def Machine.Unfolds (P : Pass) (a : Arrangement) (m : Machine) (n : Node)
    : Prop :=
  ∀ (c : ContextId) {b b' : Bindings}, BindingsAlike P b b'
    → Run.Mirrored atTop P (EndsAlike P) (m.eval (n.optimized a) c b) fun k =>
      (ofLevels k).eval n c b'

/-- A node whose simpler form is a constant has a value like it and leaves the context. -/
theorem Machine.Unfolds.constant (unfolds : (ofLevels (level + 1)).Unfolds P a n)
    (bindings : BindingsAlike P b b') (c : ContextId) {v : Value}
    (constant : (n.optimized a).shape = .constant v)
    : Run.Mirrored atTop P (EndsAlike P) (pure (v, c)) fun k => (ofLevels k).eval n c b' := by
  have known := unfolds c bindings
  rwa [eval_constant level c b constant] at known

section Sequences

variable {j : Nat}

end Sequences

section Shapes

variable (machines : (ofLevels level).Mirrored atTop P) (bindings : BindingsAlike P b b')
    (c : ContextId)
include machines bindings

end Shapes

end IncrementalLisp
