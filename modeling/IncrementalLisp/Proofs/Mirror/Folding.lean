import IncrementalLisp.Proofs.Machine.Constants
import IncrementalLisp.Proofs.Mirror.Tower
import IncrementalLisp.Proofs.Node.Parts
import IncrementalLisp.Proofs.Node.Simplified

/-! Simplification as a pass: whatever the evaluation of a program that defines nothing comes to,
that of its simpler form comes to alike. A table of constants is made once when it is simplified,
but anew by every evaluation, so that there must be one order of all tables, or no such table.
-/

namespace IncrementalLisp

open Filter Machine

variable {F : Filter Nat} {P : Pass} {m : Machine} {n n' : Node} {b b' : Bindings} {a : Arrangement}

namespace Machine.Mirrored

variable [m.Steady] (machines : m.Mirrored atTop P) (bindings : BindingsAlike P b b')
    (c : ContextId)
include machines bindings

end Machine.Mirrored

end IncrementalLisp
