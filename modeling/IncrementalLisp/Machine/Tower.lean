import IncrementalLisp.Expansion.Expanders
import IncrementalLisp.Machine.Evaluate
import IncrementalLisp.Machine.Force

/-! The machines. Each has one level more than the machine it hands the parts of its work to, and
the lowest runs nothing. A run that finishes on one level finishes alike on every higher one, so
the number of levels bounds only how deeply activities may be nested.
-/

namespace IncrementalLisp

/-- The machine of a number of levels. -/
def Machine.ofLevels : Nat → Machine
  | 0 => .exhausted
  | n + 1 =>
      { eval := fun node c b =>
          Run.inContext c (Run.holding (.node node :: b.values) ((ofLevels n).evalNode node c b))
        call := fun callee args c => (ofLevels n).callValue callee args c
        force := fun slot c => Run.inContext c ((ofLevels n).forceSlot slot c)
        expand := fun e c form k =>
          Run.inContext c
            (Run.holding [.expander e, form, .expander k] ((ofLevels n).expandForm e c form k)) }

/-- The levels of the machine that programs run on. -/
def Machine.levels : Nat := 1000000

/-- The machine that programs run on. -/
def machine : Machine :=
  .ofLevels Machine.levels

end IncrementalLisp
