import IncrementalLisp.Proofs.Mirror.Expanders

/-! What the machines of a tower do is mirrored by a pass that one more level keeps: by the machines
of the same level, or by those of enough levels, as the filters of the levels say.
-/

namespace IncrementalLisp

open Machine

/-- (P.Sound F) says that the machine above one whose activities are mirrored evaluates the programs
that the pass relates alike.
-/
def Pass.Sound (F : Nat → Filter Nat) (P : Pass)
    : Prop :=
  ∀ {level : Nat}, (ofLevels level).Mirrored (F level) P
    → ∀ {n n' : Node} {b b' : Bindings} (c : ContextId), P.relates n n' → BindingsAlike P b b'
    → Run.Mirrored (F (level + 1)) P (EndsAlike P) ((ofLevels (level + 1)).eval n c b)
        fun k => (ofLevels k).eval n' c b'

/-- Every machine is mirrored by those of the levels of its filter. Witness: induction on its
levels.
-/
theorem Machine.mirrored_ofLevels {F : Nat → Filter Nat} {P : Pass}
    (raised : ∀ level, F (level + 1) = (F level).map (· + 1)) (sound : P.Sound F) (level : Nat)
    : (ofLevels level).Mirrored (F level) P := by
  induction level with
  | zero => exact ⟨fun _ _ _ => .exhausted, fun _ _ _ => .exhausted, fun _ _ => .exhausted,
      fun _ _ _ _ => .exhausted⟩
  | succ level ih =>
      have seen := unspecialized_ofLevels level
      have up {α β : Type} {Q : α → β → Prop} {x : Run α} {y : Nat → Run β}
          (mirrored : Run.Mirrored (F level) P Q x fun k => y (k + 1))
          : Run.Mirrored (F (level + 1)) P Q x y :=
        raised level ▸ mirrored.succ
      constructor
      case eval =>
        intro n n' b b' c related bindings
        rcases related with alike | relates
        · have evaluated := ih.evalNode alike.shape.related bindings c
          exact up ((evaluated.holdingProgram (.inl alike) bindings).inContext c)
        · exact sound ih c relates bindings
      case call => exact fun c callees values => up (ih.callValue seen callees values c)
      case force => exact fun c slots => up ((ih.forceSlot slots c).inContext c)
      case expand =>
        intro e e' k k' form form' c expanders forms conts
        have hand : ValuesAlike P [.expander e, form, .expander k]
            [.expander e', form', .expander k'] :=
          ⟨_, _, rfl, ⟨_, rfl, expanders⟩, _, _, rfl, forms, _, _, rfl, ⟨_, rfl, conts⟩, rfl⟩
        exact up (((ih.expandForm conts forms c seen expanders).holdingAlike hand).inContext c)

end IncrementalLisp
