import IncrementalLisp.Proofs.Machine.Specialized
import IncrementalLisp.Proofs.View.Tower

/-! Substitution is complete: a program without host operations, into which the values of lexical
names were put, needs no lexical bindings any more. Its evaluation without bindings and the
evaluation of the program under them come to the same end, up to captured values and recorded
bindings of slots that nothing reads.
-/

namespace IncrementalLisp

open Machine

-----------------------------------------------------------------------------------------
-- Unread values
-----------------------------------------------------------------------------------------

/-- The view that leaves out captured values that nothing reads, if they refer to no contexts but
the given ones. It sees all else.
-/
def View.exceptUnread (contexts : List ContextId)
    : View :=
  ⟨true, some contexts⟩

/-- What is not read of bindings need not be there. -/
theorem Bindings.seen_of_unread {reads : Symbol → Bool} {b : Bindings}
    (unread : ∀ entry ∈ b, reads entry.1 = false)
    : seen (.exceptUnread (contextsOfBindings b)) reads b = [] := by
  unfold seen
  rw [List.map_eq_nil_iff, List.filter_eq_nil_iff]
  intro entry member
  have known : Among (· ∈ contextsOfBindings b) (contextsOfBindings b) := fun _ => id
  have drops : ∀ c ∈ entry.2.contexts, c ∈ contextsOfBindings b :=
    among_contextsOfBindings.mp known entry member
  simpa [unread entry member, View.drops, View.exceptUnread] using drops

/-- A node reads none of the names whose values were put into it. -/
theorem Node.unread_specialized {n : Node} (asks : n.AsksNoHost) (b : Bindings)
    : ∀ entry ∈ b, (n.specialized b).reads entry.1 = false := by
  intro entry member
  by_cases bare : entry.1.isQualified = false
  · have bound : b.lexical? entry.1 ≠ none := by
      unfold Bindings.lexical? Bindings.get?
      rw [bare, if_neg Bool.false_ne_true, ne_eq, List.lookup_eq_none_iff]
      exact fun other => by simpa using other entry member
    obtain ⟨v, bound⟩ := Option.ne_none_iff_exists'.mp bound
    exact Node.reads_specialized_of_bound asks bound
  · exact Bool.eq_false_iff.mpr fun read => bare (Node.bare_of_reads read)

-----------------------------------------------------------------------------------------
-- Outcomes
-----------------------------------------------------------------------------------------

/-- (V.Agrees o o') says that two outcomes of evaluations agree: both have run out of fuel, both are
errors that look alike and have the same text, or both are the same context and values that look
alike and equal the same values. The stores look alike in any case.
-/
inductive View.Agrees (V : View)
    : Except Halt (Value × ContextId) × Store → Except Halt (Value × ContextId) × Store
      → Prop where
  | succeeded {v w : Value} {c : ContextId} {st st' : Store} (values : v.seen V = w.seen V)
      (equal : ∀ u : Value, (v == u) = (w == u)) (stores : st.seen V = st'.seen V)
      : Agrees V (.ok (v, c), st) (.ok (w, c), st')
  | failed {e e' : EvalError} {st st' : Store} (errors : e.seen V = e'.seen V)
      (text : e.text = e'.text) (stores : st.seen V = st'.seen V)
      : Agrees V (.error (.error e), st) (.error (.error e'), st')
  | outOfFuel {st st' : Store} (stores : st.seen V = st'.seen V)
      : Agrees V (.error .outOfFuel, st) (.error .outOfFuel, st')

/-- Ends of evaluations that look alike agree, for a view that sees places. -/
theorem Run.SameEnd.agrees {V : View} {around : List ContextId}
    {o o' : Except Halt (Value × ContextId) × Store} (places : V.places = true)
    (ends : SameEnd V around (seenState V) o o')
    : V.Agrees o o' := by
  cases ends with
  | @ok x y st st' same stores _ =>
      obtain ⟨v, c⟩ := x
      obtain ⟨w, d⟩ := y
      obtain ⟨values, rfl⟩ : v.seen V = w.seen V ∧ c = d := Prod.mk.inj same
      refine .succeeded values (fun u => ?_) stores
      rw [← Value.beq_seen v u, values, Value.beq_seen]
  | error same stores _ =>
      refine .failed same ?_ stores
      rw [← EvalError.text_seen places, same, EvalError.text_seen places]
  | outOfFuel stores => exact .outOfFuel stores

/-- Substitution is complete. Take a program without host operations at any depth, and bindings
whose values refer to no contexts but those that are held, as bindings at hand do, in a store whose
host does not look into what functions captured and never read. The evaluation of the program with
the values put into it, without bindings, agrees with the evaluation of the program under the
bindings, up to captured values and bindings of slots that nothing reads. Witness: the names that
were bound are not read any more, so the bindings look like none.
-/
theorem Node.substitution_complete {n : Node} (asks : n.AsksNoHost) {b : Bindings} {scope : Scope}
    {st : Store} (held : ∀ c ∈ contextsOfBindings b, st.isHeld scope.held c = true)
    (respects : st.host.Respects (.exceptUnread (contextsOfBindings b))) (c : ContextId)
    (level : Nat)
    : (View.exceptUnread (contextsOfBindings b)).Agrees
        (((ofLevels level).eval (n.specialized b) c []).outcome scope st)
        (((ofLevels level).eval n c b).outcome scope st) := by
  let V : View := .exceptUnread (contextsOfBindings b)
  have unneeded : Bindings.seen V (n.specialized b).reads []
      = Bindings.seen V (n.specialized b).reads b :=
    (Bindings.seen_of_unread (Node.unread_specialized asks b)).symm
  have agree : Run.Agree V (seenState V) ((ofLevels level).eval (n.specialized b) c [])
      ((ofLevels level).eval (n.specialized b) c b) :=
    (Machine.respects_ofLevels V level).eval c rfl unneeded
  rw [Machine.unspecialized_ofLevels level n c (Bindings.Within.refl b)] at agree
  let around := (contextsOfBindings b).filter scope.held
  have alike : scope.LooksLike V around scope :=
    .refl fun c member => (List.mem_filter.mp member).2
  have kept : V.absorbed ⊆ around ++ st.kept := by
    intro c member
    have member : c ∈ contextsOfBindings b := member
    rcases Bool.or_eq_true_iff.mp (held c member) with near | far
    · exact List.mem_append_left _ (List.mem_filter.mpr ⟨member, near⟩)
    · exact List.mem_append_right _ (List.contains_iff_mem.mp far)
  exact (agree.ends alike rfl ⟨respects, kept⟩).agrees rfl

/-- A function literal that reads one of two names. Evaluated without bindings it captures none,
while evaluated under them it captures both, the function that it does not read included.
-/
theorem Node.literal_needs_no_bindings
    : let x := Symbol.bare "x"
      let unread := Function.closure ⟨0, [], none, .constant .nil, [], Store.first⟩
      let b := [(x, Value.int 1), (Symbol.bare "y", Value.function unread)]
      let literal := Node.of (.lambda [] none (.lookup x))
      let body := (Node.lookup x).specialized b
      let f (captured : Bindings) := Function.closure ⟨1, [], none, body, captured, Store.first⟩
      let scope := (Scope.outermost 1).entering Store.first
      let st := { Store.start .standard with nextIdentity := 1 }
      let after := { st with nextIdentity := 2 }
      let V := View.exceptUnread (contextsOfBindings b)
      (literal.AsksNoHost ∧ (∀ c ∈ contextsOfBindings b, st.isHeld scope.held c = true)
          ∧ st.host.Respects V)
        ∧ ((ofLevels 1).eval literal Store.first b).outcome scope st
          = (.ok (.function (f b), Store.first), after)
        ∧ V.Agrees (.ok (.function (f []), Store.first), after)
            (.ok (.function (f b), Store.first), after) := by
  intro x unread b literal body f scope st after V
  have asks : literal.AsksNoHost := by
    refine .of_parts rfl fun site member => ?_
    obtain rfl : site = ([], .lookup x) := List.mem_singleton.mp member
    exact .of_parts rfl nofun
  have held : ∀ c ∈ contextsOfBindings b, st.isHeld scope.held c = true := by
    decide
  have respects : st.host.Respects V := Host.respects_standard
  have agrees := Node.substitution_complete asks held respects Store.first 1
  have without : ((ofLevels 1).eval (literal.specialized b) Store.first []).outcome scope st
      = (.ok (.function (f []), Store.first), after) := by
    rfl
  have under : ((ofLevels 1).eval literal Store.first b).outcome scope st
      = (.ok (.function (f b), Store.first), after) := by
    rfl
  rw [without, under] at agrees
  exact ⟨⟨asks, held, respects⟩, under, agrees⟩

end IncrementalLisp
