import IncrementalLisp.Proofs.Prelude.Definitions

/-! The initial context, and what its functions on sequences compute there: map, filter and reduce
come to the list functions of these names where as many calls may be inside one another as the
sequence has items, and two more.
-/

namespace IncrementalLisp

open Filter Machine Store

-----------------------------------------------------------------------------------------
-- Calls on values
-----------------------------------------------------------------------------------------

/-- The call of a name on values, as a form. A value stands in it as the node that is constantly the
value.
-/
def callForm (name : String) (args : List Value)
    : Value :=
  .listOf (.symbol (.bare name) :: args.map fun v => .node (.constant v))

/-- (RunsTo config c st form R) says that in a context and a store a form is run to one of several
ends, and leaves the context as it was, on almost all machines.
-/
def RunsTo (config : Config) (c : ContextId) (st : Store) (form : Value)
    (R : Except Halt Value → Prop)
    : Prop :=
  ∃ r, R r ∧ ∀ᶠ level in atTop,
    (((ofLevels level).runForm config form c).start config.callLimit st).1 = r.map (·, c)

/-- A form runs to any weaker results. -/
theorem RunsTo.mono {config : Config} {c : ContextId} {st : Store} {form : Value}
    {R S : Except Halt Value → Prop} (runs : RunsTo config c st form R) (weaker : ∀ r, R r → S r)
    : RunsTo config c st form S := by
  obtain ⟨r, holds, came⟩ := runs
  exact ⟨r, weaker r holds, came⟩

section Calls

variable {base : Store} {defs : List (Symbol × Node)} {c : ContextId} {b : Bindings} {scope : Scope}
  {depth limit : Nat} {name : String}

/-- Constants come to the values that they are, by the rule for several nodes. -/
theorem EvaluatesAll.constants (vs : List Value)
    : EvaluatesAll base (vs.map .constant) c b depth limit (· = .ok vs) := by
  refine .given ?_
  rw [List.forall₂_map_left_iff]
  exact List.forall₂_same.mpr fun _ _ => .constant

/-- A value in the place of a form is the constant of it. -/
theorem comesTo_expandAll_values (vs : List Value)
    : ComesTo base (fun m => m.expandAll c (vs.map fun v => .node (.constant v)) (.initial limit))
        scope (.ok (vs.map .constant)) := by
  unfold expandAll
  induction vs generalizing scope with
  | nil => exact .pure
  | cons v vs ih =>
      have first : ComesTo base
          (fun m => m.expand (.initial limit) c (.node (.constant v)) (.initial limit)) scope
          (.ok (.constant v)) :=
        .succ (x := fun _ => pure (.constant v)) (scope.entering c) (fun _ _ => rfl) .pure
      simp only [List.map_cons, Run.gather]
      exact first.bind ((ComesTo.holding ih).bind .pure)

/-- The call of a name that is bound to no expander expands to its application to the values. -/
theorem Store.Stocked.comesTo_expand_callForm (stocked : base.Stocked defs c)
    (ordinary : expanderIn? defs (.bare name) = none)
    (member : memberCalled? (.bare name) = none) (args : List Value)
    : ComesTo base (fun m => m.expand (.initial limit) c (callForm name args) (.initial limit)) scope
        (.ok (.of (.apply (.lookup (.bare name)) (args.map .constant)))) := by
  let around := (scope.entering c).holding
    [.expander (.initial limit), callForm name args, .expander (.initial limit)]
  refine .succ (x := fun m => m.expandInitial c (callForm name args) (.initial limit)) around
    (fun _ _ => rfl) ?_
  refine (stocked.comesTo_expanderBound? (.bare name)).bind ?_
  rw [ordinary]
  dsimp only
  rw [member]
  have head : ComesTo base
      (fun m => m.expand (.initial limit) c (.symbol (.bare name)) (.initial limit))
      around (.ok (.lookup (.bare name))) :=
    .succ (x := fun _ => pure (.lookup (.bare name))) _ (fun _ _ => rfl) .pure
  exact head.bind ((ComesTo.holding (comesTo_expandAll_values args)).bind .pure)

/-- The call is run as that application, optimized or not, since its parts are simple already. -/
theorem Store.Stocked.yields_expandTop_callForm (stocked : base.Stocked defs c) {config : Config}
    (ordinary : expanderIn? defs (.bare name) = none)
    (member : memberCalled? (.bare name) = none) (args : List Value)
    : Yields base (fun m => m.expandTop config (callForm name args) c) scope fun n =>
        n.tree = .of (.apply (.lookup (.bare name)) (args.map .constant)) := by
  refine (yields_expandTop
    ((stocked.comesTo_expand_callForm ordinary member args).yields rfl)).mono ?_
  rintro _ ⟨_, a, rfl, rfl⟩
  unfold Config.prepared
  cases config.optimizes with
  | true =>
      change (Node.of (.apply (.lookup (.bare name)) (args.map .constant))).simplified a = _
      rw [Node.simplified_apply, List.map_map]
      rfl
  | false =>
      change Node.of (.apply (.lookup (.bare name)) (treesOf (args.map .constant))) = _
      rw [treesOf_eq_map, List.map_map]
      rfl

/-- A call comes to what its name replies, wherever nothing is called yet, as it is run as the
application to the values.
-/
theorem Store.Stocked.runsTo_callForm (stocked : base.Stocked defs c) {config : Config}
    (ordinary : expanderIn? defs (.bare name) = none)
    (member : memberCalled? (.bare name) = none) {n : Node}
    (listed : defs.lookup (Prelude.core name) = some n) {args : List Value}
    {R : Except Halt Value → Prop}
    (replies : Replies base (Prelude.core name) args 0 config.callLimit R)
    : RunsTo config c base (callForm name args) R := by
  have evaluates : Evaluates base (.of (.apply (.lookup (.bare name)) (args.map .constant))) c [] 0
      config.callLimit R := by
    refine .apply stocked.library rfl (stocked.complete listed) (.constants args) ?_ nofun
    rintro _ ⟨⟩
    exact replies
  have runs : EndsAmong base (fun m => m.runForm config (callForm name args) c)
      (.outermost config.callLimit) (leaving c R) :=
    (stocked.yields_expandTop_callForm ordinary member args).bindEnds fun n tree =>
      EndsAmong.holding (evaluates n _ tree ⟨rfl, rfl⟩)
  obtain ⟨r, after, holds, -, came⟩ := runs base stocked.standing
  cases r with
  | ok result =>
      obtain ⟨v, d⟩ := result
      obtain ⟨rfl, known⟩ := holds
      exact ⟨.ok v, known, came.mono fun level same => congrArg Prod.fst same⟩
  | error h => exact ⟨.error h, holds, came.mono fun level same => congrArg Prod.fst same⟩

end Calls

-----------------------------------------------------------------------------------------
-- The initial context
-----------------------------------------------------------------------------------------

/-- A stock does not depend on the arrangements of tables to come. -/
theorem Store.Stocked.arrangedBy {st : Store} {defs : List (Symbol × Node)} {c : ContextId}
    (stocked : st.Stocked defs c) (arrangements : Nat → Arrangement)
    : (st.arrangedBy arrangements).Stocked defs c := by
  obtain ⟨indexed, owned, remembered, stored, agrees, spelled, fixed⟩ := stocked.recalls.coherent
  exact stocked.of_standing
    ⟨rfl, rfl, ⟨indexed, owned, remembered, stored, agrees, spelled, fixed⟩, stocked.recalls.sound,
      stocked.recalls.known⟩

namespace Prelude

/-- A machine of few levels makes the initial context. -/
theorem corePrelude_ends
    : (((ofLevels 30).corePrelude first).outcome (.outermost Config.defaultCallLimit)
        (Store.start .standard)).1 ≠ .error .outOfFuel := by
  have ok : (((ofLevels 30).corePrelude first).outcome (.outermost Config.defaultCallLimit)
      (Store.start .standard)).1.isOk = true := by
    unfold corePrelude bootstrap
    rw [read_bootstrapText, read_coreText]
    decide +kernel
  intro exhausted
  rw [exhausted] at ok
  cases ok

/-- The initial context is stocked with its definitions. -/
theorem stocked_initial (arrangements : Nat → Arrangement)
    : ∃ c st, initial arrangements = (.ok c, st) ∧ ∃ v w, st.Stocked (coreDefs v w) c := by
  have comes : Comes (Store.start .standard) (fun m => m.corePrelude first)
      (.outermost Config.defaultCallLimit) _ := comes_corePrelude
  obtain ⟨c, st, ⟨v, w, stocked⟩, came⟩ := comes
  have made : onHost .standard (machine.corePrelude first) = (.ok c, st) :=
    outcome_eq_of_eventually (x := fun m => m.corePrelude first) inferInstance (by decide)
      corePrelude_ends came
  have arranged := congrArg (Prod.map id fun st : Store => st.arrangedBy arrangements) made
  exact ⟨c, st.arrangedBy arrangements, arranged, v, w, stocked.arrangedBy arrangements⟩

/-- In the initial context map, filter and reduce compute the list functions up to the bound on
calls inside one another, whatever the arrangements of tables. On a list or vector of n items, and
with a primitive that calls no function and succeeds on the arguments it is given, each takes n + 2
such calls: where these are allowed, map comes to the list of the answers in order, filter to that
of the items whose answers are not nil, and reduce to a fold from the left; where they are not, all
three fail as the calls come to the bound, so that the primitive is given the items before that
only. No collection has more items than 64 bits can count.
-/
theorem map_filter_reduce_compute_lists (arrangements : Nat → Arrangement)
    : ∃ c st, initial arrangements = (.ok c, st)
        ∧ ∀ (config : Config) (p : Primitive) (coll : Value) (xs : List Value), p ≠ .apply
          → coll.items? = some xs → xs.length < 2 ^ 64
          → (∀ g : Value → Value,
              (∀ a, ∀ x ∈ xs.take (config.callLimit - 1), p.answer a [x] = .ok (g x))
              → (∃ place, RunsTo config c st (callForm "map" [.function (.builtin p), coll])
                  (Within (xs.length + 2) config.callLimit (· = .list (xs.map g) place)))
                ∧ ∃ place, RunsTo config c st (callForm "filter" [.function (.builtin p), coll])
                    (Within (xs.length + 2) config.callLimit
                      (· = .list (xs.filter fun x => (g x).isTruthy) place)))
            ∧ ∀ init : Value, FoldsThrough p init (xs.take (config.callLimit - 1))
                → RunsTo config c st (callForm "reduce" [.function (.builtin p), init, coll])
                    (Within (xs.length + 2) config.callLimit (Folds p init xs)) := by
  obtain ⟨c, st, made, v, w, stocked⟩ := stocked_initial arrangements
  have library := stocked.library
  have sequential := sequential_coreDefs v w
  refine ⟨c, st, made, fun config p coll xs other items few =>
    ⟨fun g answers => ?mapping, fun init folds => ?reducing⟩⟩
  case mapping =>
    have mapped : Replies st (core "map") _ 0 config.callLimit _ :=
      answers_map library sequential other few (Nat.zero_le _) items answers
    have filtered : Replies st (core "filter") _ 0 config.callLimit _ :=
      answers_filter library sequential other few (Nat.zero_le _) items answers
    rw [Nat.zero_add] at mapped filtered
    exact ⟨⟨_, stocked.runsTo_callForm rfl rfl sequential.map mapped⟩,
      ⟨_, stocked.runsTo_callForm rfl rfl sequential.filter filtered⟩⟩
  case reducing =>
    have reduced : Replies st (core "reduce") _ 0 config.callLimit _ :=
      answers_reduce library sequential other few (Nat.zero_le _) items folds
    rw [Nat.zero_add] at reduced
    exact stocked.runsTo_callForm rfl rfl sequential.reduce reduced

/-- The primitive first on a vector of an empty vector and another, and the sum of two numbers. Two
items take four calls inside one another.
-/
theorem map_filter_reduce_on_two_items
    : let config (limit : Nat) : Config := ⟨coreSpace, true, 8, limit⟩
      let f := Value.function (.builtin .first)
      let coll := Value.vector [.vector [], .vector [.int 7]]
      let numbers := Value.listOf [.int 2, .int 3]
      ∃ c st, initial = (.ok c, st)
        ∧ (∃ place, RunsTo (config 4) c st (callForm "map" [f, coll])
            (· = .ok (.list [.nil, .int 7] place)))
        ∧ (∃ place, RunsTo (config 4) c st (callForm "filter" [f, coll])
            (· = .ok (.list [.vector [.int 7]] place)))
        ∧ RunsTo (config 4) c st (callForm "reduce" [.function (.builtin .add), .int 1, numbers])
            (· = .ok (.int 6))
        ∧ RunsTo (config 3) c st (callForm "map" [f, coll])
            (· = .error (.error (.stackOverflow 3 3))) := by
  intro config f coll numbers
  obtain ⟨c, st, made, computes⟩ := map_filter_reduce_compute_lists fun _ => .last
  -- the first item of the vector, or nil
  let g (v : Value) : Value := ((v.items?.getD []).head?).getD .nil
  have answers : ∀ a, ∀ x ∈ [Value.vector [], .vector [.int 7]],
      Primitive.first.answer a [x] = .ok (g x) := by
    rintro a x among
    rcases List.mem_pair.mp among with rfl | rfl
    · rfl
    · rfl
  obtain ⟨⟨place, mapped⟩, ⟨place', filtered⟩⟩ :=
    (computes (config 4) .first coll _ nofun rfl (by decide)).1 g answers
  obtain ⟨⟨_, overflown⟩, -⟩ :=
    (computes (config 3) .first coll _ nofun rfl (by decide)).1 g answers
  have through : FoldsThrough .add (.int 1) [.int 2, .int 3] := fun _ =>
    ⟨.int 3, rfl, fun _ => ⟨.int 6, rfl, trivial⟩⟩
  have summed := (computes (config 4) .add numbers _ nofun rfl (by decide)).2 (.int 1) through
  refine ⟨c, st, made, ⟨place, mapped.mono fun r within => ?_⟩,
    ⟨place', filtered.mono fun r within => ?_⟩, summed.mono fun r within => ?_,
    overflown.mono fun r within => within.of_not_le (by decide)⟩
  · obtain ⟨_, rfl, rfl⟩ := within.of_le (by decide)
    rfl
  · obtain ⟨_, rfl, rfl⟩ := within.of_le (by decide)
    rfl
  · obtain ⟨_, rfl, folds⟩ := within.of_le (by decide)
    exact congrArg Except.ok (Except.ok.inj (folds.foldlM_eq nofun .last)).symm

end Prelude

end IncrementalLisp
