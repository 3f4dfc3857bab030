import IncrementalLisp.Proofs.Levels.Tower
import IncrementalLisp.Proofs.Places.Host
import IncrementalLisp.Proofs.View.Tower

/-! Places do not matter to programs. Forms that differ only in the places of their lists run to the
same ends: to values that equal the same values and contexts that define the same nodes, or to the
same error, up to places. What does matter is whether a list has a place at all, because a node that
is put at one is a new node, and programs can tell nodes apart.
-/

namespace IncrementalLisp

open Filter Machine

-----------------------------------------------------------------------------------------
-- Machines
-----------------------------------------------------------------------------------------

/-- What an evaluation comes to, without places. -/
def unplacedState (x : Value × ContextId)
    : Value × ContextId :=
  (x.1.unplaced, x.2)

/-- What is seen of the end of a run without places is the run's value without places. -/
theorem seenState_placeless
    : seenState .placeless = unplacedState :=
  funext fun x => congrArg (·, x.2) x.1.seen_placeless

/-- A machine that does the same, up to places, with what is the same up to places. -/
abbrev Machine.IgnoresPlaces (m : Machine)
    : Prop :=
  m.Respects .placeless

/-- The machines of all levels ignore places, as they respect any view. -/
theorem Machine.ignoresPlaces_ofLevels (level : Nat)
    : (ofLevels level).IgnoresPlaces :=
  respects_ofLevels .placeless level

/-- A form runs like the form without places. -/
theorem Machine.IgnoresPlaces.runForm {m : Machine} (machines : m.IgnoresPlaces) (config : Config)
    (form : Value) (c : ContextId)
    : Run.Agree .placeless unplacedState (m.runForm config form c)
        (m.runForm config form.unplaced c) := by
  rw [← seenState_placeless]
  exact Respects.runForm machines config (by simp) c

-----------------------------------------------------------------------------------------
-- Forms
-----------------------------------------------------------------------------------------

/-- (EndsTogether f o o') says that two outcomes differ only in places, which f takes from
results.
-/
inductive Run.EndsTogether {α : Type} (f : α → α)
    : Except Halt α × Store → Except Halt α × Store → Prop where
  | ok {a b : α} {st st' : Store} (same : f a = f b)
      (stores : st.seen .placeless = st'.seen .placeless)
      : EndsTogether f (.ok a, st) (.ok b, st')
  | error {e e' : EvalError} {st st' : Store} (same : e.unplaced = e'.unplaced)
      (stores : st.seen .placeless = st'.seen .placeless)
      : EndsTogether f (.error (.error e), st) (.error (.error e'), st')
  | outOfFuel {st st' : Store} (stores : st.seen .placeless = st'.seen .placeless)
      : EndsTogether f (.error .outOfFuel, st) (.error .outOfFuel, st')

/-- Runs that agree with the same run end together. -/
theorem Run.Agree.together {α : Type} {f : α → α} {x y x' : Run α} (first : Agree .placeless f x x')
    (second : Agree .placeless f y x') (scope : Scope) {st : Store}
    (ignores : st.host.IgnoresPlaces)
    : EndsTogether f (x.outcome scope st) (y.outcome scope st) := by
  have fits : View.placeless.Fits [] st := ⟨Host.ignoresPlaces_iff.mp ignores, nofun⟩
  have alike : scope.LooksLike .placeless [] scope := .refl nofun
  have ends := first.ends alike rfl fits
  have ends' := second.ends alike rfl fits
  generalize x.outcome scope st = o, y.outcome scope st = o', x'.outcome scope st = u
    at ends ends' ⊢
  cases ends with
  | ok same stores _ =>
      cases ends' with
      | ok same' stores' _ => exact .ok (same.trans same'.symm) (stores.trans stores'.symm)
  | error same stores _ =>
      cases ends' with
      | error same' stores' _ =>
          refine .error ?_ (stores.trans stores'.symm)
          rw [← EvalError.seen_placeless, same, ← same', EvalError.seen_placeless]
  | outOfFuel stores =>
      cases ends' with
      | outOfFuel stores' => exact .outOfFuel (stores.trans stores'.symm)

namespace Store

variable {st st' : Store} (stores : st.seen .placeless = st'.seen .placeless) (c : ContextId)
include stores

/-- Stores that are the same without places have contexts that are. -/
theorem contexts_same
    : (st.context c).seen .placeless = (st'.context c).seen .placeless := by
  rw [← context_seen, stores, context_seen]

/-- Such contexts have the same symbols. -/
theorem symbols_same
    : (st.context c).symbols = (st'.context c).symbols := by
  rw [← Context.symbols_seen (V := .placeless), contexts_same stores, Context.symbols_seen]

/-- Such contexts have the same nodes at a symbol, without places. -/
theorem nodes_same (s : Symbol)
    : ((st.context c).slots[s]?).map (·.node.unplaced)
      = ((st'.context c).slots[s]?).map (·.node.unplaced) := by
  have slots : ((st.context c).seen .placeless).slots[s]?
      = ((st'.context c).seen .placeless).slots[s]? := by
    rw [contexts_same stores]
  rw [Context.getElem?_slots_seen, Context.getElem?_slots_seen] at slots
  have nodes := congrArg (Option.map Slot.node) slots
  rw [Option.map_map, Option.map_map] at nodes
  have seen : Slot.node ∘ Slot.seen .placeless = fun slot => slot.node.unplaced :=
    funext fun slot => slot.node.seen_placeless
  rwa [seen] at nodes

end Store

/-- Forms that differ only in the places of their lists run to the same ends, for every host that
ignores places. If one has a value, the other has the same value up to places, which equals the
same values, and the contexts after them define the same symbols, by the same nodes up to places.
If one fails, the other fails with the same error, up to places.
-/
theorem Machine.runForm_ignores_places {st : Store} (ignores : st.host.IgnoresPlaces)
    {f g : Value} (same : f.unplaced = g.unplaced) (level : Nat) (config : Config) (c : ContextId)
    (scope : Scope)
    : let o := ((ofLevels level).runForm config f c).outcome scope st
      let o' := ((ofLevels level).runForm config g c).outcome scope st
      (∀ v d, o.1 = .ok (v, d)
          → ∃ w, o'.1 = .ok (w, d) ∧ v.unplaced = w.unplaced ∧ (∀ u : Value, (v == u) = (w == u))
            ∧ (o.2.context d).symbols = (o'.2.context d).symbols
            ∧ ∀ s : Symbol, ((o.2.context d).slots[s]?).map (·.node.unplaced)
                = ((o'.2.context d).slots[s]?).map (·.node.unplaced))
        ∧ (∀ e, o.1 = .error (.error e)
            → ∃ e', o'.1 = .error (.error e') ∧ e.unplaced = e'.unplaced)
        ∧ (o.1 = .error .outOfFuel → o'.1 = .error .outOfFuel) := by
  intro o o'
  have machines := ignoresPlaces_ofLevels level
  have ends : Run.EndsTogether unplacedState o o' :=
    (machines.runForm config f c).together (same ▸ machines.runForm config g c) scope ignores
  generalize o = o, o' = o' at ends
  cases ends with
  | @ok x y after after' same stores =>
      refine ⟨fun v d ran => ?_, fun e failed => ?_, fun out => ?_⟩
      · obtain rfl : x = (v, d) := Except.ok.inj ran
        obtain ⟨w, d'⟩ := y
        obtain ⟨values, rfl⟩ : v.unplaced = w.unplaced ∧ d = d' := Prod.mk.inj same
        refine ⟨w, rfl, values, fun u => ?_, Store.symbols_same stores d, Store.nodes_same stores d⟩
        rw [← Value.beq_unplaced v u, values, Value.beq_unplaced]
      · cases failed
      · cases out
  | error same _ =>
      refine ⟨fun v d ran => ?_, fun e failed => ?_, fun out => ?_⟩
      · cases ran
      · cases failed
        exact ⟨_, rfl, same⟩
      · cases out
  | outOfFuel _ =>
      refine ⟨fun v d ran => ?_, fun e failed => ?_, fun _ => rfl⟩
      · cases ran
      · cases failed

-----------------------------------------------------------------------------------------
-- Forms with other places, and forms without
-----------------------------------------------------------------------------------------

/-- A new store after definitions of expanders, and its last context. -/
def Store.withExpanders (host : Host) (expanders : List (Symbol × Expander))
    : ContextId × Store :=
  expanders.foldl
    (fun at_ e => at_.2.define at_.1 coreSpace e.1 (.constant (.expander e.2)) [])
    (first, start host)

/-- The definition of a quoted list, read from two files. -/
theorem Machine.definition_ignores_places
    : let define := SpecialForm.define.symbol
      let quote := SpecialForm.quote.symbol
      let st := Store.withExpanders .standard [(define, .form .define), (quote, .form .quote)]
      let form (place : Location) := Value.list [.symbol define, .symbol (.bare "a"),
        .list [.symbol quote, .list [.symbol (.bare "b")] (some place)] (some place)] (some place)
      let here := form ⟨"here", 1, 1⟩
      let there := form ⟨"there", 7, 3⟩
      let o := ((ofLevels 8).runForm .standard here st.1).outcome (.outermost 8) st.2
      let o' := ((ofLevels 8).runForm .standard there st.1).outcome (.outermost 8) st.2
      (st.2.host.IgnoresPlaces ∧ here.unplaced = there.unplaced)
        ∧ o.1 = .ok (.nil, 3)
        ∧ ∃ w, o'.1 = .ok (w, 3) ∧ Value.nil.unplaced = w.unplaced
            ∧ (o.2.context 3).symbols = (o'.2.context 3).symbols
            ∧ ∀ s : Symbol, ((o.2.context 3).slots[s]?).map (·.node.unplaced)
                = ((o'.2.context 3).slots[s]?).map (·.node.unplaced) := by
  intro define quote st form here there o o'
  have ignores : st.2.host.IgnoresPlaces := Host.ignoresPlaces_standard
  have same : here.unplaced = there.unplaced := rfl
  have ran : o.1 = .ok (.nil, 3) := by
    dsimp only [o, here, form, st, quote, define]
    rfl
  have ends := runForm_ignores_places ignores same 8 .standard st.1 (.outermost 8)
  obtain ⟨w, ran', values, -, symbols, nodes⟩ := ends.1 .nil 3 ran
  exact ⟨⟨ignores, same⟩, ran, w, ran', values, symbols, nodes⟩

/-- What forms that are equal without places can tell apart. An expander says whether the expansion
of its argument is the node that the definitions of functions expand to, which it is only in a list
without a place. A member of the host tells the file that a list was read from. And equal sets may
hand their items out in different orders.
-/
theorem Machine.places_told_apart
    : let defn := SpecialForm.defineFunction.symbol
      let define := SpecialForm.define.symbol
      let kept : Node := ⟨.sequence [.lookup define, .lookup defn], ∅, none, some 0⟩
      let ex := Symbol.bare "ex"
      let arg := Symbol.bare "form"
      let expansion := Node.of (.apply (.lookup ex) [.lookup arg])
      let compare := Node.of (.apply (.constant (.function (.builtin .equal)))
        [.constant (.node kept), expansion])
      let expanders := [(defn, .form .defineFunction),
        (define, .ofUser ⟨1, ex, [.bare "name", .bare "expr"], .constant (.node kept), []⟩),
        (.bare "kept?", .ofUser ⟨2, ex, [arg], compare, []⟩)]
      let made := Store.withExpanders .standard expanders
      let st := { made.2 with nextIdentity := 3 }
      let form (source : Option Location) := Value.listOf [.symbol (.bare "kept?"),
        .list [.symbol defn, .symbol (.bare "a"), .vector [], .int 1] source]
      let files : HostType := (HostType.plain "File" fun _ => false).withStatic "of" none
        fun args => .ok (.string (((args.head?.bind Value.location?).map (·.file)).getD ""))
      let seeing := Store.withExpanders ⟨[files], []⟩ [(.bare ".", .form .member)]
      let ask (file : String) := Value.listOf [.symbol (.bare "."), .symbol (.bare "File"),
        .listOf [.symbol (.bare "of"), .list [] (some ⟨file, 1, 1⟩)]]
      let pick (items : List Value) := Value.listOf
        [.node (.constant (.function (.builtin .first))), .set items]
      let scope := Scope.outermost 8
      ((form none == form (some ⟨"file", 1, 1⟩)) = true
          ∧ (∀ᶠ level in atTop,
              (((ofLevels level).runForm .standard (form none) made.1).outcome scope st).1
                = .ok (.bool true, 3))
          ∧ ∀ᶠ level in atTop,
              (((ofLevels level).runForm .standard (form (some ⟨"file", 1, 1⟩)) made.1).outcome
                scope st).1 = .ok (.nil, 3))
        ∧ ((ask "here" == ask "there") = true
          ∧ ∀ file ∈ ["here", "there"], ∀ᶠ level in atTop,
              (((ofLevels level).runForm .standard (ask file) seeing.1).outcome scope seeing.2).1
                = .ok (.string file, 1))
        ∧ (pick [.int 1, .int 2] == pick [.int 2, .int 1]) = true
        ∧ ∀ x ∈ [(1, 2), (2, 1)], ∀ᶠ level in atTop,
            (((ofLevels level).runForm .standard (pick [.int x.1, .int x.2]) seeing.1).outcome scope
                seeing.2).1
              = .ok (.int x.1, 1) := by
  intro defn define kept ex arg expansion compare expanders made st form files seeing ask pick scope
  refine ⟨⟨by decide, ?_, ?_⟩, ⟨by decide, fun file _ => ?_⟩, by decide, fun x among => ?_⟩
  · have came : (((ofLevels 10).runForm .standard (form none) made.1).outcome scope st).1
        = .ok (.bool true, 3) := by
      dsimp only [form, scope, st, made, expanders, compare, expansion, arg, ex, kept, define, defn]
      rfl
    exact eventually_of_end (x := fun m => m.runForm .standard (form none) made.1) inferInstance
      came nofun
  · have came : (((ofLevels 10).runForm .standard (form (some ⟨"file", 1, 1⟩)) made.1).outcome scope
        st).1 = .ok (.nil, 3) := by
      dsimp only [form, scope, st, made, expanders, compare, expansion, arg, ex, kept, define, defn]
      rfl
    exact eventually_of_end (x := fun m => m.runForm .standard (form (some ⟨"file", 1, 1⟩)) made.1)
      inferInstance came nofun
  · have came : (((ofLevels 8).runForm .standard (ask file) seeing.1).outcome scope seeing.2).1
        = .ok (.string file, 1) := by
      dsimp only [ask, scope, seeing, files]
      rfl
    exact eventually_of_end (x := fun m => m.runForm .standard (ask file) seeing.1) inferInstance
      came nofun
  · have came : (((ofLevels 8).runForm .standard (pick [.int x.1, .int x.2]) seeing.1).outcome scope
        seeing.2).1 = .ok (.int x.1, 1) := by
      rcases List.mem_pair.mp among with rfl | rfl <;>
        · dsimp only [pick, scope, seeing, files]
          rfl
    exact eventually_of_end (x := fun m => m.runForm .standard (pick [.int x.1, .int x.2]) seeing.1)
      inferInstance came nofun

end IncrementalLisp
