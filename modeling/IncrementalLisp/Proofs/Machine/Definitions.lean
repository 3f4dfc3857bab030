import IncrementalLisp.Proofs.Levels.Tower
import IncrementalLisp.Proofs.Machine.Constants
import IncrementalLisp.Proofs.Machine.Tower
import IncrementalLisp.Proofs.Store.Reached

/-! Definitions are lazy. To expand a call, a machine asks for the expander that its head is bound
to, and computes nothing else. So if the heads in a form are bound to no expanders, the form expands
to its literal translation and its definition succeeds, whatever else it mentions; but a head that
cannot be computed makes the definition fail.
-/

namespace IncrementalLisp

open Filter

-----------------------------------------------------------------------------------------
-- Forms of calls
-----------------------------------------------------------------------------------------

/-- Whether a list of forms is empty or a call: headed by a symbol that does not call a member. -/
def isCall : List Value → Bool
  | [] => true
  | .symbol s :: _ => (memberCalled? s).isNone
  | _ => false

/-- The symbol at the head of a list of forms, if there is one. -/
def headSymbol? : List Value → Option Symbol
  | .symbol s :: _ => some s
  | _ => none

mutual

/-- Whether every list in a form is empty or a call. -/
def Value.onlyCalls : Value → Bool
  | .list items _ => isCall items && allOnlyCalls items
  | .vector items => allOnlyCalls items
  | .set items => allOnlyCalls items
  | .map entries => entriesOnlyCalls entries
  | _ => true
termination_by structural form => form

/-- Whether every list in several forms is empty or a call. -/
def allOnlyCalls : List Value → Bool
  | [] => true
  | form :: rest => form.onlyCalls && allOnlyCalls rest
termination_by structural forms => forms

/-- Whether every list in the entries of a map form is empty or a call. -/
def entriesOnlyCalls : List (Value × Value) → Bool
  | [] => true
  | (key, v) :: rest => key.onlyCalls && (v.onlyCalls && entriesOnlyCalls rest)
termination_by structural entries => entries

end

mutual

/-- The heads of the lists in a form, in the order of their expansion. -/
def Value.heads : Value → List Symbol
  | .list items _ => (headSymbol? items).toList ++ headsOfAll items
  | .vector items => headsOfAll items
  | .set items => headsOfAll items
  | .map entries => headsOfEntries entries
  | _ => []
termination_by structural form => form

/-- The heads of the lists in several forms. -/
def headsOfAll : List Value → List Symbol
  | [] => []
  | form :: rest => form.heads ++ headsOfAll rest
termination_by structural forms => forms

/-- The heads of the lists in the entries of a map form. -/
def headsOfEntries : List (Value × Value) → List Symbol
  | [] => []
  | (key, v) :: rest => key.heads ++ (v.heads ++ headsOfEntries rest)
termination_by structural entries => entries

end

mutual

/-- A form of calls, read literally: lists are calls, symbols look-ups, and collections are made of
their items.
-/
def Value.translated : Value → Node
  | .list items source =>
      match translatedAll items with
      | [] => .constant (.list items source)
      | f :: args => (Node.of (.apply f args)).locatedAt source
  | .vector items => .of (.vector (translatedAll items))
  | .set items => .of (.set (translatedAll items))
  | .map entries => .of (.hashMap (translatedEntries entries))
  | .symbol s => .lookup s
  | .node n => n
  | form => .constant form
termination_by structural form => form

/-- Several forms of calls, read literally. -/
def translatedAll : List Value → List Node
  | [] => []
  | form :: rest => form.translated :: translatedAll rest
termination_by structural forms => forms

/-- The keys and values of a map form, read literally, one after the other. -/
def translatedEntries : List (Value × Value) → List Node
  | [] => []
  | (key, v) :: rest => key.translated :: v.translated :: translatedEntries rest
termination_by structural entries => entries

end

section References

variable {p : ContextId → Prop}

mutual

/-- The literal translation of a form refers to what the form does. Witness: by the form. -/
theorem among_translated
    : ∀ {form : Value}, Among p form.contexts → Among p form.translated.contexts
  | .list items source, among => by
      have parts : Among p (contextsOfNodes (translatedAll items)) := among_translatedAll among
      unfold Value.translated
      split
      · exact among
      · rename_i f args translated
        rw [translated] at parts
        rwa [Node.contexts_eq, Node.shape_locatedAt]
  | .vector _, among | .set _, among => among_translatedAll among
  | .map _, among => among_translatedEntries among
  | .symbol _, _ => among_nil
  | .node _, among | .function _, among | .expander _, among => among
  | .nil, among | .bool _, among | .int _, among | .float _, among | .char _, among
  | .string _, among | .keyword _, among | .type _, among => among
termination_by structural form => form

/-- So do those of several forms. -/
theorem among_translatedAll
    : ∀ {forms : List Value}, Among p (contextsOfAll forms)
        → Among p (contextsOfNodes (translatedAll forms))
  | [], among => among
  | form :: rest, among => by
      rw [contextsOfAll, among_append] at among
      rw [translatedAll, contextsOfNodes, among_append]
      exact ⟨among_translated among.1, among_translatedAll among.2⟩
termination_by structural forms => forms

/-- So do those of the keys and values of entries. -/
theorem among_translatedEntries
    : ∀ {entries : List (Value × Value)}, Among p (contextsOfEntries entries)
        → Among p (contextsOfNodes (translatedEntries entries))
  | [], among => among
  | (key, v) :: rest, among => by
      rw [contextsOfEntries, among_append, among_append] at among
      rw [translatedEntries, contextsOfNodes, contextsOfNodes, among_append, among_append]
      exact ⟨among_translated among.1.1, among_translated among.1.2,
        among_translatedEntries among.2⟩
termination_by structural entries => entries

end

end References

/-- The node that a definition of a form of calls stores, tables arranged as given. -/
def Value.defined (config : Config) (a : Arrangement) (form : Value)
    : Node :=
  (config.prepared a form.translated).specialized []

namespace Machine

open Run

-----------------------------------------------------------------------------------------
-- What a definition asks for
-----------------------------------------------------------------------------------------

/-- What a definition asks for: the expanders that some symbols are bound to, one after the other,
an arrangement of tables if nodes are optimized, and the current namespace.
-/
def lookUp (m : Machine) (config : Config) (c : ContextId) (heads : List Symbol)
    : Run (List (Option Expander) × Arrangement × String) := do
  let bound ← heads.mapM (m.expanderBound? c)
  let a ← arrangementIf config.optimizes
  return (bound, a, ← m.currentSpace c)

/-- (m.BoundToNone c scope heads st after) says that a machine finds no expanders when it asks for
those that some symbols are bound to, one after the other.
-/
def BoundToNone (m : Machine) (c : ContextId) (scope : Scope) (heads : List Symbol)
    (st after : Store)
    : Prop :=
  (heads.mapM (m.expanderBound? c)).outcome scope st = (.ok (heads.map fun _ => none), after)

/-- Without heads nothing is asked. -/
theorem BoundToNone.nil {m : Machine} {c : ContextId} {scope : Scope} {st after : Store}
    (none : m.BoundToNone c scope [] st after)
    : after = st := by
  unfold BoundToNone at none
  rw [List.mapM_nil, List.map_nil] at none
  cases none
  rfl

/-- Heads are bound to no expanders if the first ones are and then the others. -/
theorem BoundToNone.append {m : Machine} {c : ContextId} {scope : Scope}
    {heads others : List Symbol}
    {st after : Store} (none : m.BoundToNone c scope (heads ++ others) st after)
    : ∃ middle, m.BoundToNone c scope heads st middle ∧ m.BoundToNone c scope others middle after :=
  outcome_mapM_append_eq_ok.mp none

/-- What a definition asks for, one question after the other. -/
theorem outcome_lookUp_cons_eq_ok {m : Machine} {config : Config} {c : ContextId} {scope : Scope}
    {s : Symbol} {heads : List Symbol} {e? : Option Expander} {a : Arrangement} {space : String}
    {st after : Store}
    (found : (m.lookUp config c (s :: heads)).outcome scope st
      = (.ok (e? :: heads.map fun _ => none, a, space), after))
    : ∃ first looked drawn, (m.expanderBound? c s).outcome scope st = (.ok e?, first)
        ∧ m.BoundToNone c scope heads first looked
        ∧ (arrangementIf config.optimizes).outcome scope looked = (.ok a, drawn)
        ∧ (m.currentSpace c).outcome scope drawn = (.ok space, after) := by
  unfold lookUp at found
  rw [outcome_bind_eq_ok] at found
  obtain ⟨bound, looked, asked, found⟩ := found
  rw [outcome_bind_eq_ok] at found
  obtain ⟨b, drawn, arranged, found⟩ := found
  rw [outcome_bind_eq_ok] at found
  obtain ⟨_, _, named, ⟨⟩⟩ := found
  obtain ⟨first, one, others⟩ := outcome_mapM_cons_eq_ok.mp asked
  exact ⟨first, looked, drawn, one, others, arranged, named⟩

-----------------------------------------------------------------------------------------
-- Expansions
-----------------------------------------------------------------------------------------

/-- (Expands c scope limit form node st after) says that almost all machines expand the form to the
node, within a bound on nested expansions.
-/
def Expands (c : ContextId) (scope : Scope) (limit : Nat) (form : Value) (node : Node)
    (st after : Store)
    : Prop :=
  ∀ᶠ level in atTop,
    ((ofLevels level).expand (.initial limit) c form (.initial limit)).outcome scope st
      = (.ok node, after)

/-- The same of several forms. -/
def ExpandsAll (c : ContextId) (scope : Scope) (limit : Nat) (forms : List Value)
    (nodes : List Node) (st after : Store)
    : Prop :=
  ∀ᶠ level in atTop,
    ((ofLevels level).expandAll c forms (.initial limit)).outcome scope st = (.ok nodes, after)

section Expansions

variable {c : ContextId} {scope : Scope} {limit level : Nat} {st middle after : Store}

/-- No forms expand to no nodes, without any step. -/
theorem ExpandsAll.nil
    : ExpandsAll c scope limit [] [] st st :=
  .of_forall fun _ => rfl

/-- Several forms expand as the first one does and then the others, if its node refers to nothing
new.
-/
theorem ExpandsAll.cons {form : Value} {forms : List Value} {node : Node} {nodes : List Node}
    (hand : Among (scope.held · = true) node.contexts)
    (first : Expands c scope limit form node st middle)
    (rest : ExpandsAll c scope limit forms nodes middle after)
    : ExpandsAll c scope limit (form :: forms) (node :: nodes) st after := by
  have same : scope.holding [.node node] = scope :=
    Scope.holding_of_held (among_contextsOfAll.mpr (by simpa using hand))
  refine (Eventually.and first rest).mono fun _ both => ?_
  refine outcome_gather_cons_eq_ok.mpr ⟨middle, both.1, ?_⟩
  rw [same]
  exact both.2

/-- The expander that one machine finds, almost all find. -/
theorem eventually_bound {s : Symbol} {e? : Option Expander}
    (bound : ((ofLevels level).expanderBound? c s).outcome scope st = (.ok e?, after))
    : ∀ᶠ higher in atTop,
        ((ofLevels higher).expanderBound? c s).outcome scope st = (.ok e?, after) :=
  eventually_of_ok (x := fun m => m.expanderBound? c s) inferInstance bound

variable (inside : scope.entering c = scope)
include inside

/-- A form expands as the initial expander expands it, one level below. -/
theorem Expands.of_initial {form : Value} {node : Node}
    (hand : Among (scope.held · = true) form.contexts)
    (expanded : ∀ᶠ level in atTop,
        ((ofLevels level).expandInitial c form (.initial limit)).outcome scope st
          = (.ok node, after))
    : Expands c scope limit form node st after := by
  refine eventually_succ (fun level came => ?_) expanded
  change (inContext c (holding [.expander (.initial limit), form, .expander (.initial limit)]
    ((ofLevels level).expandInitial c form (.initial limit)))).outcome scope st = _
  rw [outcome_inContext, inside, outcome_holding, Scope.holding_form hand rfl rfl]
  exact came

/-- A call of a symbol that is bound to no expander expands to the call of its parts. -/
theorem Expands.call {s : Symbol} {args : List Value} {source : Option Location} {f : Node}
    {nodes : List Node} (hand : Among (scope.held · = true) (contextsOfAll args))
    (named : memberCalled? s = none)
    (bound : ((ofLevels level).expanderBound? c s).outcome scope st = (.ok none, middle))
    (parts : ExpandsAll c scope limit (.symbol s :: args) (f :: nodes) middle after)
    : Expands c scope limit (.list (.symbol s :: args) source)
        ((Node.of (.apply f nodes)).locatedAt source) st after := by
  refine .of_initial inside hand (((eventually_bound bound).and parts).mono fun higher both => ?_)
  obtain ⟨same, came⟩ := both
  obtain ⟨next, head, rest⟩ := outcome_gather_cons_eq_ok.mp came
  unfold expandInitial expandList
  dsimp only
  rw [outcome_bind_of_eq_ok same, named]
  exact (outcome_bind_of_eq_ok head).trans (outcome_bind_of_eq_ok rest)

omit inside in
mutual

/-- A form of calls expands to its literal translation if its heads are bound to no expanders, and
its expansion asks for these and does nothing else. Witness: by the form.
-/
theorem expands_of_onlyCalls (inside : scope.entering c = scope)
    : ∀ form : Value, form.onlyCalls = true → Among (scope.held · = true) form.contexts
        → ∀ {st after : Store}, (ofLevels level).BoundToNone c scope form.heads st after
          → Expands c scope limit form form.translated st after
  | .list items source => by
      intro only hand st after none
      unfold Value.onlyCalls at only
      rw [Bool.and_eq_true] at only
      have parts {start : Store}
          : (ofLevels level).BoundToNone c scope (headsOfAll items) start after
            → ExpandsAll c scope limit items (translatedAll items) start after :=
        expandsAll_of_onlyCalls inside items only.2 hand
      unfold Value.heads at none
      rcases items with _ | ⟨head, args⟩
      · obtain rfl := none.nil
        exact .of_initial inside hand (.of_forall fun _ => rfl)
      · cases head with
        | symbol s =>
            obtain ⟨middle, first, rest⟩ := outcome_mapM_cons_eq_ok.mp none
            exact .call inside hand (by simpa [isCall] using only.1) first (parts rest)
        | _ => cases only.1
  | .vector items | .set items => by
      intro only hand st after none
      have parts := expandsAll_of_onlyCalls inside items only hand none
      exact .of_initial inside hand (parts.mono fun _ came => outcome_bind_of_eq_ok came)
  | .map entries => by
      intro only hand st after none
      have parts := entriesExpand_of_onlyCalls inside entries only hand none
      exact .of_initial inside hand (parts.mono fun _ came => outcome_bind_of_eq_ok came)
  | .nil | .bool _ | .int _ | .float _ | .char _ | .string _ | .symbol _ | .keyword _
  | .function _ | .expander _ | .node _ | .type _ => by
      intro _ hand st after none
      obtain rfl := BoundToNone.nil none
      exact .of_initial inside hand (.of_forall fun _ => rfl)
termination_by structural form => form

/-- Several forms of calls expand to their literal translations, by the first and the others. -/
theorem expandsAll_of_onlyCalls (inside : scope.entering c = scope)
    : ∀ forms : List Value, allOnlyCalls forms = true
        → Among (scope.held · = true) (contextsOfAll forms)
        → ∀ {st after : Store}, (ofLevels level).BoundToNone c scope (headsOfAll forms) st after
          → ExpandsAll c scope limit forms (translatedAll forms) st after
  | [] => by
      intro _ _ st after none
      obtain rfl := BoundToNone.nil none
      exact .nil
  | form :: rest => by
      intro only hand st after none
      unfold allOnlyCalls at only
      rw [Bool.and_eq_true] at only
      rw [contextsOfAll, among_append] at hand
      obtain ⟨middle, first, others⟩ := BoundToNone.append none
      exact .cons (among_translated hand.1)
        (expands_of_onlyCalls inside form only.1 hand.1 first)
        (expandsAll_of_onlyCalls inside rest only.2 hand.2 others)
termination_by structural forms => forms

/-- So do the keys and values of entries. -/
theorem entriesExpand_of_onlyCalls (inside : scope.entering c = scope)
    : ∀ entries : List (Value × Value), entriesOnlyCalls entries = true
        → Among (scope.held · = true) (contextsOfEntries entries)
        → ∀ {st after : Store},
            (ofLevels level).BoundToNone c scope (headsOfEntries entries) st after
          → ExpandsAll c scope limit (entries.flatMap fun entry => [entry.1, entry.2])
              (translatedEntries entries) st after
  | [] => by
      intro _ _ st after none
      obtain rfl := BoundToNone.nil none
      exact .nil
  | (key, v) :: rest => by
      intro only hand st after none
      unfold entriesOnlyCalls at only
      rw [Bool.and_eq_true, Bool.and_eq_true] at only
      rw [contextsOfEntries, among_append, among_append] at hand
      obtain ⟨⟨keyHeld, valueHeld⟩, restHeld⟩ := hand
      obtain ⟨keyed, first, others⟩ := BoundToNone.append none
      obtain ⟨valued, second, others⟩ := BoundToNone.append others
      exact .cons (among_translated keyHeld)
        (expands_of_onlyCalls inside key only.1 keyHeld first)
        (.cons (among_translated valueHeld)
          (expands_of_onlyCalls inside v only.2.1 valueHeld second)
          (entriesExpand_of_onlyCalls inside rest only.2.2 restHeld others))
termination_by structural entries => entries

end

/-- A definition expands, to a node that defines the symbol, if its form does. -/
theorem expands_definition {d s : Symbol} {e : Value} {expr : Node} (source : Option Location)
    (hand : Among (scope.held · = true) e.contexts)
    (bound : ((ofLevels level).expanderBound? c d).outcome scope st
      = (.ok (some (.form .define)), middle))
    (expands : Expands c scope limit e expr middle after)
    : ∃ node, node.shape = .define s expr
        ∧ Expands c scope limit (.list [.symbol d, .symbol s, e] source) node st after := by
  let form := Value.list [.symbol d, .symbol s, e] source
  let defined := (Node.of (.define s expr)).locatedAt source
  have hand' : Among (scope.held · = true) form.contexts := by simpa [form] using hand
  have special : ∀ᶠ higher in atTop,
      ((ofLevels higher).expand (.form .define) c form (.initial limit)).outcome scope middle
        = (.ok defined, after) := by
    refine eventually_succ (fun higher came => ?_) expands
    change (inContext c (holding [.expander (.form .define), form, .expander (.initial limit)]
      ((ofLevels higher).expandSpecial .define c form _))).outcome scope middle = _
    rw [outcome_inContext, inside, outcome_holding, Scope.holding_form hand' rfl rfl]
    dsimp only [form, expandSpecial, expandSpecialList, expandDefine, nameIn]
    rw [LawfulMonad.pure_bind]
    exact outcome_bind_of_eq_ok (outcome_bind_of_eq_ok came)
  refine ⟨defined.including d, ?_, ?_⟩
  · rw [Node.shape_including, Node.shape_locatedAt]
    rfl
  · have both := (eventually_bound bound).and special
    refine .of_initial inside hand' (both.mono fun higher both => ?_)
    obtain ⟨same, came⟩ := both
    dsimp only [form, expandInitial, expandList]
    rw [outcome_bind_of_eq_ok same]
    exact outcome_bind_of_eq_ok came

end Expansions

-----------------------------------------------------------------------------------------
-- Definitions
-----------------------------------------------------------------------------------------

/-- The evaluation of a definition asks for the namespace and adds a context. -/
theorem evaluates_definition {c : ContextId} {scope : Scope} {level : Nat} {n expr : Node}
    {s : Symbol} {space : String} {st after : Store} (shape : n.shape = .define s expr)
    (named : ((ofLevels level).currentSpace c).outcome ((scope.entering c).holding [.node n]) st
      = (.ok space, after))
    : ∀ᶠ higher in atTop, ((ofLevels higher).eval n c []).outcome scope st
        = (.ok (.nil, (after.define c space s (expr.specialized []) []).1),
            (after.define c space s (expr.specialized []) []).2) := by
  have almost := eventually_of_ok (x := fun m => m.currentSpace c) inferInstance named
  refine eventually_succ (fun higher same => ?_) almost
  change ((ofLevels higher).evalNode n c []).outcome ((scope.entering c).holding [.node n]) st = _
  unfold evalNode
  rw [shape]
  exact outcome_bind_of_eq_ok (outcome_bind_of_eq_ok same)

/-- What a definition of a form is run as refers to what the form does. -/
theorem among_prepared {p : ContextId → Prop} {config : Config} {a : Arrangement} {n expr : Node}
    {s : Symbol} (shape : n.shape = .define s expr) (among : Among p expr.contexts)
    : Among p (config.prepared a n).contexts := by
  have whole : Among p n.contexts := by
    rwa [Node.contexts_eq, shape]
  unfold Config.prepared
  split
  · exact Node.among_optimized whole
  · exact whole

/-- Definitions are lazy. If asking for the expanders that the head of a definition and then the
heads in its form are bound to, with the form at hand, finds the built-in definition and no others,
then the definition succeeds, whatever else the form mentions: it asks for these, for an arrangement
if it is optimized and for the namespace, and all that it does then is to add a context that defines
the symbol as the form, read literally.
-/
theorem definition_succeeds {config : Config} {c : ContextId} {scope : Scope} {st after : Store}
    {level : Nat} {d s : Symbol} {e : Value} {source : Option Location} {a : Arrangement}
    {space : String} (only : e.onlyCalls = true)
    (found : ((ofLevels level).lookUp config c (d :: e.heads)).outcome
          ((Scope.entering { scope with callLimit := config.callLimit } c).holding [e]) st
        = (.ok (some (.form .define) :: e.heads.map fun _ => none, a, space), after))
    : ∀ᶠ higher in atTop,
        ((ofLevels higher).runForm config (.list [.symbol d, .symbol s, e] source) c).outcome scope st
          = (.ok (.nil, (after.define c space s (e.defined config a) []).1),
              (after.define c space s (e.defined config a) []).2) := by
  let form := Value.list [.symbol d, .symbol s, e] source
  let running : Scope := { scope with callLimit := config.callLimit }
  let around := (running.entering c).holding [e]
  have formHeld : (running.entering c).holding [form] = around :=
    Scope.holding_congr fun _ => by simp [form, contextsOfAll]
  have inside : around.entering c = around := Scope.entering_of_held (by simp [around])
  have hand : Among (around.held · = true) e.contexts :=
    fun _ member => (Scope.held_holding ..).mpr (.inl (by simpa [contextsOfAll] using member))
  obtain ⟨first, looked, drawn, bound, none, arranged, named⟩ := outcome_lookUp_cons_eq_ok found
  have expands : Expands c around config.expansionLimit e e.translated first looked :=
    expands_of_onlyCalls inside e only hand none
  obtain ⟨n, shape, expanded⟩ := expands_definition (s := s) inside source hand bound expands
  have shape' : (config.prepared a n).shape = .define s (config.prepared a e.translated) := by
    unfold Config.prepared
    split
    · rw [Node.shape_optimized, shape]
      rfl
    · exact shape
  -- the node of the definition refers to nothing but what the form does
  have evaluatedIn : ((running.holding [form]).entering c).holding [.node (config.prepared a n)]
      = around := by
    rw [← Scope.holding_entering, formHeld]
    refine Scope.holding_of_held (among_contextsOfAll.mpr ?_)
    simpa using among_prepared shape (among_translated hand)
  change ((ofLevels level).currentSpace c).outcome around drawn = _ at named
  rw [← evaluatedIn] at named
  refine (expanded.and (evaluates_definition shape' named)).mono fun higher both => ?_
  obtain ⟨came, evaluated⟩ := both
  have arranged' : (arrangementIf config.optimizes).outcome running looked = (.ok a, drawn) := by
    rw [← arranged]
    unfold arrangementIf
    split <;> rfl
  have top : ((ofLevels higher).expandTop config form c).outcome running st
      = (.ok (config.prepared a n), drawn) := by
    unfold expandTop
    refine (outcome_bind_of_eq_ok ?_).trans (outcome_bind_of_eq_ok arranged')
    rw [outcome_expand_initial, formHeld]
    exact came
  exact (outcome_bind_of_eq_ok top).trans evaluated

/-- A definition whose form calls a symbol bound to a number and another that is not defined, and
mentions a third.
-/
theorem forward_reference_defined
    : let define := Symbol.bare "def"
      let f := Symbol.bare "f"
      let g := Symbol.bare "g"
      let e := Value.listOf [.symbol f, .vector [.listOf [.symbol g, .int 1], .symbol (.bare "h")]]
      let builtin := (Store.start .standard).define Store.first coreSpace define
        (.constant (.expander (.form .define))) []
      let bound := builtin.2.define builtin.1 coreSpace f (.constant (.int 5)) []
      let config := Config.standard
      let scope := Scope.outermost config.callLimit
      let found := ((ofLevels 4).lookUp config bound.1 [define, f, g]).outcome
        ((scope.entering bound.1).holding [e]) bound.2
      let after := found.2.define bound.1 coreSpace (.bare "s") (e.defined config .last) []
      (e.onlyCalls = true
          ∧ found = (.ok ([some (.form .define), none, none], .last, coreSpace), found.2))
        ∧ ∀ᶠ higher in atTop,
            ((ofLevels higher).runForm config
                (.listOf [.symbol define, .symbol (.bare "s"), e]) bound.1).outcome scope bound.2
              = (.ok (.nil, after.1), after.2) := by
  intro define f g e builtin bound config scope found after
  have only : e.onlyCalls = true := by decide
  have came : found = (.ok ([some (.form .define), none, none], .last, coreSpace), found.2) := by
    dsimp only [found, scope, config, bound, builtin, g, f, define]
    rfl
  exact ⟨⟨only, came⟩, definition_succeeds only came⟩

/-- Laziness ends at the heads. The symbol f is defined to be a call of a symbol that is not
defined, and so is bound to no expander; still the definition of a call of f fails, as f does.
-/
theorem failing_head_reported
    : let define := Symbol.bare "def"
      let f := Symbol.bare "f"
      let g := Symbol.bare "g"
      let e := Value.listOf [.symbol f, .int 2]
      let builtin := (Store.start .standard).define Store.first coreSpace define
        (.constant (.expander (.form .define))) []
      let config := Config.standard
      let scope := Scope.outermost config.callLimit
      let earlier := ((ofLevels 8).runForm config
        (.listOf [.symbol define, .symbol f, .listOf [.symbol g, .int 1]]) builtin.1).outcome
          scope builtin.2
      let c : ContextId := 2
      let inner := scope.entering c
      let unresolved := EvalError.unresolvedSymbol (.inSpace coreSpace "g")
      earlier.1 = .ok (.nil, c) ∧ earlier.2.Reached ∧ e.onlyCalls = true ∧ e.heads = [f]
        ∧ (∀ᶠ level in atTop,
            (((ofLevels level).expanderBound? c define).outcome inner earlier.2).1
              = .ok (some (.form .define)))
        ∧ (∀ level e',
            (((ofLevels level).expanderBound? c f).outcome inner earlier.2).1 ≠ .ok (some e'))
        ∧ ∀ᶠ level in atTop,
            (((ofLevels level).runForm config
                (.listOf [.symbol define, .symbol (.bare "s"), e]) c).outcome scope earlier.2).1
              = .error (.error unresolved) := by
  intro define f g e builtin config scope earlier c inner unresolved
  have reached : earlier.2.Reached := by
    have begun : builtin.2.Reached := .leads (.start _ _) (.single (.define ..))
    exact begun.outcome _ scope
  have defined : (((ofLevels 8).expanderBound? c define).outcome inner earlier.2).1
      = .ok (some (.form .define)) := by
    dsimp only [inner, earlier, scope, config, builtin, g, f, define]
    rfl
  have failed : (((ofLevels 8).expanderBound? c f).outcome inner earlier.2).1
      = .error (.error unresolved) := by
    dsimp only [inner, earlier, scope, config, builtin, g, f, define]
    rfl
  let form := Value.listOf [.symbol define, .symbol (.bare "s"), e]
  have reported : (((ofLevels 8).runForm config form c).outcome scope earlier.2).1
      = .error (.error unresolved) := by
    dsimp only [form, e, earlier, scope, config, builtin, g, f, define]
    rfl
  refine ⟨?_, reached, by decide, by decide, ?_, fun level e' found => ?_, ?_⟩
  · dsimp only [earlier, scope, config, builtin, g, f, define]
    rfl
  · exact eventually_of_end (x := fun m => m.expanderBound? c define) inferInstance defined nofun
  · have same := end_eq (x := fun m => m.expanderBound? c f) inferInstance failed nofun
      (by rw [found]; exact nofun)
    rw [found] at same
    cases same
  · exact eventually_of_end (x := fun m => m.runForm config form c) inferInstance reported nofun

end Machine

end IncrementalLisp
