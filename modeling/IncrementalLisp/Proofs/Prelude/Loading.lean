import IncrementalLisp.Proofs.Node.Unchanged
import IncrementalLisp.Proofs.Prelude.Expansion
import IncrementalLisp.Session.Prelude

/-! Loading definitions into a stocked store. A form that is analysed as, or expands to, a
definition which fits adds the definition to the stock, and a list of such forms adds one after the
other.
-/

namespace IncrementalLisp

open Filter Machine

/-- (Comes st x scope P) says that from a store a run comes to a result with a property, which may
speak of the store after it, on almost all machines.
-/
def Comes {α : Type} (st : Store) (x : Machine → Run α) (scope : Scope) (P : α → Store → Prop)
    : Prop :=
  ∃ a after, P a after ∧ ∀ᶠ level in atTop, (x (.ofLevels level)).outcome scope st = (.ok a, after)

/-- A run that comes to a result and then another one come to what the other one does. -/
theorem Comes.bind {α β : Type} {st : Store} {x : Machine → Run α} {f : Machine → α → Run β}
    {scope : Scope} {P : α → Store → Prop} {Q : β → Store → Prop} (first : Comes st x scope P)
    (rest : ∀ a after, P a after → Comes after (fun m => f m a) scope Q)
    : Comes st (fun m => x m >>= f m) scope Q := by
  obtain ⟨a, middle, holds, came⟩ := first
  obtain ⟨b, after, holds', came'⟩ := rest a middle holds
  exact ⟨b, after, holds', eventually_bind came came'⟩

/-- A returned value comes to itself, without any step. -/
theorem Comes.pure {α : Type} {a : α} {st : Store} {scope : Scope} {P : α → Store → Prop}
    (holds : P a st)
    : Comes st (fun _ => Pure.pure a) scope P :=
  ⟨a, st, holds, .of_forall fun _ => rfl⟩

/-- What a run yields over a standing store it comes to, and the store stands afterwards. -/
theorem Yields.comes {α : Type} {base st : Store} {x : Machine → Run α} {scope : Scope}
    {P : α → Prop} (yields : Yields base x scope P) (standing : base.Standing st)
    : Comes st x scope fun a after => P a ∧ base.Standing after := by
  obtain ⟨a, after, holds, later, came⟩ := yields st standing
  exact ⟨a, after, ⟨holds, later⟩, came⟩

/-- A form is run as the node that it expands to, or as that node optimized with some arrangement of
the tables that become constants.
-/
theorem yields_expandTop {base : Store} {config : Config} {form : Value} {c : ContextId}
    {scope : Scope} {P : Node → Prop}
    (expands : Yields base
      (fun m => m.expand (.initial config.expansionLimit) c form (.initial config.expansionLimit))
      (scope.entering c) P)
    : Yields base (fun m => m.expandTop config form c) scope fun n =>
        ∃ n' a, P n' ∧ n = config.prepared a n' := by
  have outside : Yields base
      (fun m => m.expand (.initial config.expansionLimit) c form (.initial config.expansionLimit))
      scope P := by
    intro st standing
    obtain ⟨n, after, holds, later, came⟩ := expands st standing
    refine ⟨n, after, holds, later, came.mono fun level inside => ?_⟩
    rwa [← Run.outcome_inContext, inContext_expand] at inside
  exact outside.bind fun n holds => (yields_arrangementIf config.optimizes).bind fun a _ =>
    ComesTo.pure.yields ⟨n, a, holds, rfl⟩

namespace Store

variable {base st : Store} {defs : List (Symbol × Node)} {c : ContextId} {scope : Scope}
    {s : Symbol}
  {node expr n : Node} {form : Value}

/-- (Adds defs s P x) says that in a context stocked with definitions a run comes to a context in
which a symbol is defined, too, as a tree with a property.
-/
def Adds (defs : List (Symbol × Node)) (s : Symbol) (P : Node → Prop)
    (x : Machine → ContextId → Run (Value × ContextId))
    : Prop :=
  ∀ (base : Store) (c : ContextId) (scope : Scope), base.Stocked defs c
    → Comes base (fun m => x m c) scope fun result after =>
        ∃ tree, P tree ∧ after.Stocked ((s, tree) :: defs) result.2

namespace Stocked

/-- A definition that fits is made. -/
theorem comes_define (stocked : base.Stocked defs c) (standing : base.Standing st)
    (fits : Fits defs (s.qualify coreSpace) node.tree)
    : Comes st (fun m => m.define c s node []) scope fun c' after =>
        after.Stocked ((s.qualify coreSpace, node.tree) :: defs) c' := by
  have space : ComesTo base (fun m => m.currentSpace c) scope (.ok coreSpace) :=
    stocked.library.comesTo_currentSpace c
  obtain ⟨after, later, came⟩ := space st standing
  refine ⟨_, _, (stocked.of_standing later).define fits, came.mono fun level named => ?_⟩
  exact Run.outcome_bind_of_eq_ok named

/-- The evaluation of a definition that fits makes it. -/
theorem comes_eval (stocked : base.Stocked defs c) (standing : base.Standing st)
    (shape : n.shape = .define s expr) (fits : Fits defs (s.qualify coreSpace) expr.tree)
    : Comes st (fun m => m.eval n c []) scope fun result after =>
        after.Stocked ((s.qualify coreSpace, expr.tree) :: defs) result.2 := by
  let around := (scope.entering c).holding [.node n]
  have defines : Comes st (fun m => m.define c s expr []) around _ :=
    stocked.comes_define standing fits
  obtain ⟨c', after, defined, came⟩ := defines
  refine ⟨(.nil, c'), after, defined, Machine.eventually_succ (fun level made => ?_) came⟩
  change ((Machine.ofLevels level).evalNode n c []).outcome around st = _
  unfold evalNode
  simp only [shape, Node.specialized_nil]
  exact Run.outcome_bind_of_eq_ok made

end Stocked

/-- A form that expands to a definition which fits adds it. -/
theorem adds_runForm {config : Config} (optimizes : config.optimizes = true) {P : Node → Prop}
    (fits : ∀ tree, P tree → Fits defs (s.qualify coreSpace) tree)
    (expands : ∀ (base : Store) (c : ContextId) (scope : Scope), base.Stocked defs c
      → scope.entering c = scope
      → Yields base
          (fun m => m.expand (.initial config.expansionLimit) c form
            (.initial config.expansionLimit))
          scope fun n => ∀ a, ∃ tree, P tree ∧ n.simplified a = .of (.define s tree))
    : Adds defs (s.qualify coreSpace) P fun m c => m.runForm config form c := by
  intro base c scope stocked
  let running : Scope := { scope with callLimit := config.callLimit }
  have expanded : Yields base (fun m => m.expandTop config form c) running _ :=
    yields_expandTop (expands base c (running.entering c) stocked (running.entering_entering c))
  refine (expanded.comes stocked.standing).bind
    (f := fun m n => Run.holding [form] (m.eval n c [])) ?_
  rintro _ middle ⟨⟨n, a, expanded, rfl⟩, between⟩
  obtain ⟨tree, holds, simplified⟩ := expanded a
  unfold Config.prepared
  rw [if_pos optimizes]
  have shapes := Node.shape_of_tree simplified
  cases shape : (n.optimized a).shape <;> rw [shape] at shapes <;> cases shapes
  have evaluates : Comes middle (fun m => m.eval (n.optimized a) c []) (running.holding [form]) _ :=
    stocked.comes_eval between shape (fits _ holds)
  obtain ⟨result, after, defined, evaluated⟩ := evaluates
  exact ⟨result, after, ⟨_, holds, defined⟩, evaluated⟩

-----------------------------------------------------------------------------------------
-- Which definitions fit
-----------------------------------------------------------------------------------------

/-- Whether a tree is the name of the core namespace. -/
def namesCore (tree : Node)
    : Bool :=
  match tree.constant? with
  | some (.string space) => space == coreSpace
  | _ => false

/-- Whether a symbol can be defined as a tree where others are defined. -/
def fitsAmong (symbols : List Symbol) (s : Symbol) (tree : Node)
    : Bool :=
  !symbols.contains s && tree.isGiven && (s != .currentSpace || namesCore tree)
    && tree.dependencies.toList.all fun d => (s :: symbols).contains (d.qualify coreSpace)

/-- Whether symbols can be defined as trees, each where those before it are defined, too. -/
def fitAmong : List Symbol → List (Symbol × Node) → Bool
  | _, [] => true
  | symbols, (s, tree) :: rest => fitsAmong symbols s tree && fitAmong (s :: symbols) rest

/-- A symbol is defined if it is one of the names. Witness: by contraposition of the look-up. -/
theorem lookup_isSome_iff
    : (defs.lookup s).isSome ↔ s ∈ defs.map (·.1) := by
  rw [← not_iff_not, Bool.not_eq_true, Option.isSome_eq_false_iff, Option.isNone_iff_eq_none,
    List.lookup_eq_none_iff]
  simp only [List.mem_map, bne_iff_ne, ne_eq, not_exists, not_and]
  exact ⟨fun other e among same => other e among same.symm,
    fun other e among same => other e among same.symm⟩

/-- A symbol that is none of the names is not defined. -/
theorem lookup_eq_none (fresh : s ∉ defs.map (·.1))
    : defs.lookup s = none := by
  rwa [← lookup_isSome_iff, Bool.not_eq_true, Option.isSome_eq_false_iff,
    Option.isNone_iff_eq_none] at fresh

/-- A tree that passes the test on names fits the definitions, test by test. -/
theorem fits_of_fitsAmong {tree : Node} (fits : fitsAmong (defs.map (·.1)) s tree)
    : Fits defs s tree := by
  unfold fitsAmong at fits
  simp only [Bool.and_eq_true, Bool.not_eq_true', List.all_eq_true, Bool.or_eq_true,
    bne_iff_ne] at fits
  obtain ⟨⟨⟨fresh, given⟩, space⟩, closed⟩ := fits
  refine ⟨lookup_eq_none (by simpa using fresh), given, fun same => ?_, fun d uses => ?_⟩
  · have names := space.resolve_left (absurd same)
    unfold namesCore at names
    split at names
    · rename_i text constant
      rw [constant, beq_iff_eq.mp names]
    · cases names
  · rw [lookup_isSome_iff]
    simpa using closed d (Std.ExtTreeSet.mem_toList.mpr uses)

/-- A constant fits wherever its symbol is new. -/
theorem fits_constant {v : Value} (fresh : s ∉ defs.map (·.1)) (other : s ≠ .currentSpace)
    : Fits defs s (.constant v) := by
  refine ⟨lookup_eq_none fresh, rfl, fun same => absurd same other, fun d uses => ?_⟩
  have none : (Node.constant v).dependencies = ∅ := rfl
  rw [none] at uses
  exact absurd uses Std.ExtTreeSet.not_mem_empty

-----------------------------------------------------------------------------------------
-- Functions and macros
-----------------------------------------------------------------------------------------

/-- The names of the special forms are read as they are. -/
theorem isSpelled_symbol (f : SpecialForm)
    : f.symbol.IsSpelled := by
  have word : ∃ c ∈ f.symbol.toString.toList.head?, Reader.startsWord c := by
    cases f <;> exact ⟨_, rfl, by decide⟩
  have letters : (f.symbol.toString.toList.all fun c => !Reader.isDelimiter c) = true := by
    cases f <;> decide +kernel
  have read : Reader.readWord f.symbol.toString = .ok (.symbol f.symbol) := by cases f <;> rfl
  exact ⟨⟨word, Reader.undelimited_iff.mpr letters⟩, read⟩

section Forms

variable (bound : BindsForms defs) {source : Option Location} {params : Value} {body : List Value}
include bound

/-- The definition of a function that is analysed as a tree which fits adds the tree. -/
theorem adds_defineFunction {tree : Node}
    (readable : (headedBy .defineFunction source (.symbol s :: params :: body)).Readable)
    (literal
      : (headedBy .define source
          [.symbol s, headedBy .function source (params :: body)]).isLiteral)
    (commons
      : Commons defs (headedBy .define source
          [.symbol s, headedBy .function source (params :: body)]).codeLists)
    (analysis
      : (analysed (headedBy .define source
            [.symbol s, headedBy .function source (params :: body)])).map (Node.simplified .last)
        = .ok (.of (.define s tree)))
    (rigid : tree.isRigid) (fits : Fits defs (s.qualify coreSpace) tree)
    : Adds defs (s.qualify coreSpace) (· = tree) fun m c =>
        m.runForm Config.standard
          (headedBy .defineFunction source (.symbol s :: params :: body)) c := by
  obtain ⟨placed, -, name, parameters, parts⟩ := readable
  have plain : contextsOfAll (.symbol s :: params :: body) = [] :=
    contextsOfAll_of_readable ⟨name, parameters, parts⟩
  have readable : (headedBy .define source
      [.symbol s, headedBy .function source (params :: body)]).Readable :=
    ⟨placed, isSpelled_symbol .define, name,
      ⟨placed, isSpelled_symbol .function, parameters, parts⟩, trivial⟩
  refine adds_runForm rfl (fun _ same => same ▸ fits) fun base c scope stocked inside => ?_
  cases analysed : analysed (headedBy .define source
      [.symbol s, headedBy .function source (params :: body)]) with
  | error e =>
      rw [analysed] at analysis
      cases analysis
  | ok n =>
      rw [analysed] at analysis
      refine stocked.yields_defineFunction inside bound plain
        (P := fun t => ∃ found, found = tree ∧ t = .of (.define s found))
        ((stocked.yields_common inside readable literal commons analysed).mono ?_)
      -- the literal has no tables, so it is expanded to just this tree
      intro n' same a
      have reorders := same.reorders .last a
      rw [Except.ok.inj analysis] at reorders
      generalize expanded : n'.simplified a = found at reorders
      cases reorders with
      | define _ inner => exact ⟨tree, rfl, by rw [inner.eq_of_isRigid rigid]⟩

/-- The definition of a macro that answers a list of forms adds some constant. -/
theorem adds_defineMacro {params forms : List Value} {place : Option Location}
    {names : List Symbol × Option Symbol} (plain : contextsOfAll params = [])
    (literal : areLiteral params) (last : restIsLast params)
    (named : analysedParams .nil params = .ok names) (readable : AllReadable forms)
    (literals : areLiteral forms) (commons : Commons defs (codeListsOfAll forms)) {ns : List Node}
    (analysis : analysedAll forms = .ok ns)
    (fresh : s.qualify coreSpace ∉ defs.map (·.1)) (other : s.qualify coreSpace ≠ .currentSpace)
    : Adds defs (s.qualify coreSpace) (fun tree => ∃ v, tree = .constant v) fun m c =>
        m.runForm Config.standard
          (headedBy .defineMacro source [.symbol s, .vector params, headedBy .list place forms])
          c := by
  refine adds_runForm rfl ?_ fun base c scope stocked inside => ?_
  · rintro _ ⟨v, rfl⟩
    exact fits_constant fresh other
  · have answer : contextsOfAll [.vector params, headedBy .list place forms] = [] := by
      simp [contextsOfAll, headedBy, plain, contextsOfAll_of_readable readable]
    have definition : (headedBy .macroLiteral source
        [.vector params, headedBy .list place forms]).contexts = [] := answer
    have whole : contextsOfAll [.symbol s, .vector params, headedBy .list place forms] = [] :=
      answer
    refine stocked.yields_defineMacro inside bound whole
      (P := fun t => ∃ tree, (∃ v, tree = .constant v) ∧ t = .of (.define s tree)) ?_
    refine stocked.yields_define inside bound definition
      (P := fun t => ∃ v, t = .constant v) ?_
    refine stocked.yields_macroLiteral inside bound answer literal last named ?_
    exact stocked.yields_list inside bound readable literals commons analysis

end Forms

-----------------------------------------------------------------------------------------
-- Definitions one behind the other
-----------------------------------------------------------------------------------------

/-- Constants that fit are defined. -/
theorem comes_defineConstants {entries : List (Symbol × Value)}
    (qualified : ∀ entry ∈ entries, entry.1.isQualified)
    (fit : fitAmong (defs.map (·.1)) (entries.map fun entry => (entry.1, .constant entry.2)))
    (stocked : base.Stocked defs c)
    : Comes base (fun m => m.defineConstants entries c) scope fun c' after =>
        after.Stocked ((entries.map fun entry => (entry.1, .constant entry.2)).reverse ++ defs)
          c' := by
  induction entries generalizing base defs c with
  | nil => exact .pure stocked
  | cons entry entries ih =>
      obtain ⟨s, v⟩ := entry
      obtain ⟨first, rest⟩ := Bool.and_eq_true_iff.mp fit
      rw [List.forall_mem_cons] at qualified
      have own := Symbol.qualify_of_isQualified coreSpace qualified.1
      have fits : Fits defs (s.qualify coreSpace) (Node.constant v).tree := by
        rw [own]
        exact fits_of_fitsAmong first
      refine (stocked.comes_define stocked.standing fits).bind fun c' after defined => ?_
      rw [own] at defined
      rw [List.map_cons, List.reverse_cons, List.append_assoc]
      exact ih qualified.2 rest defined

/-- (Supplies defs Q x) says that in a context stocked with definitions a run comes to a context
that is stocked with definitions of which something holds.
-/
def Supplies (defs : List (Symbol × Node)) (Q : List (Symbol × Node) → Prop)
    (x : Machine → ContextId → Run (Value × ContextId))
    : Prop :=
  ∀ (base : Store) (c : ContextId) (scope : Scope), base.Stocked defs c
    → Comes base (fun m => x m c) scope fun result after =>
        ∃ defs', Q defs' ∧ after.Stocked defs' result.2

variable {Q : List (Symbol × Node) → Prop} {forms : List Value} {config : Config}

/-- To run no forms adds no definitions. -/
theorem supplies_runForms_nil (holds : Q defs) (last : Value)
    : Supplies defs Q fun m c => m.runForms config [] last c :=
  fun _ _ _ stocked => .pure ⟨defs, holds, stocked⟩

/-- Forms add what the first adds and, in the context that it leaves, the others. -/
theorem supplies_runForms_cons {P : Node → Prop}
    (adds : Adds defs s P fun m c => m.runForm config form c)
    (rest : ∀ tree last, P tree
      → Supplies ((s, tree) :: defs) Q fun m c => m.runForms config forms last c)
    (last : Value)
    : Supplies defs Q fun m c => m.runForms config (form :: forms) last c := by
  intro base c scope stocked
  have first : Comes base (fun m => Run.holding [last] (m.runForm config form c)) scope _ :=
    adds base c (scope.holding [last]) stocked
  refine first.bind fun result after defined => ?_
  obtain ⟨tree, holds, defined⟩ := defined
  exact rest tree result.1 holds after result.2 scope defined

section Forms

variable (bound : BindsForms defs) {source : Option Location}
include bound

/-- The definition of a function that fits, and then others, which find the function defined. -/
theorem supplies_defineFunction {params : Value} {body : List Value} {tree : Node}
    (readable : (headedBy .defineFunction source (.symbol s :: params :: body)).Readable)
    (literal
      : (headedBy .define source
          [.symbol s, headedBy .function source (params :: body)]).isLiteral)
    (commons
      : Commons defs (headedBy .define source
          [.symbol s, headedBy .function source (params :: body)]).codeLists)
    (analysis
      : (analysed (headedBy .define source
            [.symbol s, headedBy .function source (params :: body)])).map (Node.simplified .last)
        = .ok (.of (.define s tree)))
    (rigid : tree.isRigid) (fits : fitsAmong (defs.map (·.1)) (s.qualify coreSpace) tree)
    (rest
      : BindsForms ((s.qualify coreSpace, tree) :: defs) → ∀ last,
          Supplies ((s.qualify coreSpace, tree) :: defs) Q fun m c =>
            m.runForms Config.standard forms last c)
    (last : Value)
    : Supplies defs Q fun m c =>
        m.runForms Config.standard
          (headedBy .defineFunction source (.symbol s :: params :: body) :: forms) last c := by
  have fits := fits_of_fitsAmong fits
  refine supplies_runForms_cons
    (adds_defineFunction bound readable literal commons analysis rigid fits)
    (fun _ last made => ?_) last
  obtain rfl := made
  exact rest (bound.cons fits.fresh _) last

/-- The definition of a macro, and then others, which find some constant defined. -/
theorem supplies_defineMacro {params items : List Value} {place : Option Location}
    {names : List Symbol × Option Symbol} (plain : contextsOfAll params = [])
    (literal : areLiteral params) (final : restIsLast params)
    (named : analysedParams .nil params = .ok names) (readable : AllReadable items)
    (literals : areLiteral items) (commons : Commons defs (codeListsOfAll items)) {ns : List Node}
    (analysis : analysedAll items = .ok ns) (other : s.qualify coreSpace ≠ .currentSpace)
    (fresh : s.qualify coreSpace ∉ defs.map (·.1))
    (rest
      : ∀ v, BindsForms ((s.qualify coreSpace, .constant v) :: defs) → ∀ last,
          Supplies ((s.qualify coreSpace, .constant v) :: defs) Q fun m c =>
            m.runForms Config.standard forms last c)
    (last : Value)
    : Supplies defs Q fun m c =>
        m.runForms Config.standard
          (headedBy .defineMacro source [.symbol s, .vector params, headedBy .list place items]
            :: forms) last c := by
  refine supplies_runForms_cons
    (adds_defineMacro bound plain literal final named readable literals commons analysis fresh
      other)
    (fun _ last made => ?_) last
  obtain ⟨v, rfl⟩ := made
  exact rest v (bound.cons (lookup_eq_none fresh) _) last

end Forms

/-- The symbol that a form defines as it is analysed, and as what. -/
def definition? (form : Value)
    : Option (Symbol × Node) :=
  match analysed form with
  | .ok n =>
      match n.shape with
      | .define s expr => some (s.qualify coreSpace, expr.tree)
      | _ => none
  | .error _ => none

/-- Forms that are analysed as definitions add them, if these fit. -/
theorem supplies_loadForms {entries : List (Symbol × Node)}
    (defined : forms.map definition? = entries.map some) (fit : fitAmong (defs.map (·.1)) entries)
    (last : Value)
    : Supplies defs (· = entries.reverse ++ defs) fun m c => m.loadForms forms last c := by
  induction forms generalizing entries defs last with
  | nil =>
      obtain rfl := List.map_eq_nil_iff.mp defined.symm
      exact fun _ _ _ stocked => .pure ⟨defs, rfl, stocked⟩
  | cons form forms ih =>
      obtain ⟨⟨s, tree⟩, entries, rfl, first, rest⟩ := List.map_eq_cons_iff.mp defined.symm
      obtain ⟨fits, others⟩ := Bool.and_eq_true_iff.mp fit
      intro base c scope stocked
      unfold definition? at first
      cases analysis : analysed form with
      | error e =>
          rw [analysis] at first
          cases first
      | ok n =>
          rw [analysis] at first
          dsimp only at first
          cases shape : n.shape <;> rw [shape] at first <;> cases first
          unfold loadForms
          simp only [analysis]
          have evaluated : Comes base (fun m => Run.holding [last] (m.eval n c [])) scope _ :=
            stocked.comes_eval stocked.standing shape (fits_of_fitsAmong fits)
          refine evaluated.bind fun result after defined => ?_
          rw [List.reverse_cons, List.append_assoc]
          refine ih rest.symm ?_ result.1 after result.2 scope defined
          exact others

end Store

end IncrementalLisp
