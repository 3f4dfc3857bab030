import IncrementalLisp.Proofs.Machine.Analysis
import IncrementalLisp.Proofs.Prelude.Stocked

/-! Expansion in a stocked context. Which expanders the heads of a form are bound to is known from
the definitions, so forms of the common language expand to what analysis makes of them, and forms
that stand for others to what these expand to.
-/

namespace IncrementalLisp

open Filter Machine

/-- The expander that definitions bind a symbol to. -/
def expanderIn? (defs : List (Symbol × Node)) (s : Symbol)
    : Option Expander :=
  match defs.lookup (s.qualify coreSpace) with
  | none => none
  | some n =>
      match n.constant? with
      | some (.expander e) => some e
      | _ => none

/-- The expander that definitions bind the head of a list to. -/
def headIn? (defs : List (Symbol × Node)) (items : List Value)
    : Option Expander :=
  (headSymbol? items).bind (expanderIn? defs)

/-- (Commons defs lists) says that lists in code position belong to the common language, and that
their heads are bound to the special forms of that language or to no expanders.
-/
structure Commons (defs : List (Symbol × Node)) (lists : List (List Value)) : Prop where
  common : ∀ items ∈ lists, isCommon items
  heads : lists.map (headIn? defs) = lists.map commonHead?

/-- (BindsForms defs) says that definitions bind the symbol of each special form to the form. -/
def BindsForms (defs : List (Symbol × Node))
    : Prop :=
  ∀ f : SpecialForm, expanderIn? defs f.symbol = some (.form f)

/-- The definition of a new symbol binds no special form anew. -/
theorem BindsForms.cons {defs : List (Symbol × Node)} {s : Symbol} (bound : BindsForms defs)
    (fresh : defs.lookup s = none) (tree : Node)
    : BindsForms ((s, tree) :: defs) := by
  intro f
  have known := bound f
  unfold expanderIn? at known ⊢
  cases listed : defs.lookup (f.symbol.qualify coreSpace) with
  | none =>
      rw [listed] at known
      cases known
  | some n =>
      rw [listed] at known
      rw [Store.lookup_cons_of_lookup fresh listed]
      exact known

namespace Store.Stocked

variable {base : Store} {defs : List (Symbol × Node)} {c : ContextId} {scope : Scope} {limit : Nat}
  (stocked : base.Stocked defs c)
include stocked

/-- The expander that a symbol is bound to is known from the definitions, by the slot of the symbol.
-/
theorem comesTo_expanderBound? (s : Symbol)
    : ComesTo base (fun m => m.expanderBound? c s) scope (.ok (expanderIn? defs s)) := by
  have ends : ComesTo base (fun m => m.expanderBound? c s) scope _ :=
    stocked.library.comesTo_expanderBound? c s
  unfold expanderIn?
  cases stored : (base.context c).slots[s.qualify coreSpace]? with
  | some slot =>
      rw [stored] at ends
      rw [stocked.library.known stored]
      exact ends
  | none =>
      rw [stored] at ends
      cases listed : defs.lookup (s.qualify coreSpace) with
      | none => exact ends
      | some n =>
          have there := stocked.complete listed
          rw [stored] at there
          cases there

/-- So is that of the head of a list, and what it quotes is quoted. -/
theorem comesTo_headBound? (items : List Value)
    : ComesTo base (fun m => m.headBound? c items) scope (.ok (headIn? defs items)) := by
  unfold headBound? headIn?
  cases headSymbol? items with
  | none => exact .pure
  | some s =>
      refine (stocked.comesTo_expanderBound? s).bind fun st standing => ?_
      exact ⟨_, standing.afterTables (quotedTables _ items), .of_forall fun _ => rfl⟩

/-- The heads of several lists are found one after the other, by induction on the lists. -/
theorem comesTo_heads (lists : List (List Value))
    : ComesTo base (fun m => lists.mapM (m.headBound? c)) scope
        (.ok (lists.map (headIn? defs))) := by
  induction lists with
  | nil => exact .pure
  | cons items lists ih =>
      simp only [List.mapM_cons]
      exact (stocked.comesTo_headBound? items).bind (ih.bind .pure)

/-- Some machine finds the heads of lists of the common language. -/
theorem exists_findsCommon {lists : List (List Value)} (commons : Commons defs lists) {st : Store}
    (standing : base.Standing st)
    : ∃ level after, base.Standing after
        ∧ (Machine.ofLevels level).FindsCommon c scope lists st after := by
  obtain ⟨after, later, came⟩ := stocked.comesTo_heads lists st standing
  obtain ⟨level, found⟩ := came.exists
  rw [commons.heads] at found
  exact ⟨level, after, later, commons.common, found⟩

variable (inside : scope.entering c = scope)
include inside

/-- A form of the common language expands to what analysis makes of it, since both agree on it. -/
theorem yields_common {form : Value} (readable : form.Readable) (literal : form.isLiteral)
    (commons : Commons defs form.codeLists) {n : Node} (analysis : analysed form = .ok n)
    : Yields base (fun m => m.expand (.initial limit) c form (.initial limit)) scope
        (SameTree n) := by
  intro st standing
  obtain ⟨level, after, later, finds⟩ := stocked.exists_findsCommon commons standing
  have agrees : ExpandsAs c scope limit form (analysed form) st after :=
    agrees_form inside form readable literal finds
  rw [analysis] at agrees
  obtain ⟨n', same, came⟩ := agrees
  exact ⟨n', after, same, later, came⟩

/-- Several forms of the common language expand as well, by the same agreement. -/
theorem yields_commons {forms : List Value} (readable : AllReadable forms)
    (literal : areLiteral forms) (commons : Commons defs (codeListsOfAll forms)) {ns : List Node}
    (analysis : analysedAll forms = .ok ns)
    : Yields base (fun m => m.expandAll c forms (.initial limit)) scope fun _ => True := by
  intro st standing
  obtain ⟨level, after, later, finds⟩ := stocked.exists_findsCommon commons standing
  have agrees : ExpandAllAs c scope limit forms (analysedAll forms) st after :=
    agrees_all inside forms readable literal finds
  rw [analysis] at agrees
  obtain ⟨ns', same, came⟩ := agrees
  exact ⟨ns', after, trivial, later, came⟩

/-- A list that refers to no contexts and whose head is bound to a special form expands to what that
makes of it.
-/
theorem yields_special {f : SpecialForm} {s : Symbol} {args : List Value} {source : Option Location}
    (plain : contextsOfAll args = []) (bound : expanderIn? defs s = some (.form f))
    {P : Node → Prop}
    (expands : Yields base
      (fun m => m.expandSpecialList f c (.list (.symbol s :: args) source) (.symbol s :: args)
        (.initial limit)) scope fun n => ∀ a, P (n.simplified a))
    : Yields base
        (fun m => m.expand (.initial limit) c (.list (.symbol s :: args) source) (.initial limit))
        scope fun n => ∀ a, P (n.simplified a) := by
  let form := Value.list (.symbol s :: args) source
  have special : Yields base (fun m => m.expand (.form f) c form (.initial limit)) scope
      fun n => ∀ a, P (n.simplified a) := by
    refine .succ (x := fun m => m.expandSpecial f c form (.initial limit))
      ((scope.entering c).holding [.expander (.form f), form, .expander (.initial limit)])
      (fun _ _ => rfl) ?_
    rw [inside, Scope.holding_of_none (by simp [form, contextsOfAll, plain])]
    refine expands.bind fun n holds => ComesTo.pure.yields fun a => ?_
    rw [Node.simplified_locatedAt]
    exact holds a
  refine .succ (x := fun m => m.expandInitial c form (.initial limit))
    ((scope.entering c).holding [.expander (.initial limit), form, .expander (.initial limit)])
    (fun _ _ => rfl) ?_
  rw [inside, Scope.holding_of_none (by simp [form, contextsOfAll, plain])]
  refine ((stocked.comesTo_expanderBound? s).yields (P := (· = some (.form f))) bound).bind ?_
  rintro _ rfl
  refine special.bind fun n holds => ComesTo.pure.yields fun a => ?_
  rw [Node.simplified_including]
  exact holds a

-----------------------------------------------------------------------------------------
-- Definitions
-----------------------------------------------------------------------------------------

variable (bound : BindsForms defs) {P : Node → Prop} {source : Option Location}
include bound

/-- The definition of a symbol expands to one of what its form expands to. -/
theorem yields_define {s : Symbol} {form : Value} (plain : form.contexts = [])
    (expands : Yields base (fun m => m.expand (.initial limit) c form (.initial limit)) scope
      fun n => ∀ a, P (n.simplified a))
    : Yields base
        (fun m => m.expand (.initial limit) c (headedBy .define source [.symbol s, form])
          (.initial limit)) scope
        fun n => ∀ a, ∃ tree, P tree ∧ n.simplified a = .of (.define s tree) := by
  refine stocked.yields_special inside (by simp [contextsOfAll, plain]) (bound .define)
    (P := fun t => ∃ tree, P tree ∧ t = .of (.define s tree)) ?_
  unfold expandSpecialList expandDefine nameIn
  simp only [LawfulMonad.pure_bind]
  refine expands.bind fun n holds => ComesTo.pure.yields fun a => ?_
  exact ⟨n.simplified a, holds a, Node.simplified_define s n⟩

/-- The definition of a function expands to that of the function literal. -/
theorem yields_defineFunction {name params : Value} {body : List Value}
    (plain : contextsOfAll (name :: params :: body) = [])
    (expands : Yields base
      (fun m => m.expand (.initial limit) c
        (headedBy .define source [name, headedBy .function source (params :: body)])
        (.initial limit)) scope fun n => ∀ a, P (n.simplified a))
    : Yields base
        (fun m => m.expand (.initial limit) c
          (headedBy .defineFunction source (name :: params :: body)) (.initial limit)) scope
        fun n => ∀ a, P (n.simplified a) :=
  stocked.yields_special inside plain (bound .defineFunction) expands

/-- The definition of a macro expands to that of the macro literal. -/
theorem yields_defineMacro {name params body : Value}
    (plain : contextsOfAll [name, params, body] = [])
    (expands : Yields base
      (fun m => m.expand (.initial limit) c
        (headedBy .define source [name, headedBy .macroLiteral source [params, body]])
        (.initial limit)) scope fun n => ∀ a, P (n.simplified a))
    : Yields base
        (fun m => m.expand (.initial limit) c
          (headedBy .defineMacro source [name, params, body]) (.initial limit)) scope
        fun n => ∀ a, P (n.simplified a) :=
  stocked.yields_special inside plain (bound .defineMacro) expands

/-- A macro literal expands to a constant, because its function is made when it is expanded. -/
theorem yields_macroLiteral {params : List Value} {body : Value}
    {names : List Symbol × Option Symbol} (plain : contextsOfAll [.vector params, body] = [])
    (literal : areLiteral params) (last : restIsLast params)
    (named : analysedParams .nil params = .ok names)
    (expands : Yields base (fun m => m.expand (.initial limit) c body (.initial limit)) scope
      fun _ => True)
    : Yields base
        (fun m => m.expand (.initial limit) c (headedBy .macroLiteral source [.vector params, body])
          (.initial limit)) scope
        fun n => ∀ a, ∃ v, n.simplified a = .constant v := by
  refine stocked.yields_special inside plain (bound .macroLiteral)
    (P := fun t => ∃ v, t = .constant v) ?_
  have parameters : ComesTo base (fun m => m.paramsIn c (.vector params) (.initial limit) params)
      scope (.ok names) := by
    intro st standing
    have agrees := agrees_params c (.initial limit) scope st (.vector params) .nil literal last
    rw [named] at agrees
    obtain ⟨_, rfl, came⟩ := agrees
    exact ⟨st, standing, came⟩
  -- the literal is evaluated on the spot, and the macro made of it is a constant
  unfold expandSpecialList expandMacroLiteral
  dsimp only [List.isEmpty_cons]
  simp only [Bool.false_eq_true, if_false]
  refine (parameters.yields (P := fun _ => True) trivial).bind fun names _ => ?_
  simp only [expandAll, Run.gather, Run.holding_pure, LawfulMonad.pure_bind, bind_assoc]
  refine expands.bind fun n _ => ?_
  refine (yields_compute_lambda rfl c []).bind fun v made => ?_
  obtain ⟨identity, rfl⟩ := made
  exact yields_newIdentity.bind fun _ _ => ComesTo.pure.yields fun _ => ⟨_, rfl⟩

/-- A list literal expands where its items do. -/
theorem yields_list {forms : List Value} (readable : AllReadable forms) (literal : areLiteral forms)
    (commons : Commons defs (codeListsOfAll forms)) {ns : List Node}
    (analysis : analysedAll forms = .ok ns)
    : Yields base
        (fun m => m.expand (.initial limit) c (headedBy .list source forms) (.initial limit)) scope
        fun _ => True := by
  have plain := contextsOfAll_of_readable readable
  refine (stocked.yields_special inside plain (bound .list) (P := fun _ => True) ?_).mono
    fun _ _ => trivial
  exact (stocked.yields_commons inside readable literal commons analysis).bind fun _ _ =>
    ComesTo.pure.yields fun _ => trivial

end Store.Stocked

end IncrementalLisp
