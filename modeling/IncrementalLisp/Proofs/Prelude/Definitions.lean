import IncrementalLisp.Proofs.Prelude.Loading
import IncrementalLisp.Proofs.Prelude.Sequences
import IncrementalLisp.Proofs.Prelude.Texts

/-! The definitions of the initial context. The bootstrap context has the special forms, the
primitives and some functions; the initial context adds two macros, of which only that they are
constants is said here, and five functions.
-/

namespace IncrementalLisp

namespace Prelude

open Filter Machine Store

/-- The tree of a function body that is not simplified. -/
def bodyOf (expr : Node)
    : Node :=
  .of (.sequence [expr])

/-- The tree of a function literal that takes any arguments. -/
def variadic (params : List String) (rest : String) (body : Node)
    : Node :=
  .of (.lambda (params.map .bare) (some (.bare rest)) body)

/-- The definitions without which no text can be loaded, as trees. -/
def groundEntries : List (Symbol × Node) :=
  groundDefinitions.map fun entry => (entry.1, .constant entry.2)

/-- The functions of the bootstrap context. -/
def bootstrapEntries : List (Symbol × Node) :=
  [(core "identity", literal ["x"] (bodyOf (named "x"))),
    (core "constantly", literal ["x"] (bodyOf (variadic [] "_" (bodyOf (named "x"))))),
    (core "second", literal ["coll"] (bodyOf (called "first" [called "rest" [named "coll"]]))),
    (core "list?", literal ["x"]
      (bodyOf (called "=" [called "type-of" [named "x"], .constant (.string "list")]))),
    (core "vector?", literal ["x"]
      (bodyOf (called "=" [called "type-of" [named "x"], .constant (.string "vector")]))),
    (core "empty?", emptyTree),
    (core "complement", literal ["f"]
      (bodyOf (variadic [] "args"
        (bodyOf (called "not" [called "apply" [named "f", named "args"]])))))]

/-- The definitions of the bootstrap context, the newest first. -/
def bootstrapDefs : List (Symbol × Node) :=
  bootstrapEntries.reverse ++ groundEntries.reverse

/-- The definitions of constants each fit behind those before it, by computation. -/
theorem fit_groundEntries
    : fitAmong [] groundEntries = true := by
  decide +kernel

/-- The definitions of the bootstrap text each fit behind the constants and those before it, by
computation.
-/
theorem fit_bootstrapEntries
    : fitAmong (groundEntries.reverse.map (·.1)) bootstrapEntries = true := by
  decide +kernel

/-- The forms of the bootstrap text are its definitions, one by one. -/
theorem definitions_bootstrapWritten
    : (bootstrapWritten.map Written.form).map definition? = bootstrapEntries.map some := by
  rfl

/-- The bootstrap context is stocked with its definitions. -/
theorem comes_bootstrap {arrangements : Nat → Arrangement} {scope : Scope}
    : Comes (Store.start .standard arrangements) (fun m => m.bootstrap Store.first) scope fun c after =>
        after.Stocked bootstrapDefs c := by
  have ground : Comes (Store.start .standard arrangements)
      (fun m => m.defineConstants groundDefinitions first)
      scope fun c after => after.Stocked (groundEntries.reverse ++ []) c :=
    comes_defineConstants (by decide +kernel) fit_groundEntries
      (stocked_start arrangements)
  rw [List.append_nil] at ground
  refine ground.bind fun c st stocked => ?_
  unfold load
  simp only [read_bootstrapText, bind_assoc]
  refine (supplies_loadForms definitions_bootstrapWritten fit_bootstrapEntries .nil st c scope
    stocked).bind fun result after defined => ?_
  obtain ⟨_, rfl, defined⟩ := defined
  exact .pure defined

-----------------------------------------------------------------------------------------
-- The initial context
-----------------------------------------------------------------------------------------

/-- The function comp as a tree. -/
def compTree : Node :=
  literal ["f", "g"] (variadic [] "args" (called "f" [called "apply" [named "g", named "args"]]))

/-- The function partial as a tree. -/
def partialTree : Node :=
  variadic ["f"] "bound"
    (variadic [] "args" (called "apply" [named "f", called "concat" [named "bound", named "args"]]))

/-- The functions that the initial context adds. -/
def coreFunctions : List (Symbol × Node) :=
  [(core "comp", compTree), (core "partial", partialTree), (core "map", mapTree),
    (core "filter", filterTree), (core "reduce", reduceTree)]

/-- The definitions of the initial context, the newest first, whose macros are given. -/
def coreDefs (whenMacro whenNotMacro : Value)
    : List (Symbol × Node) :=
  coreFunctions.reverse ++ (core "when-not", .constant whenNotMacro)
    :: (core "when", .constant whenMacro) :: bootstrapDefs

/-- The core context has what the functions of sequences use, name by name. -/
theorem sequential_coreDefs (v w : Value)
    : Sequential (coreDefs v w) where
  primitive p := by cases p <;> rfl
  empty := rfl
  map := rfl
  filter := rfl
  reduce := rfl

/-- The symbols defined after some macros. -/
def symbolsWith (macros : List String)
    : List Symbol :=
  macros.map core ++ bootstrapDefs.map (·.1)

/-- The functions of the core text each fit behind what is defined before them, by computation. -/
theorem fit_coreFunctions
    : fitAmong (symbolsWith ["when-not", "when"]) coreFunctions = true := by
  decide +kernel

/-- The forms of the core text are readable, since they are made of lists and words alone. -/
theorem readable_coreWritten
    : AllReadable (coreWritten.map Written.form) := by
  refine allReadable_iff.mpr fun form listed => ?_
  have among : form ∈ (Reader.readNamed .last coreFile coreText).forms := by
    rw [read_coreText]
    exact listed
  exact Reader.readable_of_mem_forms among

/-- The bootstrap context binds every special form, one by one. -/
theorem bindsForms_bootstrapDefs
    : BindsForms bootstrapDefs := by
  intro f
  cases f <;> rfl

/-- The forms of the initial context add its definitions. The macros come first, as constants. -/
theorem supplies_coreWritten
    : Supplies bootstrapDefs (fun defs => ∃ v w, defs = coreDefs v w) fun m c =>
        m.runForms Config.standard (coreWritten.map Written.form) .nil c := by
  obtain ⟨⟨-, -, -, -, ⟨-, -, answer⟩, -⟩, ⟨-, -, -, -, ⟨-, -, answer'⟩, -⟩, comp, partially, map,
    filter, reduce, -⟩ := readable_coreWritten
  have fit := fit_coreFunctions
  simp only [coreFunctions, fitAmong, Bool.and_eq_true] at fit
  obtain ⟨fitComp, fitPartial, fitMap, fitFilter, fitReduce, -⟩ := fit
  have freshWhen : core "when" ∉ symbolsWith [] := by decide +kernel
  have freshWhenNot : core "when-not" ∉ symbolsWith ["when"] := by decide +kernel
  -- each form is run where the definitions of those before it are
  refine supplies_defineMacro (s := .bare "when") bindsForms_bootstrapDefs (by rfl) (by decide)
    (by decide) (by rfl) answer (by decide) ⟨by decide, by rfl⟩ (by rfl) (by decide) freshWhen
    (fun v bound last => ?_) .nil
  refine supplies_defineMacro (s := .bare "when-not") bound (by rfl) (by decide) (by decide)
    (by rfl) answer' (by decide) ⟨by decide, by rfl⟩ (by rfl) (by decide) freshWhenNot
    (fun w bound last => ?_) last
  refine supplies_defineFunction (s := .bare "comp") bound comp (by decide) ⟨by decide, by rfl⟩
    (by rfl) (by rfl) fitComp (fun bound last => ?_) last
  refine supplies_defineFunction (s := .bare "partial") bound partially (by decide)
    ⟨by decide, by rfl⟩ (by rfl) (by rfl) fitPartial (fun bound last => ?_) last
  refine supplies_defineFunction (s := .bare "map") bound map (by decide) ⟨by decide, by rfl⟩
    (by rfl) (by rfl) fitMap (fun bound last => ?_) last
  refine supplies_defineFunction (s := .bare "filter") bound filter (by decide)
    ⟨by decide, by rfl⟩ (by rfl) (by rfl) fitFilter (fun bound last => ?_) last
  refine supplies_defineFunction (s := .bare "reduce") bound reduce (by decide)
    ⟨by decide, by rfl⟩ (by rfl) (by rfl) fitReduce (fun _ last => ?_) last
  exact supplies_runForms_nil ⟨v, w, rfl⟩ last

/-- The initial context is stocked with its definitions. -/
theorem comes_corePrelude {arrangements : Nat → Arrangement} {scope : Scope}
    : Comes (Store.start .standard arrangements) (fun m => m.corePrelude Store.first) scope fun c after =>
        ∃ v w, after.Stocked (coreDefs v w) c := by
  refine comes_bootstrap.bind fun c st stocked => ?_
  have runs : Comes st
      (fun m => Run.inContext c (m.runForms Config.standard (coreWritten.map Written.form) .nil c))
      scope fun result after => ∃ defs, (∃ v w, defs = coreDefs v w)
        ∧ after.Stocked defs result.2 :=
    supplies_coreWritten st c (scope.entering c) stocked
  unfold run
  simp only [read_coreText, bind_assoc]
  refine runs.bind fun result after supplied => ?_
  obtain ⟨_, ⟨v, w, rfl⟩, stocked⟩ := supplied
  exact .pure ⟨v, w, stocked⟩

end Prelude

end IncrementalLisp
