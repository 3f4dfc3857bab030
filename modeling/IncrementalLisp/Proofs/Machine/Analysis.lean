import IncrementalLisp.Proofs.Machine.CommonLanguage
import IncrementalLisp.Proofs.Node.Reordered
import IncrementalLisp.Proofs.Reader.Forms

/-! Analysis by the fixed language and expansion agree on their common language. Where the six
special forms of the fixed language are the built-in ones, and the other heads of a form are bound
to no expanders, both fail on the form, or both make nodes of one simplified tree. They part where
the value of a head cannot be computed, since only the expansion asks for it.
-/

namespace IncrementalLisp.Machine

open Filter Run

-----------------------------------------------------------------------------------------
-- Forms without contexts
-----------------------------------------------------------------------------------------

section References

variable {p : ContextId → Prop}

mutual

/-- A reordered value refers to no other contexts. Witness: by the value. -/
theorem among_of_reorders
    : ∀ {v w : Value}, v.Reorders w → Among p v.contexts → Among p w.contexts
  | .list _ _, _, ⟨_, rfl, each⟩, among => among_of_allReorder each among
  | .vector _, _, ⟨_, rfl, each⟩, among => among_of_allReorder each among
  | .set _, _, ⟨_, _, rfl, each, perm⟩, among => by
      have kept := among_of_allReorder each among
      rw [among_contextsOfAll] at kept
      exact among_contextsOfAll.mpr fun v member => kept v (perm.mem_iff.mpr member)
  | .map _, _, ⟨_, _, rfl, each, perm⟩, among => by
      have kept := among_of_entriesReorder each among
      rw [among_contextsOfEntries] at kept
      exact among_contextsOfEntries.mpr fun e member => kept e (perm.mem_iff.mpr member)
  | .nil, _, rfl, among | .bool _, _, rfl, among | .int _, _, rfl, among
  | .float _, _, rfl, among | .char _, _, rfl, among | .string _, _, rfl, among
  | .symbol _, _, rfl, among | .keyword _, _, rfl, among | .function _, _, rfl, among
  | .expander _, _, rfl, among | .node _, _, rfl, among | .type _, _, rfl, among => among
termination_by structural v => v

/-- Neither do several such values. -/
theorem among_of_allReorder
    : ∀ {vs ws : List Value}, Value.AllReorder vs ws → Among p (contextsOfAll vs)
        → Among p (contextsOfAll ws)
  | [], _, rfl, among => among
  | _ :: _, _, ⟨_, _, rfl, first, others⟩, among => by
      rw [contextsOfAll, among_append] at among ⊢
      exact ⟨among_of_reorders first among.1, among_of_allReorder others among.2⟩
termination_by structural vs => vs

/-- Neither do such entries. -/
theorem among_of_entriesReorder
    : ∀ {es fs : List (Value × Value)}, Value.EntriesReorder es fs
        → Among p (contextsOfEntries es) → Among p (contextsOfEntries fs)
  | [], _, rfl, among => among
  | (_, _) :: _, _, ⟨_, _, _, rfl, key, value, others⟩, among => by
      rw [contextsOfEntries, among_append, among_append] at among ⊢
      exact ⟨⟨among_of_reorders key among.1.1, among_of_reorders value among.1.2⟩,
        among_of_entriesReorder others among.2⟩
termination_by structural es => es

end

mutual

/-- A form that was read refers to no contexts. Witness: by the form. -/
theorem contexts_of_readable
    : ∀ {v : Value}, v.Readable → v.contexts = []
  | .list _ _, readable => contextsOfAll_of_readable readable.2
  | .vector _, readable => contextsOfAll_of_readable readable
  | .map _, readable => contextsOfEntries_of_readable readable.2
  | .set _, readable => contextsOfAll_of_readable readable.2
  | .nil, _ | .bool _, _ | .int _, _ | .float _, _ | .char _, _ | .string _, _ | .symbol _, _
  | .keyword _, _ | .type _, _ => rfl
termination_by structural v => v

/-- Neither do several such forms. -/
theorem contextsOfAll_of_readable
    : ∀ {vs : List Value}, AllReadable vs → contextsOfAll vs = []
  | [], _ => rfl
  | _ :: _, readable => by
      rw [contextsOfAll, contexts_of_readable readable.1, contextsOfAll_of_readable readable.2,
        List.nil_append]
termination_by structural vs => vs

/-- Neither do such entries. -/
theorem contextsOfEntries_of_readable
    : ∀ {es : List (Value × Value)}, EntriesReadable es → contextsOfEntries es = []
  | [], _ => rfl
  | (_, _) :: _, readable => by
      rw [contextsOfEntries, contexts_of_readable readable.1, contexts_of_readable readable.2.1,
        contextsOfEntries_of_readable readable.2.2, List.nil_append, List.nil_append]
termination_by structural es => es

end

end References

-----------------------------------------------------------------------------------------
-- Agreement of forms
-----------------------------------------------------------------------------------------

/-- (SameTree n n') says that two nodes have one tree in their simpler forms, up to the order of the
tables in constants, and that the second refers to no contexts.
-/
structure SameTree (n n' : Node) : Prop where
  reorders : ∀ a a', (n.simplified a).Reorders (n'.simplified a')
  plain : n'.contexts = []

/-- The same of several nodes, one by one. -/
abbrev SameTrees : List Node → List Node → Prop :=
  List.Forall₂ SameTree

/-- The same of the expressions of two lists of bindings, whose names are the same. -/
abbrev SamePairs : List (Symbol × Node) → List (Symbol × Node) → Prop :=
  List.Forall₂ fun p p' => p.1 = p'.1 ∧ SameTree p.2 p'.2

section SameTree

variable {n n' : Node} {ns ns' : List Node} {ps ps' : List (Symbol × Node)}

/-- Constants have the same tree if their values are rearranged. -/
theorem SameTree.of_constant {v w : Value} (values : v.Rearranges w) (plain : v.contexts = [])
    : SameTree (.constant v) (.constant w) where
  reorders _ _ := .constant values
  plain := by
    have none : Among (fun _ => False) w.contexts :=
      among_of_reorders values.reorders (by simp [plain])
    exact List.eq_nil_iff_forall_not_mem.mpr none

/-- A constant of a proper value has the tree that it has. -/
theorem SameTree.constant {v : Value} (proper : v.Proper) (plain : v.contexts = [])
    : SameTree (.constant v) (.constant v) :=
  .of_constant ⟨proper, .refl v⟩ plain

/-- The second of two such nodes holds nothing. -/
theorem SameTree.not_held {α : Type} (same : SameTree n n') (x : Run α)
    : holding [.node n'] x = x :=
  holding_of_none (by simp [contextsOfAll, same.plain]) x

/-- A look-up has the tree that it has. -/
theorem SameTree.lookup (s : Symbol)
    : SameTree (.lookup s) (.lookup s) :=
  ⟨fun _ _ => .lookup s, rfl⟩

/-- Nodes with the same trees simplify to nodes that are reordered, one by one. -/
theorem SameTrees.simplified (same : SameTrees ns ns') (a a' : Arrangement)
    : List.Forall₂ Node.Reorders (ns.map (Node.simplified a)) (ns'.map (Node.simplified a')) := by
  induction same with
  | nil => exact .nil
  | cons first _ others => exact .cons (first.reorders a a') others

/-- The second ones refer to no contexts. -/
theorem SameTrees.plain (same : SameTrees ns ns')
    : contextsOfNodes ns' = [] := by
  induction same with
  | nil => rfl
  | cons first _ others => rw [contextsOfNodes, first.plain, others, List.nil_append]

/-- Sequences of nodes with the same trees have the same tree, by how a sequence simplifies. -/
theorem SameTrees.sequence (same : SameTrees ns ns')
    : SameTree (.of (.sequence ns)) (.of (.sequence ns')) where
  reorders a a' := by
    rw [Node.simplified_sequence, Node.simplified_sequence]
    exact .sequenceOf (same.simplified a a')
  plain := same.plain

/-- A body is a sequence for the one and may be a single node for the other. -/
theorem SameTrees.body (same : SameTrees ns ns')
    : SameTree (.of (.sequence ns)) (sequenceOfBody ns') where
  reorders a a' := by
    have whole : (sequenceOfBody ns').simplified a' = (Node.of (.sequence ns')).simplified a' := by
      unfold sequenceOfBody
      split
      · rename_i only
        rw [Node.simplified_sequence]
        exact only.of_shape_simplified.symm
      · rfl
    rw [whole]
    exact same.sequence.reorders a a'
  plain := by
    have none := same.plain
    unfold sequenceOfBody
    split
    · simpa [contextsOfNodes] using none
    · exact none

/-- Calls of nodes with the same trees have the same tree. -/
theorem SameTree.apply {args args' : List Node} (callee : SameTree n n')
    (parts : SameTrees args args')
    : SameTree (.of (.apply n args)) (.of (.apply n' args')) where
  reorders a a' := by
    rw [Node.simplified_apply, Node.simplified_apply]
    exact .apply (callee.reorders a a') (parts.simplified a a')
  plain := List.append_eq_nil_iff.mpr ⟨callee.plain, parts.plain⟩

/-- So do such nodes at other places. -/
theorem SameTree.located (same : SameTree n n') (place place' : Option Location)
    : SameTree (n.locatedAt place) (n'.locatedAt place') where
  reorders a a' := by
    rw [Node.simplified_locatedAt, Node.simplified_locatedAt]
    exact same.reorders a a'
  plain := by
    rw [Node.contexts_eq, Node.shape_locatedAt, ← Node.contexts_eq]
    exact same.plain

/-- So do such nodes with another dependency recorded. -/
theorem SameTree.included (same : SameTree n n') (s : Symbol)
    : SameTree n (n'.including s) where
  reorders a a' := by
    rw [Node.simplified_including]
    exact same.reorders a a'
  plain := by
    rw [Node.contexts_eq, Node.shape_including, ← Node.contexts_eq]
    exact same.plain

/-- So do definitions of such nodes. -/
theorem SameTree.define (s : Symbol) (same : SameTree n n')
    : SameTree (.of (.define s n)) (.of (.define s n')) where
  reorders a a' := by
    rw [Node.simplified_define, Node.simplified_define]
    exact .define s (same.reorders a a')
  plain := same.plain

/-- So do functions with such bodies. -/
theorem SameTree.lambda (params : List Symbol) (rest : Option Symbol) (same : SameTree n n')
    : SameTree (.of (.lambda params rest n)) (.of (.lambda params rest n')) where
  reorders a a' := by
    rw [Node.simplified_lambda, Node.simplified_lambda]
    exact .lambda params rest (same.reorders a a')
  plain := same.plain

/-- So do conditionals of such nodes, whose tests are both constants or both not. -/
theorem SameTree.conditional {test test' yes yes' no no' : Node} (tests : SameTree test test')
    (yeses : SameTree yes yes') (noes : SameTree no no')
    : SameTree (.of (.conditional test yes no)) (.of (.conditional test' yes' no')) where
  reorders a a' := by
    have constant := (tests.reorders a a').constant?
    rw [Node.simplified_conditional, Node.simplified_conditional]
    generalize known : (test.simplified a).constant? = o,
      known' : (test'.simplified a').constant? = o' at constant ⊢
    cases constant with
    | none => exact .conditional (tests.reorders a a') (yeses.reorders a a') (noes.reorders a a')
    | some values =>
        dsimp only
        rw [values.reorders.isTruthy_eq]
        split
        · exact yeses.reorders a a'
        · exact noes.reorders a a'
  plain :=
    List.append_eq_nil_iff.mpr ⟨List.append_eq_nil_iff.mpr ⟨tests.plain, yeses.plain⟩, noes.plain⟩

/-- Bindings with the same trees have the same names, one by one. -/
theorem SamePairs.names_eq (same : SamePairs ps ps')
    : ps.map (·.1) = ps'.map (·.1) := by
  induction same with
  | nil => rfl
  | cons first _ others => rw [List.map_cons, List.map_cons, first.1, others]

/-- Their expressions have the same trees. -/
theorem SamePairs.exprs (same : SamePairs ps ps')
    : SameTrees (ps.map (·.2)) (ps'.map (·.2)) := by
  induction same with
  | nil => exact .nil
  | cons first _ others => exact .cons first.2 others

/-- The second ones refer to no contexts. -/
theorem SamePairs.plain (same : SamePairs ps ps')
    : contextsOfPairs ps' = [] := by
  induction same with
  | nil => rfl
  | cons first _ others => rw [contextsOfPairs, first.2.plain, others, List.nil_append]

/-- Bindings with the same trees around bodies with the same tree have the same tree. -/
theorem SamePairs.binding {body body' : Node} (pairs : SamePairs ps ps')
    (same : SameTree body body')
    : SameTree (.of (.binding ps body)) (.of (.binding ps' body')) where
  reorders a a' := by
    have empty : ps'.isEmpty = ps.isEmpty := by cases pairs <;> rfl
    have exprs := pairs.exprs.simplified a a'
    have names := pairs.names_eq
    rw [Node.simplified_binding, Node.simplified_binding, empty]
    split
    · exact same.reorders a a'
    · refine .binding ?_ ?_ (same.reorders a a')
      · simpa only [List.map_map, Function.comp_def] using names
      · simpa only [List.map_map, Function.comp_def] using exprs
  plain := List.append_eq_nil_iff.mpr ⟨pairs.plain, same.plain⟩

/-- So do vectors of nodes with the same trees, which fold together. -/
theorem SameTrees.vector (same : SameTrees ns ns')
    : SameTree (.of (.vector ns)) (.of (.vector ns')) where
  reorders a a' := by
    rw [Node.simplified_collection rfl fun _ => rfl, Node.simplified_collection rfl fun _ => rfl]
    exact .collectionOf (fun values => .some (.vector values)) .vector (same.simplified a a')
  plain := same.plain

/-- So do sets of them. -/
theorem SameTrees.set (same : SameTrees ns ns')
    : SameTree (.of (.set ns)) (.of (.set ns')) where
  reorders a a' := by
    rw [Node.simplified_collection rfl fun _ => rfl, Node.simplified_collection rfl fun _ => rfl]
    exact .collectionOf (fun values => .some (.setOf values)) .set (same.simplified a a')
  plain := same.plain

/-- So do maps of them. -/
theorem SameTrees.hashMap (same : SameTrees ns ns')
    : SameTree (.of (.hashMap ns)) (.of (.hashMap ns')) where
  reorders a a' := by
    rw [Node.simplified_collection rfl fun _ => rfl, Node.simplified_collection rfl fun _ => rfl]
    exact .collectionOf Value.Rearranges.mapOfItems? .hashMap (same.simplified a a')
  plain := same.plain

end SameTree

/-- (ExpandsAs c scope limit form result st after) says that an analysis and the initial expander
agree on a form, within a bound on nested expansions.
-/
abbrev ExpandsAs (c : ContextId) (scope : Scope) (limit : Nat) (form : Value)
    (result : Except EvalError Node) (st after : Store)
    : Prop :=
  Agrees SameTree (fun m => m.expand (.initial limit) c form (.initial limit)) scope result st after

/-- The same of several forms. -/
abbrev ExpandAllAs (c : ContextId) (scope : Scope) (limit : Nat) (forms : List Value)
    (result : Except EvalError (List Node)) (st after : Store)
    : Prop :=
  Agrees SameTrees (fun m => m.expandAll c forms (.initial limit)) scope result st after

section Forms

variable {c : ContextId} {scope : Scope} {limit level : Nat} {st middle after : Store}
  (inside : scope.entering c = scope)
include inside

/-- A form as the initial expander expands it, one level below. -/
theorem Agrees.initial {form : Value} {result : Except EvalError Node}
    (plain : form.contexts = [])
    (agrees : Agrees SameTree (fun m => m.expandInitial c form (.initial limit)) scope result st
      after)
    : ExpandsAs c scope limit form result st after := by
  refine .succ (fun level => ?_) agrees
  change (inContext c (holding [.expander (.initial limit), form, .expander (.initial limit)]
    ((ofLevels level).expandInitial c form (.initial limit)))).outcome scope st = _
  rw [outcome_inContext, inside, holding_of_none (by simp [contextsOfAll, plain])]

/-- A list whose head is bound to a special form, as that expands its items. -/
theorem Agrees.special {f : SpecialForm} {s : Symbol} {args : List Value} {source : Option Location}
    {result : Except EvalError Node} (plain : contextsOfAll args = [])
    (found : ((ofLevels level).expanderBound? c s).outcome scope st
      = (.ok (some (.form f)), middle))
    (agrees : Agrees SameTree
      (fun m => m.expandSpecialList f c (.list (.symbol s :: args) source) (.symbol s :: args)
        (.initial limit)) scope result middle after)
    : ExpandsAs c scope limit (.list (.symbol s :: args) source) result st after := by
  have located := agrees.changed (g := (Node.locatedAt · source)) fun n n' same =>
    same.located none source
  have special : Agrees SameTree
      (fun m => m.expand (.form f) c (.list (.symbol s :: args) source) (.initial limit))
      scope result middle after := by
    refine .succ (fun level => ?_) located
    let form := Value.list (.symbol s :: args) source
    change (inContext c (holding [.expander (.form f), form, .expander (.initial limit)]
      ((ofLevels level).expandSpecial f c form (.initial limit)))).outcome scope middle = _
    rw [outcome_inContext, inside, holding_of_none (by simp [form, contextsOfAll, plain])]
    rfl
  refine .initial inside plain (.known (eventually_bound found) ?_)
  exact special.changed (g := (Node.including · s)) fun n n' same => same.included s

omit inside in
/-- Several forms, from the first and the others. -/
theorem Agrees.cons {form : Value} {forms : List Value} {node : Except EvalError Node}
    {nodes : Except EvalError (List Node)}
    (first : ExpandsAs c scope limit form node st middle)
    (rest : ExpandAllAs c scope limit forms nodes middle after)
    : ExpandAllAs c scope limit (form :: forms) (do return (← node) :: (← nodes)) st after := by
  unfold ExpandAllAs expandAll
  simp only [gather]
  refine first.bind fun n n' same => ?_
  simp only [same.not_held]
  exact rest.bind fun ns ns' sames => .pure (List.Forall₂.cons same sames)

omit inside in
/-- A call, from its parts. -/
theorem Agrees.call {head : Value} {args : List Value} {source : Option Location}
    {f : Except EvalError Node} {nodes : Except EvalError (List Node)}
    (callee : ExpandsAs c scope limit head f st middle)
    (parts : ExpandAllAs c scope limit args nodes middle after)
    : Agrees SameTree (fun m => m.expandCall c head args source (.initial limit)) scope
        (do return (Node.of (.apply (← f) (← nodes))).locatedAt source) st after := by
  refine callee.bind fun n n' same => ?_
  simp only [same.not_held]
  exact parts.bind fun ns ns' sames => .pure ((same.apply sames).located source source)

omit inside in
/-- A literal form that is quoted: the expansion arranges its tables anew. -/
theorem Agrees.quote (head form : Value) {quoted : Value} (readable : quoted.Readable)
    (literal : quoted.isLiteral) (ended : after = st.afterTables quoted.tables)
    : Agrees SameTree (fun m => m.expandQuote false c form [head, quoted] (.initial limit)) scope
        (.ok (.of (.quote quoted false))) st after := by
  obtain ⟨v, same, came⟩ := substituted_of_literal quoted readable.proper literal st
  have constants : SameTree (.constant quoted) (.constant v) :=
    .of_constant ⟨readable.proper, same⟩ (contexts_of_readable readable)
  have trees : SameTree (.of (.quote quoted false)) (.of (.quote v false)) := by
    refine ⟨fun a a' => ?_, constants.plain⟩
    rw [Node.simplified_eq, Node.simplified_eq]
    exact constants.reorders a a'
  refine ⟨_, trees, .of_forall fun level => ?_⟩
  rw [ended]
  exact outcome_bind_of_eq_ok (came _ c _ scope)

omit inside in
/-- A list whose head is no special form of the common language is analysed as a call. -/
theorem analysedList_of_ordinary {s : Symbol} (ordinary : commonForm? s = none) (form : Value)
    (source : Option Location) (rest : List Value)
    : analysedList form source (.symbol s :: rest)
      = do
          return (Node.of (.apply (← analysed (.symbol s)) (← analysedAll rest))).locatedAt source := by
  have no {f : SpecialForm} (member : f ∈ SpecialForm.common)
      : (s == f.symbol) = false := commonForm?_eq_none ordinary member
  unfold analysedList
  simp only [no (f := .define) (by decide), no (f := .function) (by decide),
    no (f := .quote) (by decide), no (f := .sequence) (by decide),
    no (f := .conditional) (by decide), no (f := .binding) (by decide)]
  rfl

omit inside in
/-- Entries are analysed as the key, the value and the other entries, in this order. -/
theorem analysedEntries_cons (key v : Value) (rest : List (Value × Value))
    : analysedEntries ((key, v) :: rest)
      = analysed key >>= fun k =>
          (analysed v >>= fun w => analysedEntries rest >>= fun ns => pure (w :: ns)) >>= fun ns =>
            pure (k :: ns) := by
  rw [analysedEntries]
  cases analysed key <;> cases analysed v <;> cases analysedEntries rest <;> rfl

omit inside in
mutual

/-- Analysis and expansion agree on a form. Witness: induction on the form. -/
theorem agrees_form (inside : scope.entering c = scope)
    : ∀ form : Value, form.Readable → form.isLiteral → ∀ {st after : Store},
        (ofLevels level).FindsCommon c scope form.codeLists st after
          → ExpandsAs c scope limit form (analysed form) st after
  | .list items source, readable, literal, _, _, finds => by
      rw [Value.isLiteral, Bool.and_eq_true] at literal
      exact agrees_list inside items source readable.2 literal.2 finds
  | .vector items, readable, literal, _, _, finds => by
      refine .initial inside (contextsOfAll_of_readable readable) ?_
      exact (agrees_all inside items readable literal finds).map fun _ _ same => same.vector
  | .set items, readable, literal, _, _, finds => by
      refine .initial inside (contextsOfAll_of_readable readable.2) ?_
      exact (agrees_all inside items readable.2 literal finds).map fun _ _ same => same.set
  | .map entries, readable, literal, _, _, finds => by
      refine .initial inside (contextsOfEntries_of_readable readable.2) ?_
      exact (agrees_entries inside entries readable.2 literal finds).map fun _ _ same =>
        same.hashMap
  | .symbol s, _, _, _, _, finds => by
      obtain rfl := finds.nil
      exact .initial inside rfl (.pure (.lookup s))
  | .nil, _, _, _, _, finds | .bool _, _, _, _, _, finds | .int _, _, _, _, _, finds
  | .float _, _, _, _, _, finds | .char _, _, _, _, _, finds | .string _, _, _, _, _, finds
  | .keyword _, _, _, _, _, finds
  | .type _, _, _, _, _, finds => by
      obtain rfl := finds.nil
      exact .initial inside rfl (.pure (.constant trivial rfl))
  | .function _, readable, _, _, _, _ | .expander _, readable, _, _, _, _
  | .node _, readable, _, _, _, _ => readable.elim
termination_by structural form => form

/-- Analysis and expansion agree on several forms, by the first and the others. -/
theorem agrees_all (inside : scope.entering c = scope)
    : ∀ forms : List Value, AllReadable forms → areLiteral forms → ∀ {st after : Store},
        (ofLevels level).FindsCommon c scope (codeListsOfAll forms) st after
          → ExpandAllAs c scope limit forms (analysedAll forms) st after
  | [], _, _, _, _, finds => by
      obtain rfl := finds.nil
      exact .pure .nil
  | form :: rest, readable, literal, _, _, finds => by
      rw [areLiteral, Bool.and_eq_true] at literal
      obtain ⟨middle, first, others⟩ := finds.append
      exact .cons (agrees_form inside form readable.1 literal.1 first)
        (agrees_all inside rest readable.2 literal.2 others)
termination_by structural forms => forms

/-- They agree on entries, by the first key, its value and the other entries. -/
theorem agrees_entries (inside : scope.entering c = scope)
    : ∀ entries : List (Value × Value), EntriesReadable entries → entriesAreLiteral entries
        → ∀ {st after : Store},
            (ofLevels level).FindsCommon c scope (codeListsOfEntries entries) st after
          → Agrees SameTrees (fun m => m.expandEntries c entries (.initial limit)) scope
              (analysedEntries entries) st after
  | [], _, _, _, _, finds => by
      obtain rfl := finds.nil
      exact .pure .nil
  | (key, v) :: rest, readable, literal, _, _, finds => by
      rw [entriesAreLiteral, Bool.and_eq_true, Bool.and_eq_true] at literal
      obtain ⟨middle, first, others⟩ := finds.append
      obtain ⟨later, second, others⟩ := others.append
      rw [analysedEntries_cons]
      exact .cons (agrees_form inside key readable.1 literal.1 first)
        (.cons (agrees_form inside v readable.2.1 literal.2.1 second)
          (agrees_entries inside rest readable.2.2 literal.2.2 others))
termination_by structural entries => entries

/-- They agree on lists. Witness: by the expander that the head is bound to; each form of the common
language has a theorem of its own.
-/
theorem agrees_list (inside : scope.entering c = scope)
    : ∀ (items : List Value) (source : Option Location), AllReadable items → areLiteral items
        → ∀ {st after : Store}, (ofLevels level).FindsCommon c scope (codeListsIn items) st after
          → ExpandsAs c scope limit (.list items source)
              (analysedList (.list items source) source items) st after
  | [], _, _, _, _, _, finds => by
      obtain rfl := finds.nil
      exact .initial inside rfl (.pure (.constant trivial rfl))
  | head :: rest, source, readable, literal, _, _, finds => by
      rw [areLiteral, Bool.and_eq_true] at literal
      cases head with
      | symbol s =>
          unfold codeListsIn at finds
          obtain ⟨common, middle, found, parts⟩ := finds.symbol
          dsimp only at parts
          rw [isCommon, Bool.and_eq_true, Option.isNone_iff_eq_none] at common
          have plain := contextsOfAll_of_readable readable.2
          cases known : commonForm? s with
          | none =>
              rw [known] at found parts
              rw [analysedList_of_ordinary known]
              refine .initial inside plain (.known (eventually_bound found) ?_)
              simp only [common.1]
              exact .call (.initial inside rfl (.pure (.lookup s)))
                (agrees_all inside rest readable.2 literal.2 parts)
          | some f =>
              rw [known] at found parts common
              have named : f.symbol = s := by simpa using List.find?_some known
              have member : f ∈ SpecialForm.common := List.mem_of_find?_eq_some known
              subst named
              cases f with
              | define =>
                  exact .special inside plain found
                    (agrees_define inside rest readable.2 literal.2 parts)
              | function =>
                  exact .special inside plain found
                    (agrees_function inside rest readable.2 literal.2 common.2 parts)
              | quote =>
                  refine .special inside plain found ?_
                  rcases rest with _ | ⟨quoted, _ | _⟩
                  · exact .fail _ _
                  · rw [areLiteral, Bool.and_eq_true] at literal
                    exact .quote (.symbol SpecialForm.quote.symbol)
                      (.list [.symbol SpecialForm.quote.symbol, quoted] source) readable.2.1
                      literal.2.1 parts.nil
                  · exact .fail _ _
              | sequence =>
                  refine .special inside plain found ?_
                  exact (agrees_all inside rest readable.2 literal.2 parts).map fun _ _ same =>
                    same.sequence
              | conditional =>
                  exact .special inside plain found
                    (agrees_conditional inside rest readable.2 literal.2 parts)
              | binding =>
                  exact .special inside plain found
                    (agrees_binding inside rest readable.2 literal.2 parts)
              | _ => exact absurd member (by decide)
      | nil | bool | int | float | char | string | keyword | list | vector | map | set | function
      | expander | node | type =>
          obtain ⟨middle, first, others⟩ := (finds.other rfl).append
          refine .initial inside (contextsOfAll_of_readable readable) ?_
          exact .call (agrees_form inside _ readable.1 literal.1 first)
            (agrees_all inside rest readable.2 literal.2 others)
termination_by structural items => items

/-- They agree on definitions, by the name and the expression. -/
theorem agrees_define (inside : scope.entering c = scope)
    : ∀ rest : List Value, AllReadable rest → areLiteral rest
        → ∀ {head form : Value} {st after : Store},
        (ofLevels level).FindsCommon c scope (codeListsOfDefine rest) st after
          → Agrees SameTree (fun m => m.expandDefine c form (head :: rest) (.initial limit)) scope
              (analysedDefine form rest) st after
  | [name, expr], readable, literal, _, _, _, _, finds => by
      rw [areLiteral, areLiteral, Bool.and_eq_true, Bool.and_eq_true] at literal
      cases name with
      | symbol s =>
          exact (agrees_form inside expr readable.2.1 literal.2.1 finds).map fun _ _ same =>
            same.define s
      | _ =>
          unfold expandDefine
          simp only [nameIn_of_literal _ _ _ literal.1 (by simp)]
          exact .fail _ _
  | [], _, _, _, _, _, _, _ => .fail _ _
  | [name], _, _, _, _, _, _, _ | name :: _ :: _ :: _, _, _, _, _, _, _, _ => by
      cases name <;> exact .fail _ _
termination_by structural rest => rest

/-- They agree on functions whose rest parameter is the last, by the parameters and the body. -/
theorem agrees_function (inside : scope.entering c = scope)
    : ∀ rest : List Value, AllReadable rest → areLiteral rest
        → keepsRestLast (some .function) rest → ∀ {head form : Value} {st after : Store},
        (ofLevels level).FindsCommon c scope (codeListsOfFunction rest) st after
          → Agrees SameTree (fun m => m.expandFunction c form (head :: rest) (.initial limit)) scope
              (analysedFunction form rest) st after
  | [], _, _, _, _, _, _, _, _ => .fail _ _
  | params :: body, readable, literal, last, _, _, _, _, finds => by
      rw [areLiteral, Bool.and_eq_true] at literal
      cases params with
      | vector params =>
          refine (agrees_params c _ scope _ _ _ literal.1 last).bind fun names names' same => ?_
          subst same
          exact (agrees_all inside body readable.2 literal.2 finds).map fun _ _ same =>
            same.body.lambda names.1 names.2
      | _ => exact .fail _ _
termination_by structural rest => rest

/-- They agree on conditionals, by the number of their parts. -/
theorem agrees_conditional (inside : scope.entering c = scope)
    : ∀ rest : List Value, AllReadable rest → areLiteral rest
        → ∀ {head form : Value} {st after : Store},
        (ofLevels level).FindsCommon c scope
            (if rest.length == 2 || rest.length == 3 then codeListsOfAll rest else []) st after
          → Agrees SameTree (fun m => m.expandConditional c form (head :: rest) (.initial limit))
              scope (analysedConditional form rest) st after
  | [], _, _, _, _, _, _, _ => .fail _ _
  | [_], _, _, _, _, _, _, _ => .fail _ _
  | [test, yes], readable, literal, _, _, _, _, finds => by
      rw [areLiteral, areLiteral, Bool.and_eq_true, Bool.and_eq_true] at literal
      obtain ⟨tested, first, finds⟩ := FindsCommon.append finds
      obtain ⟨_, second, finds⟩ := finds.append
      obtain rfl := finds.nil
      refine (agrees_form inside test readable.1 literal.1 first).bind fun t t' same => ?_
      simp only [same.not_held]
      exact (agrees_form inside yes readable.2.1 literal.2.1 second).map fun y y' same' =>
        same.conditional same' (.of_constant .nil rfl)
  | [test, yes, no], readable, literal, _, _, _, _, finds => by
      rw [areLiteral, areLiteral, areLiteral, Bool.and_eq_true, Bool.and_eq_true,
        Bool.and_eq_true] at literal
      obtain ⟨tested, first, finds⟩ := FindsCommon.append finds
      obtain ⟨_, second, finds⟩ := finds.append
      obtain ⟨_, third, finds⟩ := finds.append
      obtain rfl := finds.nil
      refine (agrees_form inside test readable.1 literal.1 first).bind fun t t' same => ?_
      simp only [same.not_held]
      refine (agrees_form inside yes readable.2.1 literal.2.1 second).bind fun y y' same' => ?_
      have none : contextsOfAll [.node t', .node y'] = [] := by
        simp [contextsOfAll, same.plain, same'.plain]
      simp only [holding_of_none none]
      exact (agrees_form inside no readable.2.2.1 literal.2.2.1 third).map fun n n' same'' =>
        same.conditional same' same''
  | _ :: _ :: _ :: _ :: _, _, _, _, _, _, _, _ => .fail _ _
termination_by structural rest => rest

/-- They agree on bindings around a body, by the pairs and the body. -/
theorem agrees_binding (inside : scope.entering c = scope)
    : ∀ rest : List Value, AllReadable rest → areLiteral rest
        → ∀ {head form : Value} {st after : Store},
        (ofLevels level).FindsCommon c scope (codeListsOfBinding rest) st after
          → Agrees SameTree (fun m => m.expandBinding c form (head :: rest) (.initial limit)) scope
              (analysedBinding form rest) st after
  | [], _, _, _, _, _, _, _ => .fail _ _
  | pairs :: body, readable, literal, _, _, _, _, finds => by
      rw [areLiteral, Bool.and_eq_true] at literal
      cases pairs with
      | vector pairs =>
          unfold codeListsOfBinding at finds
          unfold expandBinding analysedBinding
          dsimp only
          cases odd : pairs.length % 2 != 0 with
          | true => exact .fail _ _
          | false =>
              rw [odd] at finds
              obtain ⟨_, first, finds⟩ := FindsCommon.append finds
              refine (agrees_pairs inside pairs readable.1 literal.1 first).bind fun ps ps' same => ?_
              have none : contextsOfAll (ps'.map (.node ·.2)) = [] := by
                rw [contextsOfAll_map_expr, same.plain]
              simp only [holding_of_none none]
              exact (agrees_all inside body readable.2 literal.2 finds).map fun ns ns' same' =>
                same.binding same'.body
      | _ => exact .fail _ _
termination_by structural rest => rest

/-- They agree on pairs of names and expressions, by the first and the others. -/
theorem agrees_pairs (inside : scope.entering c = scope)
    : ∀ pairs : List Value, AllReadable pairs → areLiteral pairs → ∀ {st after : Store},
        (ofLevels level).FindsCommon c scope (codeListsOfPairs pairs) st after
          → Agrees SamePairs (fun m => m.expandPairs c (Value.pairs pairs) (.initial limit)) scope
              (analysedPairs pairs) st after
  | [], _, _, _, _, finds => by
      obtain rfl := finds.nil
      exact .pure .nil
  | [name], _, _, _, _, finds => by
      obtain rfl := finds.nil
      cases name <;> exact .pure .nil
  | name :: expr :: rest, readable, literal, _, _, finds => by
      rw [areLiteral, areLiteral, Bool.and_eq_true, Bool.and_eq_true] at literal
      obtain ⟨_, first, others⟩ := finds.append
      unfold expandPairs Value.pairs
      simp only [gather]
      cases name with
      | symbol s =>
          simp only [expandPair, nameIn, LawfulMonad.pure_bind, LawfulMonad.bind_assoc]
          refine (agrees_form inside expr readable.2.1 literal.2.1 first).bind fun n n' same => ?_
          simp only [same.not_held]
          exact (agrees_pairs inside rest readable.2.2 literal.2.2 others).map fun ps ps' sames =>
            .cons ⟨rfl, same⟩ sames
      | _ =>
          simp only [expandPair, nameIn_of_literal _ _ _ literal.1 (by simp)]
          exact .fail _ _
termination_by structural pairs => pairs

end

end Forms

/-- The analysis of a form that was read and its expansion agree, if it is in their common language:
no list in it is (unquote form), the lists in code position do not call members by their heads,
nothing follows a rest parameter, and a machine that asks for the expanders which the heads are
bound to, one after the other, finds the built-in ones for the six names and none for the others.
Both succeed or both fail, and the nodes they make have one tree when they are simplified, but for
the order in which tables in constants hand their items out, however each of them arranges these.
-/
theorem analysis_agrees_with_expansion {order : Arrangement} {file text : String} {form : Value}
    {c : ContextId} {scope : Scope} {limit level : Nat} {st after : Store}
    (read : form ∈ (Reader.readNamed order file text).forms) (literal : form.isLiteral)
    (common : ∀ items ∈ form.codeLists, isCommon items)
    (found : (form.codeLists.mapM ((ofLevels level).headBound? c)).outcome (scope.entering c) st
      = (.ok (form.codeLists.map commonHead?), after))
    : ((∃ n, analysed form = .ok n) ↔ ∃ n' after', Expands c scope limit form n' st after')
        ∧ (∀ e, analysed form = .error e → ∀ᶠ level in atTop, ∃ e',
            (((ofLevels level).expand (.initial limit) c form (.initial limit)).outcome scope st).1
              = .error (.error e'))
        ∧ ∀ n n' after', analysed form = .ok n → Expands c scope limit form n' st after'
            → ∀ a a', (n.optimized a).tree.Reorders (n'.optimized a').tree := by
  have agrees : ExpandsAs c (scope.entering c) limit form (analysed form) st after :=
    agrees_form (scope.entering_entering c) form (Reader.readable_of_mem_forms read) literal
      ⟨common, found⟩
  have entered (level : Nat)
      : ((ofLevels level).expand (.initial limit) c form (.initial limit)).outcome
          (scope.entering c) st
        = ((ofLevels level).expand (.initial limit) c form (.initial limit)).outcome scope st := by
    rw [← outcome_inContext, inContext_expand]
  unfold Expands
  cases result : analysed form with
  | ok n =>
      rw [result] at agrees
      obtain ⟨n', same, came⟩ := agrees
      simp only [entered] at came
      refine ⟨⟨fun _ => ⟨n', after, came⟩, fun _ => ⟨n, rfl⟩⟩, nofun, ?_⟩
      rintro _ other after' ⟨⟩ came'
      obtain ⟨level, one, two⟩ := (came.and came').exists
      cases one.symm.trans two
      exact same.reorders
  | error e =>
      rw [result] at agrees
      have failed : ∀ᶠ level in atTop, ∃ e',
          (((ofLevels level).expand (.initial limit) c form (.initial limit)).outcome scope st).1
            = .error (.error e') := by
        unfold ExpandsAs Agrees at agrees
        simpa only [entered] using agrees
      refine ⟨⟨nofun, ?_⟩, fun _ _ => failed, nofun⟩
      rintro ⟨n', after', came⟩
      obtain ⟨level, one, e', two⟩ := (came.and failed).exists
      rw [one] at two
      cases two

/-- The special forms of the common language, built in one after the other into a new store. -/
def commonStore : ContextId × Store :=
  SpecialForm.common.foldl
    (fun at_ f => at_.2.define at_.1 coreSpace f.symbol (.constant (.expander (.form f))) [])
    (Store.first, Store.start .standard)

/-- A definition of a function with a rest parameter, whose body binds a name to a conditional
without an alternative, quotes a list and calls the function.
-/
theorem function_analysed_as_expanded
    : let reading := Reader.readNamed .last "file"
        "(def f (fn [a & b] (let [c (if a 1)] (do '(x b) (f c)))))"
      let name (s : String) := Value.symbol (.bare s)
      let listAt (column : Nat) (items : List Value) := Value.list items (some ⟨"file", 1, column⟩)
      let quoted := listAt 42 [name "quote", listAt 43 [name "x", name "b"]]
      let bound := Value.vector [name "c", listAt 28 [name "if", name "a", .int 1]]
      let binding :=
        listAt 20 [name "let", bound, listAt 38 [name "do", quoted, listAt 49 [name "f", name "c"]]]
      let form := listAt 1 [name "def", name "f",
        listAt 8 [name "fn", .vector [name "a", name "&", name "b"], binding]]
      let scope := Scope.outermost 8
      let found := (form.codeLists.mapM ((ofLevels 4).headBound? commonStore.1)).outcome
        (scope.entering commonStore.1) commonStore.2
      (form ∈ reading.forms ∧ form.isLiteral ∧ (∀ items ∈ form.codeLists, isCommon items)
          ∧ found = (.ok (form.codeLists.map commonHead?), found.2))
        ∧ ((∃ n, analysed form = .ok n)
            ↔ ∃ n' after', Expands commonStore.1 scope 1 form n' commonStore.2 after')
        ∧ (∀ e, analysed form = .error e → ∀ᶠ level in atTop, ∃ e',
            (((ofLevels level).expand (.initial 1) commonStore.1 form (.initial 1)).outcome scope
              commonStore.2).1 = .error (.error e'))
        ∧ ∀ n n' after', analysed form = .ok n
            → Expands commonStore.1 scope 1 form n' commonStore.2 after'
            → ∀ a a', (n.optimized a).tree.Reorders (n'.optimized a').tree := by
  intro reading name listAt quoted bound binding form scope found
  have read : form ∈ reading.forms := by
    have only : reading.forms = [form] := rfl
    rw [only]
    exact List.mem_singleton_self form
  have literal : form.isLiteral := by decide
  have common : ∀ items ∈ form.codeLists, isCommon items := by decide +kernel
  have came : found = (.ok (form.codeLists.map commonHead?), found.2) := by
    dsimp only [found, scope, form, binding, bound, quoted, listAt, name]
    rfl
  exact ⟨⟨read, literal, common, came⟩, analysis_agrees_with_expansion read literal common came⟩

/-- What keeps forms out of the common language. The symbol m is defined to be a call of a symbol
that is not defined, and so names no expander; still the expansion of a call of m fails, as m does,
and its analysis does not ask. And analysis ignores what follows a rest parameter, which expansion
refuses.
-/
theorem failing_head_analysed
    : let define := SpecialForm.define.symbol
      let m := Symbol.bare "m"
      let call := Value.list [.symbol m, .int 2] (some ⟨"file", 1, 1⟩)
      let params := Value.vector [.symbol restMark, .symbol (.bare "a"), .symbol (.bare "b")]
      let function := Value.list [.symbol SpecialForm.function.symbol, params, .symbol (.bare "a")]
        (some ⟨"file", 1, 7⟩)
      let scope := Scope.outermost 8
      let earlier := ((ofLevels 8).runForm .standard
        (.listOf [.symbol define, .symbol m, .listOf [.symbol (.bare "undefined"), .int 1]])
        commonStore.1).outcome scope commonStore.2
      let c : ContextId := 7
      let inner := scope.entering c
      (earlier.1 = .ok (.nil, c)
          ∧ (Reader.readNamed .last "file" "(m 2) (fn [& a b] a)").forms = [call, function]
          ∧ call.isLiteral ∧ function.isLiteral
          ∧ (∀ f ∈ SpecialForm.common, ∀ᶠ level in atTop,
              (((ofLevels level).expanderBound? c f.symbol).outcome inner earlier.2).1
                = .ok (some (.form f)))
          ∧ call.codeLists.filterMap headSymbol? = [m] ∧ memberCalled? m = none
          ∧ (∀ level e, (((ofLevels level).expanderBound? c m).outcome inner earlier.2).1
              ≠ .ok (some e))
          ∧ function.codeLists.filterMap headSymbol? = [SpecialForm.function.symbol])
        ∧ ((∃ n, analysed call = .ok n)
            ∧ ∀ᶠ level in atTop,
                (((ofLevels level).expand (.initial 1) c call (.initial 1)).outcome scope
                    earlier.2).1
                  = .error (.error (.unresolvedSymbol (.inSpace coreSpace "undefined"))))
        ∧ (∃ n, analysed function = .ok n)
        ∧ ∀ᶠ level in atTop,
            (((ofLevels level).expand (.initial 1) c function (.initial 1)).outcome scope
                earlier.2).1
              = .error (.error (.expansion .manyRestParameters params)) := by
  intro define m call params function scope earlier c inner
  have failed : (((ofLevels 8).expanderBound? c m).outcome inner earlier.2).1
      = .error (.error (.unresolvedSymbol (.inSpace coreSpace "undefined"))) := by
    dsimp only [inner, earlier, scope, m, define]
    rfl
  refine ⟨⟨?_, rfl, rfl, rfl, ?_, by decide, by decide, fun level e found => ?_, by decide⟩,
    ⟨⟨_, rfl⟩, ?_⟩, ⟨_, rfl⟩, ?_⟩
  · dsimp only [earlier, scope, m, define]
    rfl
  · intro f member
    have found : (((ofLevels 8).expanderBound? c f.symbol).outcome inner earlier.2).1
        = .ok (some (.form f)) := by
      dsimp only [inner, earlier, scope, m, define]
      cases f <;> first | rfl | exact absurd member (by decide)
    exact eventually_of_end (x := fun m => m.expanderBound? c f.symbol) inferInstance found nofun
  · have same := end_eq (x := fun m => m.expanderBound? c (.bare "m")) inferInstance failed nofun
      (by rw [found]; exact nofun)
    rw [found] at same
    cases same
  · have came : (((ofLevels 8).expand (.initial 1) c call (.initial 1)).outcome scope earlier.2).1
        = .error (.error (.unresolvedSymbol (.inSpace coreSpace "undefined"))) := by
      dsimp only [call, earlier, scope, m, define]
      rfl
    exact eventually_of_end (x := fun m => m.expand (.initial 1) c call (.initial 1)) inferInstance
      came nofun
  · have came : (((ofLevels 8).expand (.initial 1) c function (.initial 1)).outcome scope
        earlier.2).1 = .error (.error (.expansion .manyRestParameters params)) := by
      dsimp only [function, params, earlier, scope, m, define]
      rfl
    exact eventually_of_end (x := fun m => m.expand (.initial 1) c function (.initial 1))
      inferInstance came nofun

end IncrementalLisp.Machine
