import IncrementalLisp.Analysis
import IncrementalLisp.Proofs.Machine.Definitions
import IncrementalLisp.Proofs.Value.Reordered

/-! The common language of analysis and expansion: forms without unquoted parts whose lists in code
position are headed by one of the six special forms that analysis knows, or are calls. An analysis
and the expansions of almost all machines agree if both fail or their answers are related.
-/

namespace IncrementalLisp

open Filter

-----------------------------------------------------------------------------------------
-- The common language
-----------------------------------------------------------------------------------------

/-- The special forms that analysis knows. -/
def SpecialForm.common : List SpecialForm :=
  [.define, .function, .quote, .sequence, .conditional, .binding]

/-- The special form that analysis takes a head for, if it knows one of this name. -/
def commonForm? (s : Symbol)
    : Option SpecialForm :=
  SpecialForm.common.find? (·.symbol == s)

/-- A symbol that names no form of the common language is not the symbol of any of its forms. -/
theorem commonForm?_eq_none {s : Symbol} (ordinary : commonForm? s = none) {f : SpecialForm}
    (member : f ∈ SpecialForm.common)
    : (s == f.symbol) = false := by
  have differ := List.find?_eq_none.mp ordinary f member
  rw [beq_iff_eq] at differ
  rw [beq_eq_false_iff_ne]
  exact Ne.symm differ

mutual

/-- The lists of a form in code position, without the empty ones, in the order in which an expansion
comes to them.
-/
def Value.codeLists : Value → List (List Value)
  | .list items _ => codeListsIn items
  | .vector items => codeListsOfAll items
  | .map entries => codeListsOfEntries entries
  | .set items => codeListsOfAll items
  | _ => []
termination_by structural form => form

/-- The lists in code position of several forms. -/
def codeListsOfAll : List Value → List (List Value)
  | [] => []
  | form :: rest => form.codeLists ++ codeListsOfAll rest
termination_by structural forms => forms

/-- The lists in code position of the entries of a map form. -/
def codeListsOfEntries : List (Value × Value) → List (List Value)
  | [] => []
  | (key, v) :: rest => key.codeLists ++ (v.codeLists ++ codeListsOfEntries rest)
termination_by structural entries => entries

/-- A list in code position with those in it. -/
def codeListsIn : List Value → List (List Value)
  | [] => []
  | head :: rest =>
      (head :: rest) ::
        match head with
        | .symbol s =>
            match commonForm? s with
            | some .define => codeListsOfDefine rest
            | some .function => codeListsOfFunction rest
            | some .quote => []
            | some .conditional =>
                if rest.length == 2 || rest.length == 3 then codeListsOfAll rest else []
            | some .binding => codeListsOfBinding rest
            | _ => codeListsOfAll rest
        | head => head.codeLists ++ codeListsOfAll rest
termination_by structural items => items

/-- The lists in code position of a definition. -/
def codeListsOfDefine : List Value → List (List Value)
  | [_, expr] => expr.codeLists
  | _ => []
termination_by structural rest => rest

/-- The lists in code position of a function literal. -/
def codeListsOfFunction : List Value → List (List Value)
  | _ :: body => codeListsOfAll body
  | [] => []
termination_by structural rest => rest

/-- The lists in code position of bindings and of their body. -/
def codeListsOfBinding : List Value → List (List Value)
  | .vector pairs :: body =>
      if pairs.length % 2 != 0 then [] else codeListsOfPairs pairs ++ codeListsOfAll body
  | _ => []
termination_by structural rest => rest

/-- The lists in code position of a list of alternating names and expressions. -/
def codeListsOfPairs : List Value → List (List Value)
  | _ :: expr :: rest => expr.codeLists ++ codeListsOfPairs rest
  | _ => []
termination_by structural pairs => pairs

end

mutual

/-- Whether no list in a form, at any depth, is (unquote form). -/
def Value.isLiteral : Value → Bool
  | .list items _ => (unquoted? items).isNone && areLiteral items
  | .vector items => areLiteral items
  | .map entries => entriesAreLiteral entries
  | .set items => areLiteral items
  | _ => true
termination_by structural form => form

/-- Whether no list in several forms is (unquote form). -/
def areLiteral : List Value → Bool
  | [] => true
  | form :: rest => form.isLiteral && areLiteral rest
termination_by structural forms => forms

/-- Whether no list in the entries of a map form is (unquote form). -/
def entriesAreLiteral : List (Value × Value) → Bool
  | [] => true
  | (key, v) :: rest => key.isLiteral && (v.isLiteral && entriesAreLiteral rest)
termination_by structural entries => entries

end

mutual

/-- The number of tables with several items in a form, at any depth. -/
def Value.tables : Value → Nat
  | .list items _ => tablesOfAll items
  | .vector items => tablesOfAll items
  | .map entries => tablesOfEntries entries + if 1 < entries.length then 1 else 0
  | .set items => tablesOfAll items + if 1 < items.length then 1 else 0
  | _ => 0
termination_by structural form => form

/-- The number of tables with several items in several forms. -/
def tablesOfAll : List Value → Nat
  | [] => 0
  | form :: rest => form.tables + tablesOfAll rest
termination_by structural forms => forms

/-- The number of tables with several items in the entries of a map form. -/
def tablesOfEntries : List (Value × Value) → Nat
  | [] => 0
  | (key, v) :: rest => key.tables + (v.tables + tablesOfEntries rest)
termination_by structural entries => entries

end

/-- Whether nothing follows the rest parameter in a list of parameters. -/
def restIsLast : List Value → Bool
  | [] => true
  | item :: rest =>
      if item == .symbol restMark then
        match rest with
        | .symbol _ :: more => more.isEmpty
        | _ => true
      else restIsLast rest

/-- Whether nothing follows the rest parameter, if the items behind a head are those of a function
literal.
-/
def keepsRestLast : Option SpecialForm → List Value → Bool
  | some .function, .vector params :: _ => restIsLast params
  | _, _ => true

/-- Whether a list in code position does not call a member by its head, nor is it a function literal
with something behind its rest parameter.
-/
def isCommon : List Value → Bool
  | .symbol s :: rest => (memberCalled? s).isNone && keepsRestLast (commonForm? s) rest
  | _ => true

namespace Machine

open Run

-----------------------------------------------------------------------------------------
-- Agreement
-----------------------------------------------------------------------------------------

section Agreement

variable {α β : Type} {R : α → α → Prop} {S : β → β → Prop} {scope : Scope}
  {st middle after : Store}

/-- (Agrees R x scope result st after) says that almost all machines end with an error, if the
result is one, and with the same related answer and store, if it is not.
-/
def Agrees (R : α → α → Prop) (x : Machine → Run α) (scope : Scope) (result : Except EvalError α)
    (st after : Store)
    : Prop :=
  match result with
  | .ok a =>
      ∃ b, R a b ∧ ∀ᶠ level in atTop, (x (ofLevels level)).outcome scope st = (.ok b, after)
  | .error _ =>
      ∀ᶠ level in atTop, ∃ e, ((x (ofLevels level)).outcome scope st).1 = .error (.error e)

/-- Results that are related agree, without any step. -/
theorem Agrees.pure {a b : α} (related : R a b)
    : Agrees R (fun _ => pure b) scope (.ok a) st st :=
  ⟨b, related, .of_forall fun _ => rfl⟩

/-- Failures agree, whatever they are. -/
theorem Agrees.fail (e e' : EvalError)
    : Agrees R (fun _ => Run.fail e) scope (.error e') st after :=
  Eventually.of_forall fun _ => ⟨e, rfl⟩

/-- Agreement goes on behind a part that almost all machines end alike. -/
theorem Agrees.known {x : Machine → Run β} {y : Machine → β → Run α} {result : Except EvalError α}
    {b : β} (first : ∀ᶠ level in atTop, (x (ofLevels level)).outcome scope st = (.ok b, middle))
    (rest : Agrees R (fun m => y m b) scope result middle after)
    : Agrees R (fun m => x m >>= y m) scope result st after := by
  cases result with
  | ok a =>
      obtain ⟨a', related, came⟩ := rest
      refine ⟨a', related, (first.and came).mono fun level both => ?_⟩
      exact (outcome_bind_of_eq_ok both.1).trans both.2
  | error e =>
      refine (Eventually.and first rest).mono fun level both => ?_
      rw [outcome_bind_of_eq_ok both.1]
      exact both.2

/-- Agreement of a sequence, from that of its parts. -/
theorem Agrees.bind {x : Machine → Run α} {y : Machine → α → Run β} {result : Except EvalError α}
    {next : α → Except EvalError β} (first : Agrees R x scope result st middle)
    (rest : ∀ a b, R a b → Agrees S (fun m => y m b) scope (next a) middle after)
    : Agrees S (fun m => x m >>= y m) scope (result >>= next) st after := by
  cases result with
  | ok a =>
      obtain ⟨b, related, came⟩ := first
      exact .known came (rest a b related)
  | error e =>
      refine Eventually.mono first fun level failed => ?_
      obtain ⟨e', failed⟩ := failed
      refine ⟨e', ?_⟩
      rw [outcome_bind]
      revert failed
      rcases (x (ofLevels level)).outcome scope st with ⟨end?, stop⟩
      rintro rfl
      rfl

/-- Agreement after a change of the answers. -/
theorem Agrees.map {x : Machine → Run α} {result : Except EvalError α} {f g : α → β}
    (agrees : Agrees R x scope result st after) (kept : ∀ a b, R a b → S (f a) (g b))
    : Agrees S (fun m => do return g (← x m)) scope (result.map f) st after := by
  have bound : result.map f = result >>= fun a => .ok (f a) := by cases result <;> rfl
  rw [bound]
  exact agrees.bind fun a b related => .pure (kept a b related)

/-- Agreement after a change of the answers of machines alone. -/
theorem Agrees.changed {x : Machine → Run α} {result : Except EvalError α} {g : α → α}
    (agrees : Agrees R x scope result st after) (kept : ∀ a b, R a b → R a (g b))
    : Agrees R (fun m => do return g (← x m)) scope result st after := by
  have same : result.map id = result := by cases result <;> rfl
  rw [← same]
  exact agrees.map kept

/-- Agreement of machines of one level more. -/
theorem Agrees.succ {x y : Machine → Run α} {result : Except EvalError α}
    (step : ∀ level,
      (y (ofLevels (level + 1))).outcome scope st = (x (ofLevels level)).outcome scope st)
    (agrees : Agrees R x scope result st after)
    : Agrees R y scope result st after := by
  cases result with
  | ok a =>
      obtain ⟨b, related, came⟩ := agrees
      exact ⟨b, related, eventually_succ (fun level same => (step level).trans same) came⟩
  | error e =>
      refine eventually_succ (fun level failed => ?_) agrees
      rw [step level]
      exact failed

end Agreement

-----------------------------------------------------------------------------------------
-- Heads
-----------------------------------------------------------------------------------------

/-- The number of tables that are arranged anew when an expander expands a list: those with several
items in a form that is quoted.
-/
def quotedTables : Option Expander → List Value → Nat
  | some (.form .quote), [_, quoted] => quoted.tables
  | _, _ => 0

/-- The expander that the head of a list in code position is bound to, if the head is a symbol bound
to one. What the list quotes is quoted then.
-/
def headBound? (m : Machine) (c : ContextId) (items : List Value)
    : Run (Option Expander) :=
  match headSymbol? items with
  | none => return none
  | some s => do
      let bound ← m.expanderBound? c s
      modify (·.afterTables (quotedTables bound items))
      return bound

/-- The special form that the head of a list in code position stands for in the common language. -/
def commonHead? (items : List Value)
    : Option Expander :=
  (headSymbol? items).bind fun s => (commonForm? s).map .form

/-- (FindsCommon m c scope lists st after) says that a machine which asks for the expanders that the
heads of some lists are bound to, one after the other, finds the special form for each of the six
names and nothing for any other symbol, and that nothing else keeps the lists from being common.
-/
structure FindsCommon (m : Machine) (c : ContextId) (scope : Scope) (lists : List (List Value))
    (st after : Store)
    : Prop where
  common : ∀ items ∈ lists, isCommon items
  found : (lists.mapM (m.headBound? c)).outcome scope st = (.ok (lists.map commonHead?), after)

section Heads

variable {c : ContextId} {scope : Scope} {m : Machine} {lists others : List (List Value)}
  {st after : Store}

/-- Without lists there is no head to ask for. -/
theorem FindsCommon.nil (finds : m.FindsCommon c scope [] st after)
    : after = st := by
  cases finds.found
  rfl

/-- The heads of lists are found one after the other, so those of some of them are found first. -/
theorem FindsCommon.append (finds : m.FindsCommon c scope (lists ++ others) st after)
    : ∃ middle, m.FindsCommon c scope lists st middle
        ∧ m.FindsCommon c scope others middle after := by
  obtain ⟨common, found⟩ := finds
  rw [outcome_mapM_append_eq_ok] at found
  obtain ⟨middle, first, rest⟩ := found
  rw [List.forall_mem_append] at common
  exact ⟨middle, ⟨common.1, first⟩, common.2, rest⟩

/-- The heads of lists are found from that of the first list on. -/
theorem FindsCommon.cons {items : List Value}
    (finds : m.FindsCommon c scope (items :: lists) st after)
    : isCommon items ∧ ∃ middle,
        (m.headBound? c items).outcome scope st = (.ok (commonHead? items), middle)
          ∧ m.FindsCommon c scope lists middle after := by
  obtain ⟨common, found⟩ := finds
  rw [List.forall_mem_cons] at common
  obtain ⟨middle, first, rest⟩ := outcome_mapM_cons_eq_ok.mp found
  exact ⟨common.1, middle, first, common.2, rest⟩

/-- A head that is a symbol is bound to what it names in the common language, and then come the
others.
-/
theorem FindsCommon.symbol {s : Symbol} {args : List Value}
    (finds : m.FindsCommon c scope ((.symbol s :: args) :: lists) st after)
    : isCommon (.symbol s :: args)
        ∧ ∃ middle, (m.expanderBound? c s).outcome scope st
              = (.ok ((commonForm? s).map .form), middle)
            ∧ m.FindsCommon c scope lists
                (middle.afterTables (quotedTables ((commonForm? s).map .form) (.symbol s :: args)))
                after := by
  obtain ⟨common, middle, first, rest⟩ := finds.cons
  obtain ⟨bound, asked, found, ended⟩ := outcome_bind_eq_ok.mp first
  cases ended
  exact ⟨common, asked, found, rest⟩

/-- A list without a symbol at its head asks for nothing. -/
theorem FindsCommon.other {items : List Value} (other : headSymbol? items = none)
    (finds : m.FindsCommon c scope (items :: lists) st after)
    : m.FindsCommon c scope lists st after := by
  obtain ⟨-, middle, first, rest⟩ := finds.cons
  unfold headBound? at first
  rw [other] at first
  obtain rfl := (Prod.mk.inj first).2
  exact rest

end Heads

-----------------------------------------------------------------------------------------
-- Names and quoted forms
-----------------------------------------------------------------------------------------

section Literal

variable (m : Machine) (c : ContextId) (k : Expander)

/-- A literal form in the place of a name is one only if it is a symbol. -/
theorem nameIn_of_literal {form : Value} (literal : form.isLiteral) (other : ∀ s, form ≠ .symbol s)
    (role : NameRole)
    : m.nameIn c form k role = Run.fail (.analysis (.notASymbol role) form) := by
  cases form with
  | symbol s => exact absurd rfl (other s)
  | list items source =>
      rw [Value.isLiteral, Bool.and_eq_true, Option.isNone_iff_eq_none] at literal
      unfold nameIn
      dsimp only
      rw [literal.1]
  | _ => rfl

end Literal

mutual

/-- Nothing is substituted in a literal form, if it is proper: it comes back as it is, its tables
arranged anew. Witness: induction on the form.
-/
theorem substituted_of_literal
    : ∀ form : Value, form.Proper → form.isLiteral → ∀ st, ∃ v, form.Reorders v
        ∧ ∀ m c k scope,
          (substituted m c k form).outcome scope st = (.ok v, st.afterTables form.tables)
  | .list items source, proper, literal, st => by
      rw [Value.isLiteral, Bool.and_eq_true, Option.isNone_iff_eq_none] at literal
      obtain ⟨vs, same, came⟩ := substitutedAll_of_literal items proper literal.2 st
      refine ⟨_, ⟨vs, rfl, same⟩, fun m c k scope => ?_⟩
      unfold substituted
      rw [literal.1]
      exact outcome_bind_of_eq_ok (came m c k scope)
  | .vector items, proper, literal, st => by
      obtain ⟨vs, same, came⟩ := substitutedAll_of_literal items proper literal st
      exact ⟨_, ⟨vs, rfl, same⟩, fun m c k scope => outcome_bind_of_eq_ok (came m c k scope)⟩
  | .set items, proper, literal, st => by
      obtain ⟨vs, same, came⟩ := substitutedAll_of_literal items proper.2 literal st
      rw [Value.allReorder_iff] at same
      obtain ⟨a, drawn⟩ := outcome_arrangementFor (st.afterTables (tablesOfAll items)) vs.length
      refine ⟨_, Value.set_reorders (a := a) proper same, fun m c k scope => ?_⟩
      unfold substituted
      rw [outcome_bind_of_eq_ok (came m c k scope), outcome_bind_of_eq_ok (drawn scope),
        Store.afterTables_add, ← same.length_eq]
      rfl
  | .map entries, proper, literal, st => by
      obtain ⟨es, same, came⟩ := substitutedEntries_of_literal entries proper.2 literal st
      rw [Value.entriesReorder_iff] at same
      obtain ⟨a, drawn⟩ :=
        outcome_arrangementFor (st.afterTables (tablesOfEntries entries)) es.length
      refine ⟨_, Value.map_reorders (a := a) proper same, fun m c k scope => ?_⟩
      unfold substituted
      rw [outcome_bind_of_eq_ok (came m c k scope), outcome_bind_of_eq_ok (drawn scope),
        Store.afterTables_add, ← same.length_eq]
      rfl
  | .nil, _, _, _ | .bool _, _, _, _ | .int _, _, _, _ | .float _, _, _, _ | .char _, _, _, _
  | .string _, _, _, _ | .symbol _, _, _, _ | .keyword _, _, _, _ | .function _, _, _, _
  | .expander _, _, _, _ | .node _, _, _, _ | .type _, _, _, _ => ⟨_, rfl, fun _ _ _ _ => rfl⟩
termination_by structural form => form

/-- Literal forms are substituted by forms that are reordered, which takes one arrangement for each
of their tables.
-/
theorem substitutedAll_of_literal
    : ∀ forms : List Value, Value.AllProper forms → areLiteral forms
        → ∀ st, ∃ vs, Value.AllReorder forms vs
          ∧ ∀ m c k scope,
            (substitutedAll m c k forms).outcome scope st
              = (.ok vs, st.afterTables (tablesOfAll forms))
  | [], _, _, _ => ⟨[], rfl, fun _ _ _ _ => rfl⟩
  | form :: rest, proper, literal, st => by
      rw [areLiteral, Bool.and_eq_true] at literal
      obtain ⟨v, first, came⟩ := substituted_of_literal form proper.1 literal.1 st
      obtain ⟨vs, others, came'⟩ := substitutedAll_of_literal rest proper.2 literal.2
        (st.afterTables form.tables)
      refine ⟨_, ⟨v, vs, rfl, first, others⟩, fun m c k scope => ?_⟩
      have held : (holding [v] (substitutedAll m c k rest)).outcome scope _ = _ :=
        came' m c k (scope.holding [v])
      rw [substitutedAll, outcome_bind_of_eq_ok (came m c k scope), outcome_bind_of_eq_ok held,
        Store.afterTables_add]
      rfl
termination_by structural forms => forms

/-- So are the keys and values of literal entries. -/
theorem substitutedEntries_of_literal
    : ∀ entries : List (Value × Value), Value.EntriesProper entries → entriesAreLiteral entries
        → ∀ st, ∃ es, Value.EntriesReorder entries es
          ∧ ∀ m c k scope,
            (substitutedEntries m c k entries).outcome scope st
              = (.ok es, st.afterTables (tablesOfEntries entries))
  | [], _, _, _ => ⟨[], rfl, fun _ _ _ _ => rfl⟩
  | (key, v) :: rest, proper, literal, st => by
      rw [entriesAreLiteral, Bool.and_eq_true, Bool.and_eq_true] at literal
      obtain ⟨key', first, came⟩ := substituted_of_literal key proper.1 literal.1 st
      obtain ⟨v', second, came'⟩ := substituted_of_literal v proper.2.1 literal.2.1
        (st.afterTables key.tables)
      obtain ⟨es, others, came''⟩ := substitutedEntries_of_literal rest proper.2.2 literal.2.2
        ((st.afterTables key.tables).afterTables v.tables)
      refine ⟨_, ⟨key', v', es, rfl, first, second, others⟩, fun m c k scope => ?_⟩
      have held : (holding [key'] (substituted m c k v)).outcome scope _ = _ :=
        came' m c k (scope.holding [key'])
      have held' : (holding [key', v'] (substitutedEntries m c k rest)).outcome scope _ = _ :=
        came'' m c k (scope.holding [key', v'])
      rw [substitutedEntries, outcome_bind_of_eq_ok (came m c k scope), outcome_bind_of_eq_ok held,
        outcome_bind_of_eq_ok held', Store.afterTables_add, Store.afterTables_add]
      rfl
termination_by structural entries => entries

end

/-- Both read the same parameters, or neither does. Witness: induction on the parameters. -/
theorem agrees_params (c : ContextId) (k : Expander) (scope : Scope) (st : Store)
    (vector form : Value) {items : List Value} (literal : areLiteral items)
    (last : restIsLast items)
    : Agrees Eq (fun m => m.paramsIn c vector k items) scope (analysedParams form items) st st := by
  induction items with
  | nil => exact .pure rfl
  | cons item rest ih =>
      rw [areLiteral, Bool.and_eq_true] at literal
      cases item with
      | symbol s =>
          have asked : (Value.symbol s == .symbol restMark) = (s == restMark) := rfl
          unfold restIsLast at last
          unfold paramsIn analysedParams
          rw [asked] at last
          simp only [asked]
          generalize (s == restMark) = mark at last ⊢
          cases mark with
          | true =>
              cases rest with
              | nil => exact .fail _ _
              | cons name more =>
                  rw [areLiteral, Bool.and_eq_true] at literal
                  cases name with
                  | symbol r =>
                      have only : more.isEmpty = true := last
                      simp only [only]
                      exact .pure rfl
                  | _ =>
                      simp only [nameIn_of_literal _ _ _ literal.2.1 (by simp)]
                      exact .fail _ _
          | false =>
              refine (ih literal.2 last).map fun a b same => ?_
              rw [same]
      | _ =>
          unfold paramsIn analysedParams
          simp only [nameIn_of_literal _ _ _ literal.1 (by simp)]
          exact .fail _ _

end Machine

end IncrementalLisp
