import IncrementalLisp.Proofs.Mirror.Expansion

/-! Expanders on forms that differ only by a pass: quoting, the initial expander, special forms,
user expanders and macros lead to alike nodes.
-/

namespace IncrementalLisp.Machine.Mirrored

open Run

variable {F : Filter Nat} {P : Pass} {m : Machine} [m.Steady] (machines : m.Mirrored F P)
  {k k' : Expander}
  (conts : k.Alike P k') {form form' : Value} (forms : form.Alike P form')
  {items items' : List Value} (parts : FormsAlike P items items') (c : ContextId)

-----------------------------------------------------------------------------------------
-- Quoting
-----------------------------------------------------------------------------------------

mutual

/-- Forms that are alike are substituted alike. Witness: induction on the form. -/
theorem substituted (machines : m.Mirrored F P) (conts : k.Alike P k') (c : ContextId)
    : ∀ {form form' : Value}, form.Alike P form'
        → Run.Mirrored F P (Value.Alike P) (m.substituted c k form)
            fun j => (ofLevels j).substituted c k' form'
  | .list items source, _, ⟨items', same, alike⟩ => by
      subst same
      have inner := unquoted?_alike (valuesAlike_iff_forall₂.mp alike)
      unfold Machine.substituted
      generalize unquoted? items = o, unquoted? items' = o' at inner ⊢
      cases inner with
      | none =>
          exact (substitutedAll machines conts c alike).bind fun alike => .pure ⟨_, rfl, alike⟩
      | some same => exact machines.evaluateNow conts same c
  | .vector _, _, ⟨_, same, alike⟩ => by
      subst same
      exact (substitutedAll machines conts c alike).bind fun alike => .pure ⟨_, rfl, alike⟩
  | .set _, _, ⟨_, same, alike⟩ => by
      subst same
      refine (substitutedAll machines conts c alike).bind fun {vs ws} alike => ?_
      rw [alike.length_eq]
      refine (Run.Mirrored.arrangementIf _).bind fun {a a'} same => ?_
      obtain rfl : a' = a := same
      exact .pure (setOf_alike alike (.inr P.exact))
  | .map _, _, ⟨_, same, alike⟩ => by
      subst same
      refine (substitutedEntries machines conts c alike).bind fun {es fs} alike => ?_
      rw [alike.length_eq]
      refine (Run.Mirrored.arrangementIf _).bind fun {a a'} same => ?_
      obtain rfl : a' = a := same
      exact .pure ⟨_, rfl, distinctEntries_alike alike (.inr P.exact)⟩
  | .function _, _, ⟨_, same, alike⟩ => by
      subst same
      exact .pure ⟨_, rfl, alike⟩
  | .expander _, _, ⟨_, same, alike⟩ => by
      subst same
      exact .pure ⟨_, rfl, alike⟩
  | .node _, _, ⟨_, same, alike⟩ => by
      subst same
      exact .pure ⟨_, rfl, alike⟩
  | .nil, _, same | .bool _, _, same | .int _, _, same | .float _, _, same | .char _, _, same
  | .string _, _, same | .symbol _, _, same | .keyword _, _, same | .type _, _, same => by
      subst same
      exact .pure rfl
termination_by structural form => form

/-- So are several forms, by the first and the others. -/
theorem substitutedAll (machines : m.Mirrored F P) (conts : k.Alike P k') (c : ContextId)
    : ∀ {items items' : List Value}, ValuesAlike P items items'
        → Run.Mirrored F P (ValuesAlike P) (m.substitutedAll c k items)
            fun j => (ofLevels j).substitutedAll c k' items'
  | [], _, same => by
      subst same
      exact .pure rfl
  | _ :: _, _, ⟨_, _, same, first, rest⟩ => by
      subst same
      refine (substituted machines conts c first).bind fun first => ?_
      have others := (substitutedAll machines conts c rest).holdingOne first
      exact others.bind fun rest => .pure ⟨_, _, rfl, first, rest⟩
termination_by structural items => items

/-- So are the keys and values of entries. -/
theorem substitutedEntries (machines : m.Mirrored F P) (conts : k.Alike P k') (c : ContextId)
    : ∀ {entries entries' : List (Value × Value)}, EntriesAlike P entries entries'
        → Run.Mirrored F P (EntriesAlike P) (m.substitutedEntries c k entries)
            fun j => (ofLevels j).substitutedEntries c k' entries'
  | [], _, same => by
      subst same
      exact .pure rfl
  | (_, _) :: _, _, ⟨_, _, _, same, key, value, rest⟩ => by
      subst same
      refine (substituted machines conts c key).bind fun key => ?_
      refine ((substituted machines conts c value).holdingOne key).bind fun {v v'} value => ?_
      have both := valuesAlike_iff_forall₂.mpr (.cons key (.cons value .nil))
      exact ((substitutedEntries machines conts c rest).holdingAlike both).bind fun rest =>
        .pure ⟨_, _, _, rfl, key, value, rest⟩
termination_by structural entries => entries

end

section Quoting

include machines conts

include parts forms in
/-- Quoted forms that are alike expand alike, by their substitution. -/
theorem expandQuote (isSyntax : Bool)
    : Run.Mirrored F P (Node.Alike P) (m.expandQuote isSyntax c form items k)
        fun j => (ofLevels j).expandQuote isSyntax c form' items' k' := by
  have refused : (EvalError.expansion .quote form).Alike P (.expansion .quote form') :=
    ⟨_, rfl, forms⟩
  rcases parts with _ | ⟨_, _ | ⟨quoted, _ | _⟩⟩
  case cons.cons.nil =>
    exact (machines.substituted conts c quoted).bind fun same => .pure (.of ⟨_, rfl, same⟩)
  all_goals exact .fail refused

include parts forms in
/-- So do unquoted forms, which are evaluated at once. -/
theorem expandUnquote
    : Run.Mirrored F P (Node.Alike P) (m.expandUnquote c form items k)
        fun j => (ofLevels j).expandUnquote c form' items' k' := by
  have refused : (EvalError.expansion .unquote form).Alike P (.expansion .unquote form') :=
    ⟨_, rfl, forms⟩
  rcases parts with _ | ⟨_, _ | ⟨inner, _ | _⟩⟩
  case cons.cons.nil =>
    exact (machines.evaluateNow conts inner c).bind fun same => .pure (.of ⟨_, rfl, same⟩)
  all_goals exact .fail refused

end Quoting

-----------------------------------------------------------------------------------------
-- Special forms
-----------------------------------------------------------------------------------------

include forms parts in
/-- So do changes of the namespace, by the name that they give. -/
theorem expandEnterSpace
    : Run.Mirrored F P (Node.Alike P) (Machine.expandEnterSpace form items)
        fun _ => Machine.expandEnterSpace form' items' := by
  have refused : (EvalError.expansion .enterSpace form).Alike P (.expansion .enterSpace form') :=
    ⟨_, rfl, forms⟩
  rcases parts with _ | ⟨_, _ | ⟨name, _ | _⟩⟩
  case cons.cons.nil =>
    rename_i v w
    have refused : (EvalError.analysis (.notASymbol .space) v).Alike P
        (.analysis (.notASymbol .space) w) := ⟨_, _, rfl, rfl, name⟩
    cases v with
    | symbol s =>
        obtain rfl := name
        unfold Machine.expandEnterSpace
        dsimp only
        split
        · exact .fail refused
        · exact .pure (.refl P.exact _)
    | list | vector | map | set | function | expander | node =>
        obtain ⟨_, rfl, _⟩ := name
        exact .fail refused
    | _ =>
        obtain rfl := name
        exact .fail refused
  all_goals exact .fail refused

section SpecialForms

include machines conts forms

include parts in
/-- So do maps, by their keys and values. -/
theorem expandHashMap
    : Run.Mirrored F P (Node.Alike P) (m.expandHashMap c form items k)
        fun j => (ofLevels j).expandHashMap c form' items' k' := by
  have rest : FormsAlike P items.tail items'.tail := by
    cases parts with
    | nil => exact .nil
    | cons _ rest => exact rest
  unfold Machine.expandHashMap
  rw [parts.length_eq]
  split
  · exact .fail ⟨_, rfl, forms⟩
  · exact (machines.expandAll conts rest c).bind fun nodes => .pure (.of ⟨_, rfl, nodes⟩)

include parts in
/-- So do lists under any special form, by the theorem about that form. -/
theorem expandSpecialList (f : SpecialForm)
    : Run.Mirrored F P (Node.Alike P) (m.expandSpecialList f c form items k)
        fun j => (ofLevels j).expandSpecialList f c form' items' k' := by
  have rest : FormsAlike P items.tail items'.tail := by
    cases parts with
    | nil => exact .nil
    | cons _ rest => exact rest
  have together := machines.expandAll conts rest c
  cases f with
  | define => exact machines.expandDefine conts forms parts c
  | defineFunction => exact machines.expandDefineFunction conts forms parts c
  | function => exact machines.expandFunction conts forms parts c
  | sequence | vector | list | set =>
      exact together.bind fun nodes => .pure (.of ⟨_, rfl, nodes⟩)
  | conditional => exact machines.expandConditional conts forms parts c
  | binding => exact machines.expandBinding conts forms parts c
  | quote => exact machines.expandQuote conts forms parts c false
  | syntaxQuote => exact machines.expandQuote conts forms parts c true
  | unquote => exact machines.expandUnquote conts forms parts c
  | macroLiteral => exact machines.expandMacroLiteral conts forms parts c
  | defineMacro => exact machines.expandDefineMacro conts forms parts c
  | expanderLiteral => exact machines.expandExpanderLiteral conts forms parts c
  | member => exact machines.expandMember conts forms parts c
  | cast => exact machines.expandCast conts forms parts c
  | instanceOf => exact machines.expandInstanceOf conts forms parts c
  | hashMap => exact machines.expandHashMap conts forms parts c
  | enterSpace => exact expandEnterSpace forms parts

/-- So do forms under any special form, which are lists or are refused. -/
theorem expandSpecial (f : SpecialForm)
    : Run.Mirrored F P (Node.Alike P) (m.expandSpecial f c form k)
        fun j => (ofLevels j).expandSpecial f c form' k' := by
  have refused : (EvalError.expansion .notAList form).Alike P (.expansion .notAList form') :=
    ⟨_, rfl, forms⟩
  have whole := forms
  cases form with
  | list items source =>
      obtain ⟨items', rfl, alike⟩ := forms
      rw [valuesAlike_iff_forall₂] at alike
      exact (machines.expandSpecialList conts whole alike c f).bind fun node =>
        .pure (node.locatedAt source)
  | vector | map | set | function | expander | node =>
      obtain ⟨_, rfl, _⟩ := forms
      exact .fail refused
  | _ =>
      obtain rfl := forms
      exact .fail refused

end SpecialForms

-----------------------------------------------------------------------------------------
-- User expanders and macros
-----------------------------------------------------------------------------------------

omit [m.Steady] in
include machines conts forms in
/-- Forms that an expander has finished with expand alike, by whether they are nodes or other forms.
-/
theorem finish
    : Run.Mirrored F P (Node.Alike P) (m.finish c form k)
        fun j => (ofLevels j).finish c form' k' := by
  have again := machines.expand c conts forms conts
  cases form with
  | node n =>
      obtain ⟨n', rfl, alike⟩ := forms
      exact .pure alike
  | list | vector | map | set | function | expander =>
      obtain ⟨_, rfl, _⟩ := forms
      exact again
  | _ =>
      obtain rfl := forms
      exact again

/-- The expanders of user expanders whose bodies stand for each other. -/
theorem expandUser (machines : m.Mirrored F P) (seen : m.Unspecialized) {u u' : UserExpander}
    (alike : u.Alike P u') (forms : form.Alike P form') (conts : k.Alike P k') (c : ContextId)
    : Run.Mirrored F P (Node.Alike P) (m.expandUser u c form k)
        fun j => (ofLevels j).expandUser u' c form' k' := by
  have refused : (EvalError.expansion .expanderNotAList form).Alike P
      (.expansion .expanderNotAList form') := ⟨_, rfl, forms⟩
  cases form with
  | list items source =>
      obtain ⟨items', rfl, values⟩ := forms
      obtain ⟨continuation, params, bodies, bindings⟩ := alike.parts
      obtain ⟨p, p', related, evaluated, evaluated'⟩ := bodies.evaluated bindings
      have left : m.compute u.body c (u.frame k items.tail)
          = m.compute p c (u.frame k items.tail) :=
        evaluated seen c fun s => UserExpander.get?_frame
      have right (j : Nat)
          : (ofLevels j).compute u'.body c (u'.frame k' items'.tail)
            = (ofLevels j).compute p' c (u'.frame k' items'.tail) := by
        rw [← continuation, ← params] at evaluated'
        exact evaluated' (unspecialized_ofLevels j) c fun s => UserExpander.get?_frame
      have rest : ValuesAlike P items.tail items'.tail := by
        cases items with
        | nil =>
            obtain rfl := values
            rfl
        | cons =>
            obtain ⟨_, _, rfl, _, rest⟩ := values
            exact rest
      unfold Machine.expandUser
      dsimp only
      rw [params, values.length_eq, left]
      simp only [right]
      split
      · exact .fail rfl
      · refine (machines.compute related (alike.frame conts rest) c).bind fun result => ?_
        exact machines.finish conts result c
  | vector | map | set | function | expander | node =>
      obtain ⟨_, rfl, _⟩ := forms
      exact .fail refused
  | _ =>
      obtain rfl := forms
      exact .fail refused

include machines conts forms in
/-- Macros that are alike expand alike: their bodies are computed on the arguments, and what they
return is finished.
-/
theorem expandMacro {f f' : Macro} (alike : f.Alike P f')
    : Run.Mirrored F P (Node.Alike P) (m.expandMacro f c form k)
        fun j => (ofLevels j).expandMacro f' c form' k' := by
  have refused : (EvalError.expansion .macroNotAList form).Alike P
      (.expansion .macroNotAList form') := ⟨_, rfl, forms⟩
  obtain ⟨_, function⟩ := f
  cases form with
  | list items source =>
      obtain ⟨items', rfl, values⟩ := forms
      have rest : ValuesAlike P items.tail items'.tail := by
        cases items with
        | nil =>
            obtain rfl := values
            rfl
        | cons =>
            obtain ⟨_, _, rfl, _, rest⟩ := values
            exact rest
      have called : Value.Alike P (.function function) (.function f'.function) :=
        ⟨_, rfl, alike.2⟩
      refine (machines.call c called rest).bind fun result => ?_
      exact machines.finish conts result c
  | vector | map | set | function | expander | node =>
      obtain ⟨_, rfl, _⟩ := forms
      exact .fail refused
  | _ =>
      obtain rfl := forms
      exact .fail refused

-----------------------------------------------------------------------------------------
-- The initial expander
-----------------------------------------------------------------------------------------

include machines

/-- Both sides find expanders of a symbol that are alike, in slots that are. -/
theorem expanderBound? (s : Symbol)
    : Run.Mirrored F P (Option.Rel (Expander.Alike P)) (m.expanderBound? c s)
        fun j => (ofLevels j).expanderBound? c s := by
  refine (machines.slot? c s).andThen (fun _ => ?_) fun slots => ?_
  · split
    · infer_instance
    · exact .andThen fun _ => by split <;> infer_instance
  cases slots with
  | none => exact .pure .none
  | some slots =>
      refine (machines.force c slots).andThen (fun _ => by split <;> infer_instance)
        fun {v w} alike => ?_
      cases v with
      | expander e =>
          obtain ⟨_, rfl, same⟩ := alike
          exact .pure (.some same)
      | list | vector | map | set | function | node =>
          obtain ⟨_, rfl, _⟩ := alike
          exact .pure .none
      | _ =>
          obtain rfl := alike
          exact .pure .none

omit machines in
omit [m.Steady] in
/-- An expander that still has an expansion left under one bound has one left under a wider one. -/
theorem descended (conts : k.Alike P k') (forms : form.Alike P form')
    : Run.Mirrored F P (Expander.Alike P) (Run.ofExcept (k.descended form))
        fun _ => Run.ofExcept (k'.descended form') := by
  cases k with
  | initial n =>
      obtain ⟨n', rfl, rfl | ⟨widens, more⟩⟩ := conts
      · cases n' with
        | zero => exact .ofExcept (.error ⟨_, rfl, forms⟩)
        | succ n => exact .ofExcept (.ok ⟨n, rfl, .inl rfl⟩)
      · cases n with
        | zero =>
            refine .of_widens widens fun scope st e never => ?_
            cases never
        | succ n =>
            obtain ⟨n', rfl⟩ := Nat.exists_eq_add_of_le' (Nat.le_trans (Nat.le_add_left 1 n) more)
            exact .ofExcept (.ok ⟨n', rfl, .inr ⟨widens, Nat.le_of_succ_le_succ more⟩⟩)
  | form =>
      obtain rfl := conts
      exact .ofExcept (.ok rfl)
  | ofUser | ofMacro =>
      obtain ⟨_, rfl, inner⟩ := conts
      exact .ofExcept (.ok ⟨_, rfl, inner⟩)

omit machines in
omit [m.Steady] in
/-- Both sides go on with expanders that are alike, for expanders, forms and continuations that are.
-/
theorem continuationFor {e e' : Expander} (expanders : e.Alike P e') (conts : k.Alike P k')
    (forms : form.Alike P form')
    : Run.Mirrored F P (Expander.Alike P) (Machine.continuationFor e form k)
        fun _ => Machine.continuationFor e' form' k' := by
  have descended := descended (F := F) conts forms
  cases e with
  | form =>
      obtain rfl := expanders
      exact .pure conts
  | initial | ofUser | ofMacro =>
      obtain ⟨_, rfl, _⟩ := expanders
      exact descended

include conts

/-- Calls that are alike expand alike, by the callee and the arguments. -/
theorem expandCall (forms : form.Alike P form') (parts : FormsAlike P items items')
    (source : Option Location)
    : Run.Mirrored F P (Node.Alike P) (m.expandCall c form items source k)
        fun j => (ofLevels j).expandCall c form' items' source k' := by
  refine (machines.expand c conts forms conts).bind fun callee => ?_
  refine ((machines.expandAll conts parts c).holdingNode callee).bind fun {ns ns'} args => ?_
  have called : Shape.Alike P (.apply _ ns) (.apply _ ns') := ⟨_, _, rfl, callee, args⟩
  exact .pure ((Node.Alike.of called).locatedAt source)

include forms in
/-- Lists that are alike expand alike, by the expander that the head is bound to, if any. -/
theorem expandList (parts : FormsAlike P items items') (source : Option Location)
    : Run.Mirrored F P (Node.Alike P) (m.expandList c form items source k)
        fun j => (ofLevels j).expandList c form' items' source k' := by
  have whole := parts
  cases parts with
  | nil =>
      have constant : (Shape.constant form).Alike P (.constant form') := ⟨_, rfl, forms⟩
      exact .pure (.of constant)
  | @cons head head' args args' first rest =>
      have called := machines.expandCall conts c first rest source
      cases head with
      | symbol s =>
          obtain rfl := first
          refine (machines.expanderBound? c s).andThen (fun _ => ?_) fun bound => ?_
          · split
            · infer_instance
            · split <;> infer_instance
          cases bound with
          | some expanders =>
              refine (continuationFor expanders conts forms).bind fun conts => ?_
              exact (machines.expand c expanders forms conts).bind fun node =>
                .pure (node.including s)
          | none =>
              dsimp only
              split
              · refine (Run.Mirrored.ofExcept (memberCall_alike _ forms whole source)).bind ?_
                exact fun calls => machines.expand c conts calls conts
              · exact called
      | list | vector | map | set | function | expander | node =>
          obtain ⟨_, rfl, _⟩ := first
          exact called
      | _ =>
          obtain rfl := first
          exact called

include forms

/-- So do forms in the initial expander, by their cases. -/
theorem expandInitial
    : Run.Mirrored F P (Node.Alike P) (m.expandInitial c form k)
        fun j => (ofLevels j).expandInitial c form' k' := by
  have whole := forms
  cases form with
  | list items source =>
      obtain ⟨items', rfl, alike⟩ := forms
      exact machines.expandList conts whole c (valuesAlike_iff_forall₂.mp alike) source
  | vector | set =>
      obtain ⟨_, rfl, alike⟩ := forms
      exact (machines.expandAll conts (valuesAlike_iff_forall₂.mp alike) c).bind fun nodes =>
        .pure (.of ⟨_, rfl, nodes⟩)
  | map =>
      obtain ⟨_, rfl, alike⟩ := forms
      exact (machines.expandEntries conts c alike).bind fun nodes => .pure (.of ⟨_, rfl, nodes⟩)
  | node =>
      obtain ⟨_, rfl, alike⟩ := forms
      exact .pure alike
  | function | expander =>
      obtain ⟨_, rfl, _⟩ := forms
      exact .pure (.of ⟨_, rfl, whole⟩)
  | _ =>
      obtain rfl := forms
      exact .pure (.refl P.exact _)

/-- Expansion of alike forms by alike expanders. Witness: by the expanders. -/
theorem expandForm (seen : m.Unspecialized) {e e' : Expander} (expanders : e.Alike P e')
    : Run.Mirrored F P (Node.Alike P) (m.expandForm e c form k)
        fun j => (ofLevels j).expandForm e' c form' k' := by
  cases e with
  | initial =>
      obtain ⟨_, rfl, _⟩ := expanders
      exact machines.expandInitial conts forms c
  | form f =>
      obtain rfl := expanders
      exact machines.expandSpecial conts forms c f
  | ofUser =>
      obtain ⟨_, rfl, alike⟩ := expanders
      exact machines.expandUser seen alike forms conts c
  | ofMacro =>
      obtain ⟨_, rfl, alike⟩ := expanders
      exact machines.expandMacro conts forms c alike

end IncrementalLisp.Machine.Mirrored
