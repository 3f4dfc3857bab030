import IncrementalLisp.Expansion.Basic

/-! Quoting. A quoted form is returned as it is, except that each outermost unquoted form in it is
replaced by its value at the time of the expansion. Nothing inside a substituted value is
substituted again.
-/

namespace IncrementalLisp.Machine

variable (m : Machine)

mutual

/-- A form with values for the unquoted forms in it. -/
def substituted (c : ContextId) (k : Expander)
    : Value → Run Value
  | .list items source =>
      match unquoted? items with
      | some inner => m.evaluateNow c inner k
      | none => do return .list (← substitutedAll c k items) source
  | .vector items => do return .vector (← substitutedAll c k items)
  | .set items => do
      let items ← substitutedAll c k items
      return .setOf (← Run.arrangementFor items.length) items
  | .map entries => do
      let entries ← substitutedEntries c k entries
      return .mapOf (← Run.arrangementFor entries.length) entries
  | form => return form
termination_by structural form => form

/-- Several forms with values for the unquoted forms in them. -/
def substitutedAll (c : ContextId) (k : Expander)
    : List Value → Run (List Value)
  | [] => return []
  | form :: rest => do
      let v ← substituted c k form
      return v :: (← Run.holding [v] (substitutedAll c k rest))
termination_by structural forms => forms

/-- The entries of a map form with values for the unquoted forms in them. -/
def substitutedEntries (c : ContextId) (k : Expander)
    : List (Value × Value) → Run (List (Value × Value))
  | [] => return []
  | (key, value) :: rest => do
      let key ← substituted c k key
      let value ← Run.holding [key] (substituted c k value)
      return (key, value) :: (← Run.holding [key, value] (substitutedEntries c k rest))
termination_by structural entries => entries

end

/-- The forms (quote form) and (syntax-quote form). -/
def expandQuote (isSyntax : Bool) (c : ContextId) (form : Value) (items : List Value)
    (k : Expander)
    : Run Node := do
  match items with
  | [_, quoted] => return .of (.quote (← m.substituted c k quoted) isSyntax)
  | _ => Run.fail (.expansion .quote form)

/-- The form (unquote form) outside of a quoted form. -/
def expandUnquote (c : ContextId) (form : Value) (items : List Value) (k : Expander)
    : Run Node := do
  match items with
  | [_, inner] => return .constant (← m.evaluateNow c inner k)
  | _ => Run.fail (.expansion .unquote form)

end IncrementalLisp.Machine
