import IncrementalLisp.Reader.State

/-! The forms of a text, in order, up to its end or to the first fault.
-/

namespace IncrementalLisp

/-- What was read from a text: the complete forms, and the fault that ended the reading early.
-/
structure Reading where
  forms : List Value
  error : Option ReadError

namespace Reader

/-- The place name of a text without a name. -/
def unnamed : String := "<input>"

/-- The outcome of a finished run. -/
def State.outcome (s : State)
    : Reading :=
  match s.mode with
  | .failed e => ⟨s.forms.reverse, some e⟩
  | _ => ⟨s.forms.reverse, none⟩

/-- Reads a text, naming it in locations. -/
def readNamed (a : Arrangement) (file text : String)
    : Reading :=
  (text.toList.foldl State.feed (State.start a file)).finish.outcome

/-- Reads a text. -/
def read (a : Arrangement) (text : String)
    : Reading :=
  readNamed a unnamed text

end Reader

end IncrementalLisp
