/-! Places in source texts. Lines and columns count from one; a column is a number of
characters.
-/

namespace IncrementalLisp

/-- A character position in a named text. -/
structure Location where
  file : String
  line : Nat
  column : Nat
deriving DecidableEq, Repr

namespace Location

/-- The spelling file:line:column. -/
def toString (l : Location)
    : String :=
  l.file ++ ":" ++ ToString.toString l.line ++ ":" ++ ToString.toString l.column

instance : ToString Location := ⟨toString⟩

/-- The place after a character. -/
def after (l : Location) (c : Char)
    : Location :=
  if c == '\n' then { l with line := l.line + 1, column := 1 }
  else { l with column := l.column + 1 }

end Location

end IncrementalLisp
