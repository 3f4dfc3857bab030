import IncrementalLisp.Location

/-! Texts that tell places. Such a text is kept in pieces, so that the places in it stand apart from
the words, also after it has become part of another text.
-/

namespace IncrementalLisp

/-- A piece of a text: words, or a place that the text tells. -/
inductive Piece where
  | words (text : String)
  | place (location : Location)
deriving DecidableEq, Repr

/-- The spelling of a piece. -/
def Piece.text : Piece → String
  | .words text => text
  | .place l => l.toString

/-- A text in pieces. -/
abbrev Wording := List Piece

namespace Wording

/-- The text that the pieces make up. -/
def text (w : Wording)
    : String :=
  w.foldr (fun piece rest => piece.text ++ rest) ""

/-- A text without places. -/
def plain (text : String)
    : Wording :=
  [.words text]

/-- The mention of a place, where there is one. -/
def atPlace : Option Location → Wording
  | some l => [.words " at ", .place l]
  | none => []

end Wording

end IncrementalLisp
