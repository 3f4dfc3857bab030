import IncrementalLisp.Text.CodeRange

/-! Characters with the Unicode property White_Space, and cutting them off the ends of a text.
-/

namespace IncrementalLisp.Text

/-- White_Space of Unicode 17. -/
def blankRanges : List CodeRange :=
  [(9, 13, 1), (32, 32, 1), (133, 133, 1), (160, 160, 1), (5760, 5760, 1), (8192, 8202, 1),
   (8232, 8233, 1), (8239, 8239, 1), (8287, 8287, 1), (12288, 12288, 1)]

/-- Whether a character separates words. -/
def isBlank (c : Char)
    : Bool :=
  inRanges blankRanges c

/-- A text without the blanks at its start. -/
def trimStart (text : List Char)
    : List Char :=
  text.dropWhile isBlank

/-- A text without the blanks at either end. -/
def trim (text : String)
    : String :=
  String.ofList (trimStart (trimStart text.toList).reverse).reverse

/-- The maximal runs of characters that are not blank, in order, after the run read so far in
reverse.
-/
def wordsFrom : List Char → List Char → List (List Char)
  | [], [] => []
  | run, [] => [run.reverse]
  | run, c :: rest =>
      if isBlank c then
        if run.isEmpty then wordsFrom [] rest else run.reverse :: wordsFrom [] rest
      else wordsFrom (c :: run) rest

/-- The words of a text. -/
def words (text : String)
    : List String :=
  (wordsFrom [] text.toList).map String.ofList

end IncrementalLisp.Text
