import IncrementalLisp.Text.JoinClass

/-! Clusters: the characters that a reader sees, each of one or more code points. Whether a code
point continues the cluster before it depends on the classes of the two, and in three cases on
what stands before them: consonants join through a linker, pictographs through a joiner, and
regional indicators in pairs.
-/

namespace IncrementalLisp.Text

/-- What may join with the next code point from further back. -/
structure Trail where
  /-- The class of the code point before. -/
  last : JoinClass
  /-- A pictograph stands before, with nothing but marks after it. -/
  pictograph : Bool
  /-- A pictograph stands before, with nothing but marks and then a joiner after it. -/
  joined : Bool
  /-- A consonant stands before, with nothing but marks and joiners after it. -/
  consonant : Bool
  /-- Such a consonant stands before, and one of the marks is a linker. -/
  linked : Bool
  /-- An odd number of regional indicators stands before. -/
  unpaired : Bool
deriving DecidableEq, Repr

namespace Trail

/-- The trail at the start of a text. -/
def start : Trail := ⟨.control, false, false, false, false, false⟩

/-- The trail behind one more code point. -/
def push (t : Trail) (c : Char)
    : Trail :=
  let joinClass := JoinClass.of c
  let isExtending := joinClass == .extend
  let passes := (isExtending && c.toNat != 8204) || joinClass == .joiner
  { last := joinClass
    pictograph := joinClass == .pictograph || (isExtending && t.pictograph)
    joined := joinClass == .joiner && t.pictograph
    consonant := joinClass == .consonant || (passes && t.consonant)
    linked := passes && t.consonant && (t.linked || isLinker c)
    unpaired := joinClass == .indicator && !t.unpaired }

/-- Whether a code point of a class continues the cluster that ends with the trail. -/
def joins (t : Trail) (next : JoinClass)
    : Bool :=
  match t.last, next with
  | .carriageReturn, .lineFeed => true
  | .carriageReturn, _ | .lineFeed, _ | .control, _ => false
  | _, .carriageReturn | _, .lineFeed | _, .control => false
  | .leading, .leading | .leading, .vowel | .leading, .openSyllable => true
  | .leading, .closedSyllable => true
  | .openSyllable, .vowel | .openSyllable, .trailing | .vowel, .vowel | .vowel, .trailing => true
  | .closedSyllable, .trailing | .trailing, .trailing => true
  | _, .extend | _, .joiner | _, .spacing => true
  | .prepended, _ => true
  | _, .consonant => t.linked
  | _, .pictograph => t.joined
  | .indicator, .indicator => t.unpaired
  | _, _ => false

end Trail

/-- Clusters found so far, the last one first and each in reverse, and the trail behind them. -/
structure Division where
  clusters : List (List Char)
  trail : Trail

namespace Division

/-- The division of the empty text. -/
def start : Division := ⟨[], Trail.start⟩

/-- The division of a text with one more code point. -/
def push (d : Division) (c : Char)
    : Division :=
  let clusters := match d.clusters with
    | cluster :: rest =>
        if d.trail.joins (JoinClass.of c) then (c :: cluster) :: rest else [c] :: d.clusters
    | [] => [[c]]
  ⟨clusters, d.trail.push c⟩

end Division

/-- The clusters of a text, in order. -/
def clusters (text : String)
    : List (List Char) :=
  ((text.toList.foldl Division.push Division.start).clusters.map List.reverse).reverse

end IncrementalLisp.Text
