import IncrementalLisp.Text.Cluster

/-! Lines as they are typed. A backspace in a line takes back the cluster before it. The size of a
cluster in bytes is remembered in a single byte, so of a cluster of 256 bytes or more only a part
is taken back.
-/

namespace IncrementalLisp

/-- A line while it is typed: its characters, the last one first, and the remembered sizes of the
clusters it was made of.
-/
structure Draft where
  characters : List Char
  sizes : List Nat
deriving DecidableEq, Repr

/-- A text in reverse without its last bytes, unless they begin inside of a character. -/
def dropBytes? : Nat → List Char → Option (List Char)
  | 0, text => some text
  | _ + 1, [] => none
  | size + 1, c :: text =>
      if c.utf8Size ≤ size + 1 then dropBytes? (size + 1 - c.utf8Size) text else none
termination_by structural _ text => text

namespace Draft

/-- The draft in which nothing is typed yet. -/
def empty : Draft := ⟨[], []⟩

/-- The size of a cluster as it is remembered. -/
def rememberedSize (cluster : List Char)
    : Nat :=
  cluster.foldl (fun size c => size + c.utf8Size) 0 % 256

/-- The draft after one more cluster is typed. -/
def type? (d : Draft) (cluster : List Char)
    : Option Draft :=
  if cluster == ['\x08'] then
    match d.sizes with
    | [] => some d
    | size :: sizes => (dropBytes? size d.characters).map (⟨·, sizes⟩)
  else some ⟨cluster.reverse ++ d.characters, rememberedSize cluster :: d.sizes⟩

end Draft

/-- A line as it was meant, unless a part of a character would be left of it. -/
def corrected? (typed : String)
    : Option String :=
  if typed.toList.contains '\x08' then
    ((Text.clusters typed).foldlM Draft.type? Draft.empty).map fun d =>
      String.ofList d.characters.reverse
  else some typed

end IncrementalLisp
