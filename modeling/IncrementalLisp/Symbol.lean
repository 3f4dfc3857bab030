import Std.Data.ExtTreeMap
import Std.Data.ExtTreeSet

/-! Identifiers: a name, optionally qualified by a namespace. The qualified and the bare symbol
of one name are different; which definition a bare symbol means is decided by a context.
Symbols are ordered with the bare ones first, so sets and maps of symbols have one form each.
-/

namespace IncrementalLisp

/-- A name in a namespace, or a bare name. -/
structure Symbol where
  qualifier : Option String
  name : String
deriving DecidableEq, Repr

/-- The namespace of the special forms and the primitive functions. -/
def coreSpace : String := "entmoot.core"

namespace Symbol

/-- A symbol without a namespace. -/
def bare (name : String)
    : Symbol :=
  ⟨none, name⟩

/-- A symbol in a namespace. -/
def inSpace (space name : String)
    : Symbol :=
  ⟨some space, name⟩

/-- The symbol whose value is the name of the current namespace. -/
def currentSpace : Symbol := inSpace coreSpace "*ns*"

/-- Reads a spelling: the last slash divides namespace and name unless one of the two would be
empty.
-/
def ofString (text : String)
    : Symbol :=
  let reversed := text.toList.reverse
  let name := reversed.takeWhile (· != '/')
  match reversed.dropWhile (· != '/') with
  | _ :: space =>
      if name.isEmpty || space.isEmpty then bare text
      else inSpace (String.ofList space.reverse) (String.ofList name.reverse)
  | [] => bare text

/-- The spelling of a symbol. -/
def toString (s : Symbol)
    : String :=
  match s.qualifier with
  | some space => space ++ "/" ++ s.name
  | none => s.name

instance : ToString Symbol := ⟨toString⟩

/-- Whether a symbol names its namespace. -/
def isQualified (s : Symbol)
    : Bool :=
  s.qualifier.isSome

/-- The symbol in the given namespace, unless it has one already. -/
def qualify (space : String) (s : Symbol)
    : Symbol :=
  if s.isQualified then s else inSpace space s.name

/-- The bare symbol of the same name. -/
def unqualified (s : Symbol)
    : Symbol :=
  bare s.name

instance : Ord Symbol where
  compare := compareLex (compareOn qualifier) (compareOn name)

/-- Symbols are ordered by their qualifier and then by their name, by definition. -/
theorem compare_eq
    : (compare : Symbol → Symbol → Ordering)
      = compareLex (compareOn qualifier) (compareOn name) :=
  rfl

instance : Std.TransOrd Symbol := by
  unfold Std.TransOrd
  rw [compare_eq]
  infer_instance

instance : Std.LawfulEqOrd Symbol where
  compare_self := by
    intro s
    rw [compare_eq]
    simp [compareLex, compareOn]
  eq_of_compare := by
    intro s t equal
    rw [compare_eq] at equal
    simp [compareLex, compareOn, Ordering.then_eq_eq] at equal
    cases s
    cases t
    simp_all

/-- Qualifying a symbol that is qualified already changes nothing, by the test in the definition. -/
theorem qualify_of_isQualified {s : Symbol} (space : String) (h : s.isQualified)
    : s.qualify space = s := by
  simp [qualify, h]

/-- A symbol is qualified once it has been qualified, by cases on whether it was before. -/
theorem isQualified_qualify (space : String) (s : Symbol)
    : (s.qualify space).isQualified := by
  unfold qualify
  split
  · assumption
  · rfl

end Symbol

/-- Sets of symbols. -/
abbrev SymbolSet := Std.ExtTreeSet Symbol

/-- Maps from symbols. -/
abbrev SymbolMap (α : Type) := Std.ExtTreeMap Symbol α

end IncrementalLisp
