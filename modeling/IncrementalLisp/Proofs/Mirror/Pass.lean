import IncrementalLisp.Proofs.Machine.Specialized
import IncrementalLisp.Proofs.Node.Optimized
import IncrementalLisp.Proofs.Value.Held

/-! Passes over programs. A pass relates programs to those that may stand for them; values that
differ by it have the same identities and contexts, but the bodies of their functions and
expanders may be related programs, with alike values put in for captured names. A pass may also
widen the bounds under which programs run, and it may need all tables to be arranged alike, since
one of the programs may make more of them than the other.
-/

namespace IncrementalLisp

/-- A relation of programs that refer to certain contexts only, which may run under wider bounds if
the pass widens them. If the order is an arrangement, all tables are arranged like that.
-/
structure Pass where
  relates : Node → Node → Prop
  widens : Prop
  order : Option Arrangement
  kept : List ContextId
  refers
    : ∀ {n n'}, relates n n' → Among (· ∈ kept) n.contexts ∧ Among (· ∈ kept) n'.contexts

namespace Pass

/-- (P.Bounds n k) says that the second of two bounds may stand for the first. -/
def Bounds (P : Pass) (n k : Nat)
    : Prop :=
  k = n ∨ P.widens ∧ n ≤ k

/-- The bound of the other side is the same or a wider one. -/
theorem Bounds.le {P : Pass} {n k : Nat} (bounds : P.Bounds n k)
    : n ≤ k := by
  rcases bounds with rfl | ⟨_, wider⟩
  · exact Nat.le_refl k
  · exact wider

/-- Likeness up to related bodies, in which the captured values are put in for their names, and up
to the numbers of expansions that are left.
-/
def likeness (P : Pass)
    : Likeness where
  context _ c d := d = c
  identity i j := j = i
  body names b n b' n' :=
    (∀ s ∈ names, Bindings.get? b s = none)
      ∧ ∃ p p', P.relates p p' ∧ n = p.specialized b ∧ n' = p'.specialized b'
  count := P.Bounds
  reflexive _ := rfl
  counted _ := .inl rfl

instance : Coe Pass Likeness := ⟨likeness⟩

variable (P : Pass)

/-- The likeness of a pass keeps identities and contexts exactly. -/
theorem exact
    : P.likeness.Exact :=
  ⟨id, Iff.rfl⟩

/-- It holds of the contexts that the pass keeps. -/
theorem holds
    : P.likeness.Holds P.kept where
  identity := id
  context := Iff.rfl
  body := by
    have captured {n : Node} (refers : Among (· ∈ P.kept) n.contexts) (b : Bindings)
        {c : ContextId} (free : c ∉ P.kept) (member : c ∈ (n.specialized b).contexts)
        : c ∈ contextsOfBindings b := by
      have among : Among (fun d => d ∈ P.kept ∨ d ∈ contextsOfBindings b)
          (n.specialized b).contexts :=
        Node.among_specialized (fun d known => .inl (refers d known)) fun _ => .inr
      exact (among c member).resolve_left free
    rintro names b n b' n' ⟨_, p, p', related, rfl, rfl⟩ c free
    obtain ⟨left, right⟩ := P.refers related
    exact ⟨captured left b free, captured right b' free⟩

/-- (P.Related n n') says that two programs are alike, or that the pass relates them. -/
def Related (n n' : Node)
    : Prop :=
  n.Alike P n' ∨ P.relates n n'

/-- (P.Stands names b n b' n') says that two bodies are alike, or stand for each other under their
captured bindings.
-/
def Stands (names : List Symbol) (b : Bindings) (n : Node) (b' : Bindings) (n' : Node)
    : Prop :=
  n.Alike P n' ∨ P.likeness.body names b n b' n'

variable {P} {b b' : Bindings} {n n' : Node}

/-- Related programs refer to the same contexts, apart from those that the pass keeps. -/
theorem Related.contexts_same (related : P.Related n n')
    : SameBut P.kept n.contexts n'.contexts := by
  rcases related with alike | relates
  · exact alike.contexts_same P.holds
  · exact .of_among (P.refers relates).1 (P.refers relates).2

/-- The bodies of related literals stand for each other, whatever they capture. -/
theorem Related.stands (related : P.Related n n') (bindings : BindingsAlike P b b')
    (names : List Symbol)
    : P.Stands names (b.eraseAll names) (n.specialized (b.eraseAll names)) (b'.eraseAll names)
        (n'.specialized (b'.eraseAll names)) := by
  rcases related with alike | relates
  · exact .inl (alike.specialized (bindings.eraseAll names))
  · refine .inr ⟨fun s listed => ?_, n, n', relates, rfl, rfl⟩
    rw [Bindings.get?_eraseAll, if_pos listed]

/-- A machine on which specialization is invisible evaluates bodies that stand for each other as it
evaluates related programs, under bindings that give other values only to the names of a call.
-/
theorem Stands.evaluated {names : List Symbol} (stands : P.Stands names b n b' n')
    (bindings : BindingsAlike P b b')
    : ∃ p p', P.Related p p'
        ∧ (∀ {m : Machine}, m.Unspecialized → ∀ {more : Bindings} (c : ContextId),
            (∀ s ∉ names, more.get? s = b.get? s) → m.compute n c more = m.compute p c more)
        ∧ (∀ {m : Machine}, m.Unspecialized → ∀ {more : Bindings} (c : ContextId),
            (∀ s ∉ names, more.get? s = b'.get? s)
              → m.compute n' c more = m.compute p' c more) := by
  have within {b more : Bindings} (unbound : ∀ s ∈ names, b.get? s = none)
      (beyond : ∀ s ∉ names, more.get? s = b.get? s)
      : b.Within more := by
    intro s v known
    by_cases listed : s ∈ names
    · rw [unbound s listed] at known
      cases known
    · rw [beyond s listed, known]
  rcases stands with alike | ⟨unbound, p, p', relates, rfl, rfl⟩
  · exact ⟨n, n', .inl alike, fun _ _ _ _ => rfl, fun _ _ _ _ => rfl⟩
  · have others : ∀ s ∈ names, b'.get? s = none := by
      intro s listed
      have both := bindings.get? s
      rw [unbound s listed] at both
      generalize b'.get? s = o at both ⊢
      cases both
      rfl
    exact ⟨p, p', .inr relates,
      fun seen _ c beyond => seen.compute (within unbound beyond) p c,
      fun seen _ c beyond => seen.compute (within others beyond) p' c⟩

end Pass

end IncrementalLisp
