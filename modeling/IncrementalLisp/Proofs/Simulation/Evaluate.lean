import IncrementalLisp.Proofs.Simulation.Lookup

/-! Evaluation of alike nodes. In contexts that match on the free names of two alike nodes their
evaluation from scratch, as far as dependencies account for it, has values alike to those that it
had in the history of a store, and leaves contexts that match wherever those before did.
-/

namespace IncrementalLisp

open Store Run

variable {left right : Store} {m m' : Machine} {N N' : Nat} {c d : ContextId} {b b' : Bindings}

/-- Results of evaluations that started in matching contexts: alike values, and contexts that match
wherever the first ones did.
-/
def Run.Ends (left right : Store) (N N' : Nat) (c d : ContextId) (n n' : Nat)
    (x y : Value × ContextId)
    : Prop :=
  x.1.Alike (left.Matches right n n') y.1
    ∧ ∀ names, left.Matches right N N' names c d → left.Matches right n n' names x.2 y.2

/-- (FreeIn set b s) says that a name of the set is not bound. -/
def FreeIn (set : SymbolSet) (b : Bindings) (s : Symbol)
    : Prop :=
  s ∈ set ∧ b.lexical? s = none

/-- Contexts that match for what a whole reads match for what a part of it reads. -/
theorem Store.Matched.part {set all : SymbolSet}
    (matched : left.Matches right N N' (FreeIn all b) c d) (within : set.Within all)
    : left.Matches right N N' (FreeIn set b) c d :=
  matched.fewer fun s free => ⟨within s free.1, free.2⟩

/-- The first set is within the union. -/
theorem within_union_left (first last : SymbolSet)
    : first.Within (first ∪ last) :=
  fun _ member => Std.ExtTreeSet.mem_union_iff.mpr (Or.inl member)

/-- The last set is within the union. -/
theorem within_union_right (first last : SymbolSet)
    : last.Within (first ∪ last) :=
  fun _ member => Std.ExtTreeSet.mem_union_iff.mpr (Or.inr member)

/-- The result of an evaluation that leaves the context as it was. -/
theorem Run.Ends.still {n n' : Nat} {v w : Value} (bound : N ≤ n) (bound' : N' ≤ n')
    (alike : v.Alike (left.Matches right n n') w)
    : Ends left right N N' c d n n' (v, c) (w, d) :=
  ⟨alike, fun _ matched => matched.mono id bound bound'⟩

/-- A result in contexts that match wherever earlier ones did, of which the same was true. -/
theorem Run.Ends.trans {n n' l l' : Nat} {c₁ d₁ : ContextId} {x y : Value × ContextId}
    (first : ∀ names, left.Matches right N N' names c d → left.Matches right n n' names c₁ d₁)
    (ends : Ends left right n n' c₁ d₁ l l' x y)
    : Ends left right N N' c d l l' x y :=
  ⟨ends.1, fun names matched => ends.2 names (first names matched)⟩

namespace Machine.Simulates

variable [m.Follows Leads] [m'.Follows Leads]

/-- Runs whose values are alike, put together with the contexts in which they ran. -/
theorem kept {L L' : Nat} (bound : L ≤ N) (bound' : L' ≤ N') {x y : Run Value}
    (simulates : Run.Simulates left right N N' (fun n n' v w => v.Alike (left.Matches right n n') w) x y)
    [Run.Follows Leads x] [Run.Follows Leads y]
    : Run.Simulates left right N N' (Ends left right L L' c d) (do return (← x, c))
        (do return (← y, d)) :=
  simulates.bind fun grows grows' alike => .pure fun _ _ onward onward' =>
    .still (Nat.le_trans bound (Nat.le_trans grows onward))
      (Nat.le_trans bound' (Nat.le_trans grows' onward'))
      (alike.mono (Matched.within id onward onward'))

/-- The values of nodes that are alike simulate each other, in contexts that match for what they
read.
-/
theorem compute (machines : m.Simulates left right m') {node node' : Node}
    (alike : node.Alike (left.Matches right N N') node')
    (bindings : BindingsAlike (left.Matches right N N') b b')
    (matched : left.Matches right N N' (node.Free b) c d)
    : Run.Simulates left right N N' (fun n n' v w => v.Alike (left.Matches right n n') w)
        (m.compute node c b) (m'.compute node' d b') :=
  (machines.eval alike bindings matched).bind fun _ _ ends => .pure fun _ _ grows grows' =>
    ends.1.mono (Matched.within id grows grows')

/-- Alike nodes evaluated one after the other, in whatever relation the values of each are. -/
theorem computeAll_of {m m' : Machine} [m.Follows Leads] [m'.Follows Leads]
    {V : Nat → Nat → Value → Value → Prop}
    (mono : ∀ {n n' l l' v w}, n ≤ l → n' ≤ l' → V n n' v w → V l l' v w)
    (each
      : ∀ {n n' : Nat} {node node' : Node}, node.Alike (left.Matches right n n') node'
        → BindingsAlike (left.Matches right n n') b b'
        → left.Matches right n n' (node.Free b) c d
        → Run.Simulates left right n n' V (m.compute node c b) (m'.compute node' d b'))
    {nodes nodes' : List Node} (alike : NodesAlike (left.Matches right N N') nodes nodes')
    (bindings : BindingsAlike (left.Matches right N N') b b')
    (matched : left.Matches right N N' (FreeIn (dependenciesOfAll nodes) b) c d)
    : Run.Simulates left right N N' (fun n n' => List.Forall₂ (V n n')) (m.computeAll nodes c b)
        (m'.computeAll nodes' d b') := by
  induction nodes generalizing nodes' N N' with
  | nil =>
      obtain rfl := alike
      exact .pure fun _ _ _ _ => .nil
  | cons node rest ih =>
      obtain ⟨node', rest', rfl, first, last⟩ := alike
      rw [dependenciesOfAll] at matched
      have head : left.Matches right N N' (node.Free b) c d :=
        matched.part (within_union_left _ _)
      have tail : left.Matches right N N' (FreeIn (dependenciesOfAll rest) b) c d :=
        matched.part (within_union_right _ _)
      unfold Machine.computeAll Run.gather
      refine (each first bindings head).bind fun bound bound' value => ?_
      have later := ih (last.mono (Matched.within id bound bound'))
        (bindings.mono (Matched.within id bound bound')) (tail.mono id bound bound')
      exact later.holding.bind fun grows grows' values => .pure fun _ _ onward onward' =>
        .cons (mono (Nat.le_trans grows onward) (Nat.le_trans grows' onward') value)
          (values.imp fun _ _ inner => mono onward onward' inner)

/-- The values of several nodes simulate each other, one after the other. -/
theorem computeAll (machines : m.Simulates left right m') {nodes nodes' : List Node}
    (alike : NodesAlike (left.Matches right N N') nodes nodes')
    (bindings : BindingsAlike (left.Matches right N N') b b')
    (matched : left.Matches right N N' (FreeIn (dependenciesOfAll nodes) b) c d)
    : Run.Simulates left right N N' (fun n n' => ValuesAlike (left.Matches right n n'))
        (m.computeAll nodes c b) (m'.computeAll nodes' d b') := by
  have each := computeAll_of (V := fun n n' v w => v.Alike (left.Matches right n n') w)
    (fun grows grows' inner => inner.mono (Matched.within id grows grows')) machines.compute alike
    bindings matched
  exact each.mono fun _ _ values => valuesAlike_iff_forall₂.mpr values

-----------------------------------------------------------------------------------------
-- Sequences and bindings
-----------------------------------------------------------------------------------------

/-- So do sequences. Witness: induction on the body; the contexts match for what is left to read. -/
theorem evalSequence (machines : m.Simulates left right m') {body body' : List Node}
    {last last' : Value} (alike : NodesAlike (left.Matches right N N') body body')
    (bindings : BindingsAlike (left.Matches right N N') b b')
    (lasts : last.Alike (left.Matches right N N') last')
    (matched : left.Matches right N N' (FreeIn (dependenciesOfAll body) b) c d)
    : Run.Simulates left right N N' (Ends left right N N' c d) (m.evalSequence body last c b)
        (m'.evalSequence body' last' d b') := by
  induction body generalizing body' last last' c d N N' with
  | nil =>
      obtain rfl := alike
      exact .pure fun _ _ bound bound' => .still bound bound'
        (lasts.mono (Matched.within id bound bound'))
  | cons node rest ih =>
      obtain ⟨node', rest', rfl, first, others⟩ := alike
      rw [dependenciesOfAll] at matched
      have head : left.Matches right N N' (node.Free b) c d :=
        matched.part (within_union_left _ _)
      have tail : left.Matches right N N' (FreeIn (dependenciesOfAll rest) b) c d :=
        matched.part (within_union_right _ _)
      unfold Machine.evalSequence
      refine (machines.eval first bindings head).holding.bind fun {_ _ x y} bound bound' ends => ?_
      obtain ⟨v, c₁⟩ := x
      obtain ⟨w, d₁⟩ := y
      have later := ih (others.mono (Matched.within id bound bound'))
        (bindings.mono (Matched.within id bound bound')) ends.1 (ends.2 _ tail)
      exact later.mono fun _ _ => Ends.trans ends.2

/-- So do bindings. Witness: induction on the pairs. -/
theorem evalPairs (machines : m.Simulates left right m') {pairs pairs' : List (Symbol × Node)}
    {inner inner' : Bindings} (alike : PairsAlike (left.Matches right N N') pairs pairs')
    (outer : BindingsAlike (left.Matches right N N') b b')
    (bindings : BindingsAlike (left.Matches right N N') inner inner')
    (matched : left.Matches right N N' (FreeIn (dependenciesOfPairs pairs) b) c d)
    : Run.Simulates left right N N'
        (fun n n' x y => BindingsAlike (left.Matches right n n') x.1 y.1
          ∧ (∀ names, left.Matches right N N' names c d → left.Matches right n n' names x.2 y.2)
          ∧ ∀ s, Bindings.get? x.1 s = none → inner.get? s = none ∧ s ∉ pairs.map (·.1))
        (m.evalPairs b pairs inner c) (m'.evalPairs b' pairs' inner' d) := by
  induction pairs generalizing pairs' inner inner' c d N N' with
  | nil =>
      obtain rfl := alike
      refine .pure fun _ _ bound bound' => ⟨bindings.mono (Matched.within id bound bound'), ?_, ?_⟩
      · exact fun _ matched => matched.mono id bound bound'
      · intro s absent
        exact ⟨absent, List.not_mem_nil⟩
  | cons pair rest ih =>
      obtain ⟨s, expr⟩ := pair
      obtain ⟨expr', rest', rfl, first, others⟩ := alike
      rw [dependenciesOfPairs] at matched
      have head : left.Matches right N N' (expr.Free b) c d :=
        matched.part (within_union_left _ _)
      have tail : left.Matches right N N' (FreeIn (dependenciesOfPairs rest) b) c d :=
        matched.part (within_union_right _ _)
      unfold Machine.evalPairs
      refine (machines.eval first outer head).holding.bind fun {_ _ x y} bound bound' ends => ?_
      obtain ⟨v, c₁⟩ := x
      obtain ⟨w, d₁⟩ := y
      have later := ih (others.mono (Matched.within id bound bound'))
        (outer.mono (Matched.within id bound bound'))
        (BindingsAlike.insert (bindings.mono (Matched.within id bound bound')) s ends.1)
        (ends.2 _ tail)
      refine later.mono fun _ _ ⟨same, onward, absent⟩ => ⟨same, ?_, ?_⟩
      · exact fun names matched => onward names (ends.2 names matched)
      · intro t none
        obtain ⟨unbound, fresh⟩ := absent t none
        rw [Bindings.get?_insert] at unbound
        split at unbound
        · cases unbound
        · rename_i differs
          exact ⟨unbound, by simpa [differs] using fresh⟩

-----------------------------------------------------------------------------------------
-- Functions and expanders
-----------------------------------------------------------------------------------------

/-- Alike function literals make alike functions: what a call looks up is free in the literal. -/
theorem closureOf {params : List Symbol} {rest : Option Symbol} {body body' : Node}
    (alike : body.Alike (left.Matches right N N') body')
    (bindings : BindingsAlike (left.Matches right N N') b b')
    (matched
      : left.Matches right N N'
          (FreeIn (SymbolSet.without body.dependencies (params ++ rest.toList)) b) c d)
    : Run.Simulates left right N N' (fun n n' f g => f.Alike (left.Matches right n n') g)
        (Machine.closureOf params rest body c b) (Machine.closureOf params rest body' d b') := by
  unfold Machine.closureOf
  refine Simulates.aside.bind fun bound bound' _ => .pure fun _ _ grows grows' => ?_
  have captured := (bindings.eraseAll (params ++ rest.toList)).mono
    (Matched.within id (Nat.le_trans bound grows) (Nat.le_trans bound' grows'))
  have bodies := (alike.mono (Matched.within id (Nat.le_trans bound grows)
    (Nat.le_trans bound' grows'))).specialized captured
  refine ⟨trivial, rfl, rfl, .inl bodies, captured, ?_⟩
  refine (matched.mono id (Nat.le_trans bound grows) (Nat.le_trans bound' grows')).fewer ?_
  rintro s ⟨⟨member, unbound⟩, outside⟩
  refine ⟨SymbolSet.mem_without.mpr ⟨Node.specialized_within _ _ s member, outside⟩, ?_⟩
  unfold Bindings.lexical? at unbound ⊢
  split at unbound
  · rename_i qualified
    rw [if_pos qualified]
  · rename_i bare
    rw [if_neg bare]
    dsimp only at unbound
    rw [Bindings.get?_eraseAll, if_neg outside] at unbound
    exact unbound

/-- New expanders of bodies that are alike are alike. -/
theorem userExpanderOf {continuation : Symbol} {params : List Symbol} {body body' : Node}
    (alike : body.Alike (left.Matches right N N') body')
    (bindings : BindingsAlike (left.Matches right N N') b b')
    : Run.Simulates left right N N' (fun n n' u v => u.Alike (left.Matches right n n') v)
        (Machine.userExpanderOf continuation params body b)
        (Machine.userExpanderOf continuation params body' b') := by
  unfold Machine.userExpanderOf
  refine Simulates.aside.bind fun bound bound' _ => .pure fun _ _ grows grows' => ?_
  have captured := (bindings.eraseAll (params ++ [continuation])).mono
    (Matched.within id (Nat.le_trans bound grows) (Nat.le_trans bound' grows'))
  have bodies := (alike.mono (Matched.within id (Nat.le_trans bound grows)
    (Nat.le_trans bound' grows'))).specialized captured
  exact ⟨trivial, rfl, rfl, .inl bodies, captured⟩

-----------------------------------------------------------------------------------------
-- Nodes
-----------------------------------------------------------------------------------------

/-- What a test lets pass is what was to be tested. -/
theorem onlyIf {α : Type} {Q : Nat → Nat → α → Value × ContextId → Prop} {x : Run α}
    {y : Run (Value × ContextId)} {test : Value → Bool}
    (simulates : Run.Simulates left right N N' (fun n n' a z => test z.1 → Q n n' a z) x y)
    : Run.Simulates left right N N' (fun n n' a z => test z.1 ∧ Q n n' a z) x
        (Machine.onlyIf test y) := by
  constructor
  intro scope scope' st st' after after' a z bound bound' recalls recalls' ran ran' leads leads'
  unfold Machine.onlyIf at ran'
  rw [outcome_bind_eq_ok] at ran'
  obtain ⟨⟨v, e⟩, middle, ran', tested⟩ := ran'
  dsimp only at tested
  split at tested
  · rename_i passes
    obtain ⟨rfl, rfl⟩ : (v, e) = z ∧ middle = after' := by simpa using tested
    obtain ⟨kept, kept', related⟩ :=
      simulates.ends bound bound' recalls recalls' ran ran' leads leads'
    exact ⟨kept, kept', passes, related passes⟩
  · cases tested

-----------------------------------------------------------------------------------------
-- Host operations
-----------------------------------------------------------------------------------------

/-- Nodes that are evaluated to plain values from scratch had the same values in the history. -/
theorem computePlainly (machines : m.Simulates left right m') {node node' : Node}
    (alike : node.Alike (left.Matches right N N') node')
    (bindings : BindingsAlike (left.Matches right N N') b b')
    (matched : left.Matches right N N' (node.Free b) c d)
    : Run.Simulates left right N N' (fun _ _ v w => w = v ∧ v.isPlain) (m.compute node c b)
        (m'.plainly.compute node' d b') := by
  have evaluated := machines.eval alike bindings matched
  have plain : Run.Simulates left right N N' (fun _ _ x y => y.1 = x.1 ∧ x.1.isPlain)
      (m.eval node c b) (m'.plainly.eval node' d b') := by
    have passed : Run.Simulates left right N N' _ (m.eval node c b)
        (Machine.onlyIf Value.isPlain (m'.eval node' d b')) :=
      onlyIf (evaluated.mono fun _ _ ends _ => ends)
    refine passed.mono fun _ _ ⟨plain, ends, _⟩ => ?_
    have inner := plain
    rw [ends.isPlain_eq] at inner
    exact ⟨ends.eq_of_plain inner, inner⟩
  exact plain.bind fun _ _ same => .pure fun _ _ _ _ => same

/-- Values that are computed for a table are alike, and plain on both sides. -/
theorem computeAllPlainly (machines : m.Simulates left right m') {nodes nodes' : List Node}
    (alike : NodesAlike (left.Matches right N N') nodes nodes')
    (bindings : BindingsAlike (left.Matches right N N') b b')
    (matched : left.Matches right N N' (FreeIn (dependenciesOfAll nodes) b) c d)
    : Run.Simulates left right N N' (fun _ _ vs ws => ws = vs) (m.computeAll nodes c b)
        (m'.plainly.computeAll nodes' d b') := by
  have each := computeAll_of (V := fun _ _ v w => w = v ∧ v.isPlain) (fun _ _ => id)
    machines.computePlainly alike bindings matched
  refine each.mono fun {_ _ vs ws} _ _ values => ?_
  induction values with
  | nil => rfl
  | cons first _ ih => rw [first.1, ih]

/-- A plain value put together with the contexts in which it was computed twice. -/
theorem kept_plain {L L' : Nat} (bound : L ≤ N) (bound' : L' ≤ N') {x y : Run Value}
    (simulates : Run.Simulates left right N N' (fun _ _ v w => w = v) x y)
    [Run.Follows Leads x] [Run.Follows Leads y]
    : Run.Simulates left right N N'
        (fun n n' x y => y.1.isPlain → Ends left right L L' c d n n' x y)
        (do return (← x, c)) (do return (← y, d)) := by
  refine simulates.bind fun grows grows' same => .pure fun _ _ onward onward' plain => ?_
  obtain rfl := same
  exact .still (Nat.le_trans bound (Nat.le_trans grows onward))
    (Nat.le_trans bound' (Nat.le_trans grows' onward')) (Value.Alike.of_plain plain)

/-- The hosts of the two stores give the same answer to a question that the types decide. -/
theorem askHost (stores : left.Comparable right) {question : Host → Except EvalError Value × Host}
    (decided
      : ∀ {h later : Host}, h.Sound → later.Sound → later.types = h.types
        → (question later).1 = (question h).1)
    (next : ∀ host : Host, host.Next (question host).2)
    : Run.Simulates left right N N' (fun _ _ v w => w = v) (Run.askHost question)
        (Run.askHost question) := by
  constructor
  intro scope scope' st st' after after' v w _ _ recalls recalls' ran ran' leads leads'
  have quiet : st.Quiet ((Run.askHost question).outcome scope st).2 :=
    (Run.Follows.askHost next).follows scope st
  have quiet' : st'.Quiet ((Run.askHost question).outcome scope' st').2 :=
    (Run.Follows.askHost next).follows scope' st'
  rw [ran] at quiet
  rw [ran'] at quiet'
  refine ⟨quiet.2 _ recalls, quiet'.2 _ recalls', ?_⟩
  have types : st'.host.types = st.host.types := by
    have first : st.Extends left := quiet.1.onward leads
    have second : st'.Extends right := quiet'.1.onward leads'
    rw [← first.types, ← second.types, stores.hosts]
  have same := decided recalls.sound recalls'.sound types
  have answer {scope : Scope} {st after : Store} {v : Value}
      (ran : (Run.askHost question).outcome scope st = (.ok v, after))
      : (question st.host).1 = .ok v := by
    unfold Run.askHost at ran
    rw [outcome_bind_eq_ok] at ran
    obtain ⟨_, _, ⟨⟩, ran⟩ := ran
    dsimp only at ran
    rw [outcome_bind_eq_ok] at ran
    obtain ⟨_, _, _, ran⟩ := ran
    generalize (question st.host).1 = result at ran ⊢
    cases result with
    | error e => cases ran
    | ok u => cases ran; rfl
  rw [answer ran, answer ran'] at same
  exact Except.ok.inj same

/-- Both stores have hosts of the same types. -/
theorem get (stores : left.Comparable right)
    : Run.Simulates left right N N' (fun _ _ st st' => st'.host.types = st.host.types)
        (get : Run Store) (get : Run Store) := by
  constructor
  rintro scope scope' st st' after after' a b _ _ recalls recalls' ⟨⟩ ⟨⟩ leads leads'
  refine ⟨recalls, recalls', ?_⟩
  rw [← leads.types, ← leads'.types, stores.hosts]

/-- Both sides draw the same arrangement. -/
theorem newArrangement (stores : left.Comparable right)
    : Run.Simulates left right N N' (fun _ _ a a' => a' = a) Run.newArrangement
        Run.newArrangement := by
  have quiet (st : Store) : st.Quiet st.arrange.2 := Course.arrange
  constructor
  rintro scope scope' st st' after after' a a' _ _ recalls recalls' ⟨⟩ ⟨⟩ leads leads'
  refine ⟨(quiet st).2 _ recalls, (quiet st').2 _ recalls', ?_⟩
  have same := leads.arrangements
  have same' := leads'.arrangements
  change left.arrangements = st.arrangements at same
  change right.arrangements = st'.arrangements at same'
  change st'.arrangements _ = st.arrangements _
  rw [← same, ← same']
  exact stores.order _ _

/-- So they do where one may not be needed. -/
theorem arrangementIf (stores : left.Comparable right) (needed : Bool)
    : Run.Simulates left right N N' (fun _ _ a a' => a' = a) (Run.arrangementIf needed)
        (Run.arrangementIf needed) := by
  unfold Run.arrangementIf
  split
  · exact newArrangement stores
  · exact .pure fun _ _ _ _ => rfl

/-- Bindings around bodies simulate each other, by the pairs and then the body. -/
theorem evalBinding (machines : m.Simulates left right m') {pairs pairs' : List (Symbol × Node)}
    {body body' : Node} (pairsAlike : PairsAlike (left.Matches right N N') pairs pairs')
    (alike : body.Alike (left.Matches right N N') body')
    (bindings : BindingsAlike (left.Matches right N N') b b')
    (bare : ∀ pair ∈ pairs, ¬pair.1.isQualified)
    (matched
      : left.Matches right N N'
          (FreeIn (dependenciesOfPairs pairs
            ∪ SymbolSet.without body.dependencies (pairs.map (·.1))) b) c d)
    : Run.Simulates left right N N' (Ends left right N N' c d)
        (do let (inner, c) ← m.evalPairs b pairs b c; m.eval body c inner)
        (do let (inner, d) ← m'.evalPairs b' pairs' b' d; m'.eval body' d inner) := by
  have bound := machines.evalPairs pairsAlike bindings bindings
    (matched.part (within_union_left _ _))
  refine bound.bind fun {_ _ x y} bound bound' ⟨same, onward, absent⟩ => ?_
  obtain ⟨inner, c₁⟩ := x
  obtain ⟨inner', d₁⟩ := y
  have free : left.Matches right N N' (body.Free inner) c d := by
    refine matched.fewer ?_
    rintro s ⟨member, unbound⟩
    have outside : b.lexical? s = none ∧ s ∉ pairs.map (·.1) := by
      unfold Bindings.lexical? at unbound ⊢
      split at unbound
      · rename_i qualified
        rw [if_pos qualified]
        refine ⟨rfl, ?_⟩
        intro named
        obtain ⟨pair, listed, rfl⟩ := List.mem_map.mp named
        exact bare pair listed qualified
      · rename_i unqualified
        rw [if_neg unqualified]
        exact absent s unbound
    exact ⟨within_union_right _ _ s (SymbolSet.mem_without.mpr ⟨member, outside.2⟩), outside.1⟩
  have evaluated := machines.eval (alike.mono (Matched.within id bound bound')) same (onward _ free)
  exact evaluated.mono fun _ _ => Ends.trans onward

omit [m.Follows Leads] [m'.Follows Leads] in
/-- The map of evaluated items, or the failure to make it, follows any course. -/
theorem follows_mapOf {P : Store → Store → Prop} [Course P] (a : Arrangement) (items : List Value)
    (c : ContextId)
    : Run.Follows P (match mapOfItems? a items with
        | some v => pure (v, c)
        | none => Run.fail (.call .oddHashMap)) := by
  split <;> infer_instance

omit [m.Follows Leads] [m'.Follows Leads] in
/-- The test of an instance of a computed type follows any course that the machine follows. -/
theorem follows_instanceOf {P : Store → Store → Prop} [Course P] [m.Follows P] (expr : Node)
    (c : ContextId) (b : Bindings) (v : Value)
    : Run.Follows P (match v with
        | .type name => (do
            let w ← m.compute expr c b
            return (.truth ((← MonadState.get).host.isInstance name w), c)
              : Run (Value × ContextId))
        | other => Run.fail (.wrongType "type" other)) := by
  split <;> infer_instance

/-- Evaluation from scratch of a node repeats that of an alike node. Witness: by the shape of the
node; its parts are evaluated in contexts that match on their free names, which are free in the
node as well.
-/
theorem evalTracked (machines : m.Simulates left right m') (stores : left.Comparable right)
    {node node' : Node} (alike : node.Alike (left.Matches right N N') node')
    (bindings : BindingsAlike (left.Matches right N N') b b')
    (matched : left.Matches right N N' (node.Free b) c d)
    : Run.Simulates left right N N' (Ends left right N N' c d) (m.evalNode node c b)
        (m'.evalTracked node' d b') := by
  obtain ⟨shape, recorded, source, identity⟩ := node
  obtain ⟨shape', recorded', source', identity'⟩ := node'
  have whole : left.Matches right N N' (FreeIn shape.dependencies b) c d :=
    matched.part fun s member => Node.mem_dependencies.mpr (Or.inl member)
  obtain ⟨alike, _⟩ := alike
  dsimp only at alike
  clear matched
  cases shape with
  | constant v =>
      obtain ⟨w, rfl, same⟩ := alike
      exact .pure fun _ _ bound bound' => .still bound bound'
        (same.mono (Matched.within id bound bound'))
  | lookup s =>
      obtain rfl := alike
      have bound := bindings.lexical? s
      unfold Machine.evalTracked Machine.evalNode
      dsimp only
      cases unbound : b.lexical? s with
      | none =>
          rw [unbound] at bound
          generalize b'.lexical? s = o at bound ⊢
          cases bound
          have free : FreeIn (Shape.lookup s).dependencies b s :=
            ⟨by simp [Shape.dependencies], unbound⟩
          exact kept (Nat.le_refl _) (Nat.le_refl _) (machines.valueOf whole free)
      | some v =>
          rw [unbound] at bound
          generalize b'.lexical? s = o at bound ⊢
          cases bound with
          | some same =>
              exact .pure fun _ _ bound bound' =>
                .still bound bound' (same.mono (Matched.within id bound bound'))
  | apply f args =>
      obtain ⟨f', args', rfl, callee, others⟩ := alike
      rw [Shape.dependencies] at whole
      have called := machines.compute callee bindings (whole.part (within_union_left _ _))
      refine called.bind fun bound bound' callee => ?_
      have values := machines.computeAll (others.mono (Matched.within id bound bound'))
        (bindings.mono (Matched.within id bound bound'))
        ((whole.part (within_union_right _ _)).mono id bound bound')
      refine values.holding.bind fun grows grows' values => ?_
      exact kept (Nat.le_trans bound grows) (Nat.le_trans bound' grows')
        (machines.call (callee.mono (Matched.within id grows grows')) values)
  | define s expr =>
      obtain ⟨expr', rfl, same⟩ := alike
      unfold Machine.evalTracked
      dsimp only
      split
      · exact .of_right exhausted_ne_ok
      · rename_i other
        have free : left.Matches right N N' ((expr.specialized b).Free b) c d :=
          whole.part (Node.specialized_within expr b)
        have defined := machines.define stores (same.specialized bindings) bindings free
          (by simpa using other)
        exact defined.bind fun bound bound' onward => .pure fun _ _ grows grows' =>
          ⟨Value.Alike.of_plain rfl, fun names matched =>
            (onward names matched).mono id grows grows'⟩
  | sequence body =>
      obtain ⟨body', rfl, same⟩ := alike
      exact machines.evalSequence same bindings (Value.Alike.of_plain rfl) whole
  | conditional test yes no =>
      obtain ⟨test', yes', no', rfl, tests, yeses, noes⟩ := alike
      rw [Shape.dependencies] at whole
      have branches := whole.part (within_union_left _ _)
      have tested := machines.eval tests bindings (branches.part (within_union_left _ _))
      refine tested.bind fun {_ _ x y} bound bound' ends => ?_
      obtain ⟨v, c₁⟩ := x
      obtain ⟨w, d₁⟩ := y
      have later := bindings.mono (Matched.within id bound bound')
      dsimp only
      rw [ends.1.isTruthy_eq]
      apply Simulates.holding
      split
      · have evaluated := machines.eval (yeses.mono (Matched.within id bound bound')) later
          (ends.2 _ (branches.part (within_union_right _ _)))
        exact evaluated.mono fun _ _ => Ends.trans ends.2
      · have evaluated := machines.eval (noes.mono (Matched.within id bound bound')) later
          (ends.2 _ (whole.part (within_union_right _ _)))
        exact evaluated.mono fun _ _ => Ends.trans ends.2
  | binding pairs body =>
      obtain ⟨pairs', body', rfl, pairsAlike, same⟩ := alike
      unfold Machine.evalTracked
      dsimp only
      split
      · rename_i bare
        have bare : ∀ pair ∈ pairs, ¬pair.1.isQualified := by
          intro pair listed
          have named : pair.1 ∈ pairs'.map (·.1) := by
            rw [pairsAlike.names_eq]
            exact List.mem_map_of_mem listed
          obtain ⟨pair', listed', same⟩ := List.mem_map.mp named
          rw [← same]
          simpa using List.all_eq_true.mp bare pair' listed'
        exact machines.evalBinding pairsAlike same bindings bare whole
      · exact .of_right exhausted_ne_ok
  | lambda params rest body =>
      obtain ⟨body', rfl, same⟩ := alike
      have made := closureOf same bindings whole
      exact made.bind fun bound bound' function => .pure fun _ _ grows grows' =>
        .still (Nat.le_trans bound grows) (Nat.le_trans bound' grows')
          ⟨_, rfl, _, rfl, function.mono (Matched.within id grows grows')⟩
  | expander continuation params body =>
      obtain ⟨body', rfl, same⟩ := alike
      exact (userExpanderOf same bindings).bind fun bound bound' expander =>
        .pure fun _ _ grows grows' =>
          .still (Nat.le_trans bound grows) (Nat.le_trans bound' grows')
            ⟨_, rfl, _, rfl, expander.mono (Matched.within id grows grows')⟩
  | quote form isSyntax =>
      obtain ⟨form', rfl, same⟩ := alike
      exact .pure fun _ _ bound bound' => .still bound bound'
        (same.mono (Matched.within id bound bound'))
  | vector items | list items =>
      obtain ⟨items', rfl, same⟩ := alike
      have values := machines.computeAll same bindings whole
      exact values.bind fun bound bound' values => .pure fun _ _ grows grows' =>
        .still (Nat.le_trans bound grows) (Nat.le_trans bound' grows')
          ⟨_, rfl, values.mono (Matched.within id grows grows')⟩
  | hashMap items =>
      obtain ⟨items', rfl, same⟩ := alike
      have values := machines.computeAll same bindings whole
      unfold Machine.evalTracked
      dsimp only
      refine (onlyIf ?_).mono fun _ _ related => related.2
      have follows := follows_mapOf (P := Leads)
      refine values.bind fun {_ _ vs ws} bound bound' values => ?_
      rw [values.length_eq]
      refine (arrangementIf stores _).bind fun {_ _ a a'} grows grows' same => ?_
      obtain rfl : a' = a := same
      have even : (ws.length % 2 == 0) = (vs.length % 2 == 0) := by rw [values.length_eq]
      unfold mapOfItems?
      rw [even]
      by_cases paired : (vs.length % 2 == 0) = true
      · rw [if_pos paired, if_pos paired]
        refine .pure fun _ _ onward onward' plain => ?_
        have here := Nat.le_trans bound (Nat.le_trans grows onward)
        have here' := Nat.le_trans bound' (Nat.le_trans grows' onward')
        have items := values.mono (Matched.within id (Nat.le_trans grows onward)
          (Nat.le_trans grows' onward'))
        exact .still here here' (mapOf_alike items (.inl plain))
      · rw [if_neg paired]
        exact .of_left (fail_ne_ok _)
  | set items =>
      obtain ⟨items', rfl, same⟩ := alike
      have values := machines.computeAll same bindings whole
      unfold Machine.evalTracked
      dsimp only
      refine (onlyIf ?_).mono fun _ _ related => related.2
      refine values.bind fun {_ _ vs ws} bound bound' values => ?_
      rw [values.length_eq]
      refine (arrangementIf stores _).bind fun {_ _ a a'} grows grows' same => ?_
      obtain rfl : a' = a := same
      refine .pure fun _ _ onward onward' plain => ?_
      have here := Nat.le_trans bound (Nat.le_trans grows onward)
      have here' := Nat.le_trans bound' (Nat.le_trans grows' onward')
      have items := values.mono (Matched.within id (Nat.le_trans grows onward)
        (Nat.le_trans grows' onward'))
      exact .still here here' (setOf_alike items (.inl plain))
  | invoke target member args =>
      obtain ⟨target', args', rfl, targets, others⟩ := alike
      rw [Shape.dependencies] at whole
      refine (onlyIf ?_).mono fun _ _ related => related.2
      have computed := machines.computePlainly targets bindings (whole.part (within_union_left _ _))
      refine computed.bind fun bound bound' same => ?_
      have values := machines.computeAllPlainly (others.mono (Matched.within id bound bound'))
        (bindings.mono (Matched.within id bound bound'))
        ((whole.part (within_union_right _ _)).mono id bound bound')
      refine values.holding.bind fun grows grows' args => ?_
      obtain ⟨rfl, _⟩ := same
      obtain rfl := args
      exact kept_plain (Nat.le_trans bound grows) (Nat.le_trans bound' grows')
        (askHost stores (fun sound other same => sound.same_answer_on_value other same _ _ _)
          fun host => host.next_invoke _ _ _)
  | invokeStatic type member args =>
      obtain ⟨args', rfl, others⟩ := alike
      refine (onlyIf ?_).mono fun _ _ related => related.2
      refine (machines.computeAllPlainly others bindings whole).bind fun bound bound' args => ?_
      obtain rfl := args
      exact kept_plain bound bound'
        (askHost stores (fun sound other same => sound.same_answer_on_type other same _ _ _)
          fun host => host.next_invokeStatic _ _ _)
  | cast type expr =>
      obtain ⟨expr', rfl, exprs⟩ := alike
      refine (onlyIf ?_).mono fun _ _ related => related.2
      refine (machines.computePlainly exprs bindings whole).bind fun bound bound' same => ?_
      obtain ⟨rfl, _⟩ := same
      refine (get stores).bind fun grows grows' types => ?_
      refine kept_plain (Nat.le_trans bound grows) (Nat.le_trans bound' grows')
        (.ofExcept fun _ _ _ _ => ?_)
      rw [Host.cast_congr types]
      intro v w first second
      exact Except.ok.inj (second.symm.trans first)
  | instanceOf type expr =>
      obtain ⟨type', expr', rfl, types, exprs⟩ := alike
      refine (onlyIf ?_).mono fun _ _ related => related.2
      have computed := machines.computePlainly types bindings (whole.part (within_union_left _ _))
      have first := follows_instanceOf (P := Leads) (m := m) expr c b
      have second := follows_instanceOf (P := Leads) (m := m'.plainly) expr' d b'
      refine computed.bind fun {_ _ v w} bound bound' same => ?_
      obtain ⟨rfl, _⟩ := same
      cases w with
      | type name =>
          have values := machines.computePlainly (exprs.mono (Matched.within id bound bound'))
            (bindings.mono (Matched.within id bound bound'))
            ((whole.part (within_union_right _ _)).mono id bound bound')
          refine values.bind fun grows grows' same => ?_
          obtain ⟨rfl, _⟩ := same
          refine (get stores).bind fun onward onward' types => .pure fun _ _ last last' plain => ?_
          rw [Host.isInstance_congr types] at plain ⊢
          exact .still (Nat.le_trans bound (Nat.le_trans grows (Nat.le_trans onward last)))
            (Nat.le_trans bound' (Nat.le_trans grows' (Nat.le_trans onward' last')))
            (Value.Alike.of_plain plain)
      | _ => exact .of_left (fail_ne_ok _)

end Machine.Simulates

end IncrementalLisp
