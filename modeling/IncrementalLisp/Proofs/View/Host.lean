import IncrementalLisp.Proofs.Host.Blind
import IncrementalLisp.Proofs.View.Primitive

/-! Hosts that respect a view: of values that look alike the same types count as types, and members
answer to them alike, as far as the view tells. The standard host respects all views.
-/

namespace IncrementalLisp

section Respect

variable (V : View)

/-- (RunRespects V run) says that a function of values gives answers that look alike to arguments
that look alike.
-/
def RunRespects (run : List Value → Except Fault Value)
    : Prop :=
  ∀ args args' : List Value, args.map (Value.seen V) = args'.map (Value.seen V)
    → seenResult V (run args) = seenResult V (run args')

/-- A type that does not look beyond a view. -/
structure HostType.Respects (t : HostType) : Prop where
  isInstance_eq : ∀ v w : Value, v.seen V = w.seen V → t.isInstance v = t.isInstance w
  members : t.All fun m => RunRespects V m.run

/-- A host whose types and known members do not look beyond a view. -/
structure Host.Respects (h : Host) : Prop where
  types : ∀ t ∈ h.types, t.Respects V
  cache : ∀ entry ∈ h.cache, RunRespects V entry.2.run

/-- (AnswersSame V x y) says that two answers of a host look alike, and that the host is the same
and respects the view still.
-/
structure Host.AnswersSame (x y : Except EvalError Value × Host) : Prop where
  answer : seenEnd V (Value.seen V) x.1 = seenEnd V (Value.seen V) y.1
  host : x.2 = y.2
  respects : x.2.Respects V

end Respect

variable {V : View} {v w : Value} {args args' : List Value}

/-- A member that respects a view answers alike for arguments that are seen alike, wrapped in its
error or not.
-/
theorem RunRespects.call_same {m : Member} (respects : RunRespects V m.run)
    (same : args.map (Value.seen V) = args'.map (Value.seen V))
    : seenEnd V (Value.seen V) (m.call args) = seenEnd V (Value.seen V) (m.call args') := by
  have ran : seenEnd V (Value.seen V) (Member.call.ran m args)
      = seenEnd V (Value.seen V) (Member.call.ran m args') := by
    have answers := respects args args' same
    unfold Member.call.ran
    generalize m.run args = x, m.run args' = y at answers ⊢
    cases x <;> cases y <;> simp_all [Except.mapError]
  have count : args.length = args'.length := (forall₂_of_map_eq same).length_eq
  unfold Member.call
  rw [count]
  split
  · split
    · exact ran
    · rfl
  · exact ran

namespace Host

/-- Only simple values are converted. -/
theorem converted?_same (type : String) (same : v.seen V = w.seen V)
    : converted? type v = converted? type w := by
  cases Value.looksLike same with
  | list | vector | map | set | function | expander | node =>
      rw [converted?_eq_none type (by rintro _ ⟨⟩) (by rintro _ ⟨⟩) (by rintro _ ⟨⟩),
        converted?_eq_none type (by rintro _ ⟨⟩) (by rintro _ ⟨⟩) (by rintro _ ⟨⟩)]
  | _ => rfl

namespace Respects

variable {h : Host} (respects : h.Respects V)
include respects

/-- Values that look alike are of the same type. -/
theorem typeOf?_same (same : v.seen V = w.seen V)
    : h.typeOf? v = h.typeOf? w := by
  have tested (t : HostType) (known : t ∈ h.types) : t.isInstance v = t.isInstance w :=
    (respects.types t known).isInstance_eq v w same
  unfold typeOf?
  congr 1
  · exact find?_eq fun t known => by rw [tested t known]
  · cases found : h.type? rootType with
    | none => rfl
    | some root => simp only [Option.filter, tested root (mem_of_type? found)]

/-- Values that are seen alike are instances of the same types. -/
theorem isInstance_same (type : String) (same : v.seen V = w.seen V)
    : h.isInstance type v = h.isInstance type w := by
  unfold isInstance
  cases found : h.type? type with
  | none => rfl
  | some t => exact (respects.types t (mem_of_type? found)).isInstance_eq v w same

/-- They are cast alike, since the tests and conversions agree. -/
theorem cast_same (type : String) (same : v.seen V = w.seen V)
    : seenEnd V (Value.seen V) (h.cast type v) = seenEnd V (Value.seen V) (h.cast type w) := by
  unfold cast
  rw [respects.isInstance_same type same, converted?_same type same]
  split
  · exact congrArg Except.ok same
  · split
    · rfl
    · rw [← EvalError.wrongType_seen (V := V), same, EvalError.wrongType_seen]

/-- The member that is found respects the view, and so does the host that remembers it. -/
theorem resolve {t : HostType} (known : t ∈ h.types) (name : String) (count : Nat)
    (dispatch : Dispatch)
    : (h.resolve t name count dispatch).2.Respects V
      ∧ ∀ m, (h.resolve t name count dispatch).1 = some m → RunRespects V m.run := by
  unfold Host.resolve
  dsimp only
  split
  · rename_i m cached
    obtain ⟨before, after, split, _⟩ := List.lookup_eq_some_iff.mp cached
    refine ⟨respects, ?_⟩
    rintro _ ⟨⟩
    exact respects.cache (⟨t.name, name, count, dispatch⟩, m) (by simp [split])
  · split
    · rename_i m selected
      have runs := all_of_member? (fun u listed => (respects.types u listed).members) known selected
      constructor
      · refine ⟨respects.types, fun entry listed => ?_⟩
        rcases List.mem_cons.mp listed with rfl | old
        · exact runs
        · exact respects.cache entry old
      · rintro _ ⟨⟩
        exact runs
    · exact ⟨respects, nofun⟩

/-- The host answers alike for a member of a type, by the member that is selected for both calls. -/
theorem invokeStatic_same (type member : String)
    (same : args.map (Value.seen V) = args'.map (Value.seen V))
    : AnswersSame V (h.invokeStatic type member args) (h.invokeStatic type member args') := by
  have count : args.length = args'.length := (forall₂_of_map_eq same).length_eq
  unfold invokeStatic
  rw [count]
  cases found : h.type? type with
  | none => exact ⟨rfl, rfl, respects⟩
  | some t =>
      obtain ⟨later, runs⟩ := respects.resolve (mem_of_type? found) member args'.length .onType
      dsimp only
      generalize h.resolve t member args'.length .onType = resolved at later runs ⊢
      obtain ⟨m?, h'⟩ := resolved
      cases m? with
      | none => exact ⟨rfl, rfl, later⟩
      | some m => exact ⟨(runs m rfl).call_same same, rfl, later⟩

/-- So it does for a member of values that are seen alike, whose types are the same. -/
theorem invoke_same (targets : v.seen V = w.seen V) (member : String)
    (same : args.map (Value.seen V) = args'.map (Value.seen V))
    : AnswersSame V (h.invoke v member args) (h.invoke w member args') := by
  have count : args.length = args'.length := (forall₂_of_map_eq same).length_eq
  unfold invoke
  rw [count, respects.typeOf?_same targets]
  cases found : h.typeOf? w with
  | none => exact ⟨by simp [targets], rfl, respects⟩
  | some t =>
      obtain ⟨later, runs⟩ :=
        respects.resolve (mem_of_typeOf? found) member (args'.length + 1) .onInstance
      dsimp only
      generalize h.resolve t member (args'.length + 1) .onInstance = resolved at later runs ⊢
      obtain ⟨m?, h'⟩ := resolved
      cases m? with
      | none => exact ⟨rfl, rfl, later⟩
      | some m =>
          have all : (v :: args).map (Value.seen V) = (w :: args').map (Value.seen V) := by
            rw [List.map_cons, List.map_cons, targets, same]
          exact ⟨(runs m rfl).call_same all, rfl, later⟩

end Respects

-----------------------------------------------------------------------------------------
-- Arguments of members
-----------------------------------------------------------------------------------------

/-- A text is seen as itself, and any other argument as no text. -/
theorem textArg_seen (v : Value)
    : textArg (v.seen V) = seenAnswer V id (textArg v) := by
  cases v <;> rfl

/-- An index is, and any other argument as no index. -/
theorem indexArg_seen (v : Value)
    : indexArg (v.seen V) = seenAnswer V id (indexArg v) := by
  cases v with
  | int n =>
      dsimp only [Value.seen, indexArg]
      split <;> rfl
  | _ => rfl

/-- A number is, and any other argument as no number. -/
theorem numberArg_seen (v : Value)
    : numberArg (v.seen V) = seenAnswer V id (numberArg v) := by
  cases v <;> rfl

/-- A character is, and any other argument as no character. -/
theorem charArg_seen (v : Value)
    : charArg (v.seen V) = seenAnswer V id (charArg v) := by
  cases v <;> rfl

/-- An identifier is, and any other argument as no identifier. -/
theorem identifierArg_seen (v : Value)
    : identifierArg (v.seen V) = seenAnswer V id (identifierArg v) := by
  cases v <;> rfl

/-- A value is seen with its size. -/
theorem size_seen (v : Value)
    : size (v.seen V) = seenAnswer V id (size v) := by
  cases v <;> simp [size] <;> rfl

/-- A function of values that commutes with a view: of what is seen of arguments it answers what is
seen of its answer to them.
-/
def RunCommutes (V : View) (run : List Value → Except Fault Value)
    : Prop :=
  ∀ args, run (args.map (Value.seen V)) = seenResult V (run args)

/-- A member that is seen to answer as it does respects the view. -/
theorem RunCommutes.respects {run : List Value → Except Fault Value}
    (commutes : RunCommutes V run)
    : RunRespects V run := by
  intro args args' same
  rw [← commutes, ← commutes, same]

/-- A member of one argument is seen to answer as it does if its function is. -/
theorem runCommutes_unary {run : Value → Except Fault Value}
    (commutes : ∀ a, run (a.seen V) = seenResult V (run a))
    : RunCommutes V (unary run) := by
  intro args
  rcases args with _ | ⟨a, _ | ⟨_, _⟩⟩
  · rfl
  · exact commutes a
  · simp [unary]

/-- So is a member of two arguments. -/
theorem runCommutes_binary {run : Value → Value → Except Fault Value}
    (commutes : ∀ a b, run (a.seen V) (b.seen V) = seenResult V (run a b))
    : RunCommutes V (binary run) := by
  intro args
  rcases args with _ | ⟨a, _ | ⟨b, _ | ⟨_, _⟩⟩⟩
  · rfl
  · rfl
  · exact commutes a b
  · simp [binary]

/-- So is a member of three arguments. -/
theorem runCommutes_ternary {run : Value → Value → Value → Except Fault Value}
    (commutes : ∀ a b c, run (a.seen V) (b.seen V) (c.seen V) = seenResult V (run a b c))
    : RunCommutes V (ternary run) := by
  intro args
  rcases args with _ | ⟨a, _ | ⟨b, _ | ⟨c, _ | ⟨_, _⟩⟩⟩⟩
  · rfl
  · rfl
  · rfl
  · exact commutes a b c
  · simp [ternary]

/-- What a member does with its decoded argument, of which a view sees everything. -/
theorem decoded_seen {α : Type} {decode : Value → Except Fault α} {a : Value}
    (decodes : decode (a.seen V) = seenAnswer V id (decode a))
    {rest : α → Except Fault Value} (simple : ∀ x, rest x = seenResult V (rest x))
    : decode (a.seen V) >>= rest = seenResult V (decode a >>= rest) :=
  seenAnswer_bind decodes simple

/-- A part of a text is seen as itself. -/
theorem substring_seen (text : String) (start : Nat) (stop? : Option Nat)
    : substring text start stop? = seenResult V (substring text start stop?) := by
  unfold substring
  dsimp only
  split <;> rfl

/-- A test of two texts is seen with its truth. -/
theorem textTest_seen (test : List Char → List Char → Bool) (a b : Value)
    : textTest test (a.seen V) (b.seen V) = seenResult V (textTest test a b) :=
  seenAnswer_bind (textArg_seen a) fun _ => decoded_seen (textArg_seen b) fun _ => rfl

/-- A parsed number is seen as itself. -/
theorem parseLong_seen (v : Value)
    : parseLong (v.seen V) = seenResult V (parseLong v) :=
  decoded_seen (textArg_seen v) fun text => by split <;> rfl

/-- The item at a position is seen there, or there is none. -/
theorem getElem?_seen (items : List Value) (i : Nat)
    : (match (items.map (Value.seen V))[i]? with
        | some item => (.ok item : Except Fault Value)
        | none => .error (.outOfBounds i))
      = seenResult V (match items[i]? with
        | some item => .ok item
        | none => .error (.outOfBounds i)) := by
  rw [List.getElem?_map]
  cases items[i]? <;> rfl

/-- The item of a sequence at an index is seen there. -/
theorem itemAt_seen (target index : Value)
    : itemAt (target.seen V) (index.seen V) = seenResult V (itemAt target index) := by
  refine seenAnswer_bind (indexArg_seen index) fun i => ?_
  cases target with
  | list items | vector items =>
      simp only [Value.seen, seenAll_eq_map]
      exact getElem?_seen items i
  | _ => rfl

/-- The extreme of two numbers is seen as the same one of them. -/
theorem choose_seen (firstWins : Number.Double → Number.Double → Bool) (a b : Value)
    : choose firstWins (a.seen V) (b.seen V) = seenResult V (choose firstWins a b) := by
  have compared : (do
        let x ← numberArg (a.seen V)
        let y ← numberArg (b.seen V)
        .ok (.float (if firstWins x y then x else y)))
      = seenResult V (do
        let x ← numberArg a
        let y ← numberArg b
        .ok (.float (if firstWins x y then x else y))) :=
    seenAnswer_bind (numberArg_seen a) fun _ =>
      decoded_seen (numberArg_seen b) fun _ => rfl
  cases a with
  | int m =>
      cases b with
      | int n => rfl
      | _ => exact compared
  | _ => exact compared

-----------------------------------------------------------------------------------------
-- The standard host
-----------------------------------------------------------------------------------------

/-- The members of a type, which commute with a view. -/
abbrev MembersCommute (V : View) (t : HostType)
    : Prop :=
  t.All fun m => RunCommutes V m.run

/-- The members of strings are seen to answer as they do, each by the text that its arguments are.
-/
theorem commutes_stringType
    : MembersCommute V stringType := by
  unfold stringType
  apply HostType.All.withStatic
  repeat apply HostType.All.withInstance
  · exact .plain _ _
  · exact runCommutes_unary fun a => decoded_seen (textArg_seen a) fun _ => rfl
  · exact runCommutes_unary fun a => decoded_seen (textArg_seen a) fun _ => rfl
  · exact runCommutes_unary fun a => decoded_seen (textArg_seen a) fun _ => rfl
  · exact runCommutes_unary fun a => decoded_seen (textArg_seen a) fun _ => rfl
  · exact runCommutes_unary fun a => decoded_seen (textArg_seen a) fun _ => rfl
  · exact runCommutes_binary fun a b =>
      seenAnswer_bind (textArg_seen a) fun _ =>
        decoded_seen (indexArg_seen b) fun _ => substring_seen _ _ _
  · exact runCommutes_ternary fun a b c =>
      seenAnswer_bind (textArg_seen a) fun _ =>
        seenAnswer_bind (indexArg_seen b) fun _ =>
          decoded_seen (indexArg_seen c) fun _ => substring_seen _ _ _
  · exact runCommutes_binary fun a b =>
      seenAnswer_bind (indexArg_seen b) fun _ =>
        decoded_seen (textArg_seen a) fun _ => by split <;> rfl
  · exact runCommutes_binary (textTest_seen _)
  · exact runCommutes_binary (textTest_seen _)
  · exact runCommutes_binary (textTest_seen _)
  · exact runCommutes_binary fun a b =>
      seenAnswer_bind (textArg_seen a) fun _ =>
        decoded_seen (textArg_seen b) fun _ => by split <;> rfl
  · exact runCommutes_binary fun a b =>
      seenAnswer_bind (textArg_seen a) fun _ =>
        decoded_seen (textArg_seen b) fun _ => rfl
  · exact runCommutes_unary fun a => by
      rw [a.text_seen]
      rfl

/-- So are those of integers. -/
theorem commutes_longType
    : MembersCommute V longType := by
  unfold longType
  repeat apply HostType.All.withStatic
  apply HostType.All.withInstance
  · exact .plain _ _
  · exact runCommutes_unary fun a => decoded_seen (numberArg_seen a) fun _ => rfl
  · exact runCommutes_unary parseLong_seen
  · refine runCommutes_unary fun a => ?_
    cases a with
    | int => rfl
    | _ => exact parseLong_seen _

/-- So are those of floats. -/
theorem commutes_doubleType
    : MembersCommute V doubleType := by
  unfold doubleType
  apply HostType.All.withStatic
  repeat apply HostType.All.withInstance
  · exact .plain _ _
  · exact runCommutes_unary fun a => decoded_seen (numberArg_seen a) fun _ => rfl
  · exact runCommutes_unary fun a => decoded_seen (numberArg_seen a) fun _ => rfl
  · exact runCommutes_unary fun a =>
      decoded_seen (textArg_seen a) fun _ => by split <;> rfl

/-- So are those of characters. -/
theorem commutes_characterType
    : MembersCommute V characterType := by
  unfold characterType
  repeat apply HostType.All.withStatic
  · exact .plain _ _
  · exact runCommutes_unary fun a => decoded_seen (charArg_seen a) fun _ => rfl
  · exact runCommutes_unary fun a => decoded_seen (charArg_seen a) fun _ => rfl
  · exact runCommutes_unary fun a => decoded_seen (charArg_seen a) fun _ => rfl

/-- So are those of symbols and of keywords. -/
theorem commutes_identifierType (name : String) (isInstance : Value → Bool)
    : MembersCommute V (identifierType name isInstance) := by
  unfold identifierType
  repeat apply HostType.All.withInstance
  · exact .plain _ _
  · exact runCommutes_unary fun a => decoded_seen (identifierArg_seen a) fun _ => rfl
  · exact runCommutes_unary fun a =>
      decoded_seen (identifierArg_seen a) fun _ => by split <;> rfl

/-- So are those of a type with a size, besides the members that it had. -/
theorem commutes_withSize {t : HostType} (members : MembersCommute V t)
    : MembersCommute V (withSize t) := by
  unfold withSize
  repeat apply HostType.All.withInstance
  · exact members
  · exact runCommutes_unary fun a => decoded_seen (size_seen a) fun _ => rfl
  · exact runCommutes_unary fun a => decoded_seen (size_seen a) fun _ => rfl

/-- So are those of lists and of vectors, by their items. -/
theorem commutes_sequentialType (name : String) (isInstance : Value → Bool)
    : MembersCommute V (sequentialType name isInstance) := by
  unfold sequentialType
  apply HostType.All.withInstance
  apply HostType.All.withInstance (commutes_withSize (.plain _ _))
  · exact runCommutes_binary itemAt_seen
  · refine runCommutes_binary fun a b => ?_
    rw [Value.items?_seen]
    cases a.items? with
    | none => rfl
    | some items =>
        simp only [Option.map_some, Option.getD_some, Value.any_beq_seen]
        rfl

/-- So are those of maps: a key is found at the same place. -/
theorem commutes_mapType
    : MembersCommute V mapType := by
  unfold mapType
  apply HostType.All.withInstance
  apply HostType.All.withInstance (commutes_withSize (.plain _ _))
  · refine runCommutes_binary fun a key => ?_
    cases a with
    | map entries =>
        simp only [Value.seen, seenEntries_eq_map, Value.entry?_seen]
        cases Value.entry? entries key <;> rfl
    | _ => rfl
  · refine runCommutes_binary fun a key => ?_
    cases a with
    | map entries =>
        simp only [Value.seen, seenEntries_eq_map, Value.entry?_seen]
        cases Value.entry? entries key <;> rfl
    | _ => rfl

/-- So are those of sets: an item is found or is not. -/
theorem commutes_setType
    : MembersCommute V setType := by
  unfold setType
  apply HostType.All.withInstance (commutes_withSize (.plain _ _))
  refine runCommutes_binary fun a item => ?_
  cases a with
  | set items =>
      simp only [Value.seen, seenAll_eq_map, Value.any_beq_seen]
      rfl
  | _ => rfl

/-- So are those of the mathematical functions. -/
theorem commutes_mathType
    : MembersCommute V mathType := by
  unfold mathType floatFunction
  repeat apply HostType.All.withStatic
  · exact .plain _ _
  · refine runCommutes_unary fun a => ?_
    have magnitude : (do .ok (.float (← numberArg (a.seen V)).abs))
        = seenResult V (do .ok (.float (← numberArg a).abs)) :=
      decoded_seen (numberArg_seen a) fun _ => rfl
    cases a with
    | int n =>
        dsimp only [Value.seen]
        split <;> rfl
    | _ => exact magnitude
  · exact runCommutes_binary (choose_seen _)
  · exact runCommutes_binary (choose_seen _)
  · exact runCommutes_unary fun a => decoded_seen (numberArg_seen a) fun _ => rfl
  · exact runCommutes_binary fun a b =>
      seenAnswer_bind (numberArg_seen a) fun _ =>
        decoded_seen (numberArg_seen b) fun _ => rfl
  · exact runCommutes_unary fun a => decoded_seen (numberArg_seen a) fun _ => rfl
  · exact runCommutes_unary fun a => decoded_seen (numberArg_seen a) fun _ => rfl

/-- So are those of all objects, by their text, hash and equality. -/
theorem commutes_objectType {digest : Digest}
    : MembersCommute V (objectType digest) := by
  unfold objectType
  repeat apply HostType.All.withInstance
  · exact .plain _ _
  · exact runCommutes_unary fun a => by
      rw [a.text_seen]
      rfl
  · exact runCommutes_binary fun a b => by simp
  · exact runCommutes_unary fun a => by simp

/-- No type of the standard host looks beyond a view of its instances. -/
theorem isInstance_seen_of_mem_standardTypes {digest : Digest} {t : HostType}
    (listed : t ∈ standardTypes digest) (v : Value)
    : t.isInstance (v.seen V) = t.isInstance v := by
  simp only [standardTypes, List.mem_cons, List.not_mem_nil, or_false] at listed
  rcases listed with rfl | rfl | rfl | rfl | rfl | rfl | rfl | rfl | rfl | rfl | rfl | rfl | rfl
  case inr.inr.inr.inr.inr.inr.inr.inr.inr.inr.inr.inr => exact v.isTruthy_seen
  all_goals cases v <;> rfl

/-- The members of every standard type are seen to answer as they do. -/
theorem commutes_of_mem_standardTypes {digest : Digest} {t : HostType}
    (listed : t ∈ standardTypes digest)
    : MembersCommute V t := by
  simp only [standardTypes, List.mem_cons, List.not_mem_nil, or_false] at listed
  rcases listed with rfl | rfl | rfl | rfl | rfl | rfl | rfl | rfl | rfl | rfl | rfl | rfl | rfl
  · exact commutes_stringType
  · exact commutes_longType
  · exact commutes_doubleType
  · exact .plain _ _
  · exact commutes_characterType
  · exact commutes_identifierType _ _
  · exact commutes_identifierType _ _
  · exact commutes_sequentialType _ _
  · exact commutes_sequentialType _ _
  · exact commutes_mapType
  · exact commutes_setType
  · exact commutes_mathType
  · exact commutes_objectType

/-- Every standard type respects any view, by its instances and its members. -/
theorem respects_of_mem_standardTypes {digest : Digest} {t : HostType}
    (listed : t ∈ standardTypes digest)
    : t.Respects V := by
  have commutes := commutes_of_mem_standardTypes (V := V) listed
  refine ⟨fun v w same => ?_, fun entry known m member => ?_, fun entry known m member => ?_⟩
  · rw [← isInstance_seen_of_mem_standardTypes listed v, same,
      isInstance_seen_of_mem_standardTypes listed w]
  · exact (commutes.instanceMembers entry known m member).respects
  · exact (commutes.staticMembers entry known m member).respects

/-- A host whose types were registered one after the other respects a view if each of them does. -/
theorem respects_registered {types : List HostType} {h : Host} (respects : h.Respects V)
    (all : ∀ t ∈ types, t.Respects V)
    : (types.foldl register h).Respects V := by
  induction types generalizing h with
  | nil => exact respects
  | cons t rest ih =>
      refine ih ⟨fun u listed => ?_, nofun⟩ fun u listed => all u (List.mem_cons_of_mem _ listed)
      rcases mem_of_replaceType listed with rfl | old
      · exact all u List.mem_cons_self
      · exact respects.types u old

/-- The standard host respects all views. -/
theorem respects_standard {digest : Digest}
    : (standard digest).Respects V :=
  respects_registered ⟨nofun, nofun⟩ fun _ => respects_of_mem_standardTypes

end Host

end IncrementalLisp
