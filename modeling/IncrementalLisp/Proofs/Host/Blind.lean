import IncrementalLisp.Host.Standard
import IncrementalLisp.Proofs.Host.Members
import IncrementalLisp.Proofs.Primitive.Alike

/-! Hosts that do not look into functions: asked about values that differ only in the bodies of
functions and expanders, their types and members answer alike. The standard host is one.
-/

namespace IncrementalLisp

variable {M : Likeness}

-----------------------------------------------------------------------------------------
-- Members and types
-----------------------------------------------------------------------------------------

/-- (RunsBlindly run) says that a function of values answers alike to alike arguments. -/
def RunsBlindly (run : List Value → Except Fault Value)
    : Prop :=
  ∀ M : Likeness, M.Exact → ∀ {args args' : List Value}, ValuesAlike M args args'
    → Answers M (Value.Alike M) (run args) (run args')

/-- A type whose members answer alike to alike arguments, and of which alike values are instances
alike.
-/
structure HostType.Blind (t : HostType) : Prop where
  isInstance_eq
    : ∀ M : Likeness, M.Exact → ∀ {v w : Value}, v.Alike M w → t.isInstance w = t.isInstance v
  members : t.All fun m => RunsBlindly m.run

/-- A host of such types that remembers only such members. -/
structure Host.Blind (h : Host) : Prop where
  types : ∀ t ∈ h.types, t.Blind
  cache : ∀ entry ∈ h.cache, RunsBlindly entry.2.run

/-- A member that runs blindly answers alike for arguments that are alike, wrapped in its error or
not.
-/
theorem RunsBlindly.call_alike {m : Member} (blind : RunsBlindly m.run) (exact : M.Exact)
    {args args' : List Value} (alike : ValuesAlike M args args')
    : ResultsAlike (EvalError.Alike M) (Value.Alike M) (m.call args) (m.call args') := by
  have ran : ResultsAlike (EvalError.Alike M) (Value.Alike M) (Member.call.ran m args)
      (Member.call.ran m args') := by
    have answers := blind M exact alike
    unfold Member.call.ran
    generalize m.run args = x, m.run args' = y at answers ⊢
    cases answers with
    | error faults => exact .error ⟨_, rfl, _, rfl, faults⟩
    | ok values => exact .ok values
  unfold Member.call
  rw [alike.length_eq]
  split
  · split
    · exact ran
    · exact .error rfl
  · exact ran

namespace Host

variable {h : Host}

/-- The first type that passes a test is the same for tests that agree on all types, by induction on
them.
-/
theorem find?_eq {types : List HostType} {test test' : HostType → Bool}
    (same : ∀ t ∈ types, test' t = test t)
    : types.find? test' = types.find? test := by
  induction types with
  | nil => rfl
  | cons t rest ih =>
      rw [List.find?_cons, List.find?_cons, same t List.mem_cons_self,
        ih fun u listed => same u (List.mem_cons_of_mem _ listed)]

/-- Alike values are of the same type. -/
theorem Blind.typeOf?_eq (blind : h.Blind) (exact : M.Exact) {v w : Value} (alike : v.Alike M w)
    : h.typeOf? w = h.typeOf? v := by
  have tested (t : HostType) (known : t ∈ h.types) : t.isInstance w = t.isInstance v :=
    (blind.types t known).isInstance_eq M exact alike
  unfold typeOf?
  congr 1
  · exact find?_eq fun t known => by rw [tested t known]
  · cases found : h.type? rootType with
    | none => rfl
    | some root => simp only [Option.filter, tested root (mem_of_type? found)]

/-- Values that are alike are instances of the same types of a blind host. -/
theorem Blind.isInstance_eq (blind : h.Blind) (exact : M.Exact) (type : String) {v w : Value}
    (alike : v.Alike M w)
    : h.isInstance type w = h.isInstance type v := by
  unfold isInstance
  cases found : h.type? type with
  | none => rfl
  | some t => exact (blind.types t (mem_of_type? found)).isInstance_eq M exact alike

/-- Only numbers and characters have conversions. -/
theorem converted?_eq_none (type : String) {v : Value} (number : ∀ n, v ≠ .int n)
    (float : ∀ x, v ≠ .float x) (char : ∀ c, v ≠ .char c)
    : converted? type v = none := by
  rw [converted?.eq_def]
  split
  · exact absurd rfl (float _)
  · exact absurd rfl (char _)
  · exact absurd rfl (number _)
  · exact absurd rfl (number _)
  · rfl

/-- Only simple values are converted. -/
theorem converted?_eq (type : String) {v w : Value} (alike : v.Alike M w)
    : converted? type w = converted? type v := by
  cases v with
  | list | vector | map | set | function | expander | node =>
      obtain ⟨_, rfl, _⟩ := alike
      rw [converted?_eq_none type (by rintro _ ⟨⟩) (by rintro _ ⟨⟩) (by rintro _ ⟨⟩),
        converted?_eq_none type (by rintro _ ⟨⟩) (by rintro _ ⟨⟩) (by rintro _ ⟨⟩)]
  | _ =>
      obtain rfl := alike
      rfl

/-- Values that are alike are cast alike by a blind host, since its tests and conversions agree. -/
theorem Blind.cast_alike (blind : h.Blind) (exact : M.Exact) (type : String) {v w : Value}
    (alike : v.Alike M w)
    : ResultsAlike (EvalError.Alike M) (Value.Alike M) (h.cast type v) (h.cast type w) := by
  unfold cast
  rw [blind.isInstance_eq exact type alike, converted?_eq type alike]
  split
  · exact .ok alike
  · split
    · exact .ok (.refl exact _)
    · exact .error (wrongType_alike type alike)

/-- The member that is found answers alike, and the host that remembers it is as before. -/
theorem Blind.resolve (blind : h.Blind) {t : HostType} (known : t ∈ h.types) (name : String)
    (count : Nat) (dispatch : Dispatch)
    : (h.resolve t name count dispatch).2.Blind
      ∧ ∀ m, (h.resolve t name count dispatch).1 = some m → RunsBlindly m.run := by
  unfold Host.resolve
  dsimp only
  split
  · rename_i m cached
    obtain ⟨before, after, split, _⟩ := List.lookup_eq_some_iff.mp cached
    refine ⟨blind, ?_⟩
    rintro _ ⟨⟩
    exact blind.cache (⟨t.name, name, count, dispatch⟩, m) (by simp [split])
  · split
    · rename_i m selected
      have runs := all_of_member? (fun u listed => (blind.types u listed).members) known selected
      constructor
      · refine ⟨blind.types, fun entry listed => ?_⟩
        rcases List.mem_cons.mp listed with rfl | old
        · exact runs
        · exact blind.cache entry old
      · rintro _ ⟨⟩
        exact runs
    · exact ⟨blind, nofun⟩

/-- (AnswersAlike M x y) says that two hosts gave alike answers and are the same blind host now. -/
def AnswersAlike (M : Likeness) (x y : Except EvalError Value × Host)
    : Prop :=
  ResultsAlike (EvalError.Alike M) (Value.Alike M) x.1 y.1 ∧ y.2 = x.2 ∧ x.2.Blind

/-- A blind host answers alike for a member of a type, by the member that is selected for both
calls.
-/
theorem Blind.invokeStatic_alike (blind : h.Blind) (exact : M.Exact) (type member : String)
    {args args' : List Value} (alike : ValuesAlike M args args')
    : AnswersAlike M (h.invokeStatic type member args) (h.invokeStatic type member args') := by
  unfold invokeStatic
  rw [alike.length_eq]
  cases found : h.type? type with
  | none => exact ⟨.error ⟨_, rfl, rfl⟩, rfl, blind⟩
  | some t =>
      obtain ⟨later, runs⟩ := blind.resolve (mem_of_type? found) member args.length .onType
      dsimp only
      generalize h.resolve t member args.length .onType = resolved at later runs
      obtain ⟨m?, h'⟩ := resolved
      cases m? with
      | none => exact ⟨.error ⟨_, rfl, rfl⟩, rfl, later⟩
      | some m => exact ⟨(runs m rfl).call_alike exact alike, rfl, later⟩

/-- So it does for a member of values that are alike, whose types are the same. -/
theorem Blind.invoke_alike (blind : h.Blind) (exact : M.Exact) {target target' : Value}
    (targets : target.Alike M target') (member : String) {args args' : List Value}
    (alike : ValuesAlike M args args')
    : AnswersAlike M (h.invoke target member args) (h.invoke target' member args') := by
  unfold invoke
  rw [alike.length_eq, blind.typeOf?_eq exact targets]
  cases found : h.typeOf? target with
  | none => exact ⟨.error ⟨_, rfl, _, rfl, targets⟩, rfl, blind⟩
  | some t =>
      obtain ⟨later, runs⟩ :=
        blind.resolve (mem_of_typeOf? found) member (args.length + 1) .onInstance
      dsimp only
      generalize h.resolve t member (args.length + 1) .onInstance = resolved at later runs
      obtain ⟨m?, h'⟩ := resolved
      cases m? with
      | none => exact ⟨.error ⟨_, rfl, rfl⟩, rfl, later⟩
      | some m => exact ⟨(runs m rfl).call_alike exact ⟨_, _, rfl, targets, alike⟩, rfl, later⟩

-----------------------------------------------------------------------------------------
-- Arguments of standard members
-----------------------------------------------------------------------------------------

variable {a a' b b' c c' : Value}

/-- Answers to the same question. -/
theorem answers_self (exact : M.Exact) (x : Except Fault Value)
    : Answers M (Value.Alike M) x x := by
  cases x with
  | ok v => exact .ok (.refl exact v)
  | error fault => exact .error (.self (.refl exact) fault)

/-- Arguments that are alike are the same text, or fail alike to be one. -/
theorem textArg_alike (alike : a.Alike M a')
    : Answers M (· = ·) (textArg a) (textArg a') := by
  cases a with
  | list | vector | map | set | function | expander | node =>
      obtain ⟨_, rfl, inner⟩ := alike
      exact .error ⟨_, rfl, _, rfl, inner⟩
  | string =>
      obtain rfl := alike
      exact .ok rfl
  | _ =>
      obtain rfl := alike
      exact .error ⟨_, rfl, rfl⟩

/-- They are the same index, or fail alike to be one. -/
theorem indexArg_alike (alike : a.Alike M a')
    : Answers M (· = ·) (indexArg a) (indexArg a') := by
  cases a with
  | list | vector | map | set | function | expander | node =>
      obtain ⟨_, rfl, inner⟩ := alike
      exact .error ⟨_, rfl, _, rfl, inner⟩
  | int n =>
      obtain rfl := alike
      unfold indexArg
      dsimp only
      split
      · exact .ok rfl
      · exact .error ⟨_, rfl, rfl⟩
  | _ =>
      obtain rfl := alike
      exact .error ⟨_, rfl, rfl⟩

/-- They are the same number, or fail alike to be one. -/
theorem numberArg_alike (alike : a.Alike M a')
    : Answers M (· = ·) (numberArg a) (numberArg a') := by
  cases a with
  | list | vector | map | set | function | expander | node =>
      obtain ⟨_, rfl, inner⟩ := alike
      exact .error ⟨_, rfl, _, rfl, inner⟩
  | int | float =>
      obtain rfl := alike
      exact .ok rfl
  | _ =>
      obtain rfl := alike
      exact .error ⟨_, rfl, rfl⟩

/-- They are the same character, or fail alike to be one. -/
theorem charArg_alike (alike : a.Alike M a')
    : Answers M (· = ·) (charArg a) (charArg a') := by
  cases a with
  | list | vector | map | set | function | expander | node =>
      obtain ⟨_, rfl, inner⟩ := alike
      exact .error ⟨_, rfl, _, rfl, inner⟩
  | char =>
      obtain rfl := alike
      exact .ok rfl
  | _ =>
      obtain rfl := alike
      exact .error ⟨_, rfl, rfl⟩

/-- They are the same identifier, or fail alike to be one. -/
theorem identifierArg_alike (alike : a.Alike M a')
    : Answers M (· = ·) (identifierArg a) (identifierArg a') := by
  cases a with
  | list | vector | map | set | function | expander | node =>
      obtain ⟨_, rfl, inner⟩ := alike
      exact .error ⟨_, rfl, _, rfl, inner⟩
  | symbol | keyword =>
      obtain rfl := alike
      exact .ok rfl
  | _ =>
      obtain rfl := alike
      exact .error ⟨_, rfl, rfl⟩

/-- Values that are alike have the same size, by the lengths of their items. -/
theorem size_alike (alike : a.Alike M a')
    : Answers M (· = ·) (size a) (size a') := by
  cases a with
  | list | vector | set =>
      obtain ⟨_, rfl, items⟩ := alike
      exact .ok items.length_eq.symm
  | map =>
      obtain ⟨_, rfl, entries⟩ := alike
      exact .ok entries.length_eq.symm
  | function | expander | node =>
      obtain ⟨_, rfl, inner⟩ := alike
      exact .error ⟨_, rfl, _, rfl, inner⟩
  | _ =>
      obtain rfl := alike
      exact .error ⟨_, rfl, rfl⟩

/-- A member that decodes an argument, and depends on nothing else of it. -/
theorem decoded_alike {α : Type} {x y : Except Fault α} (decoded : Answers M (· = ·) x y)
    {f g : α → Except Fault Value} (rest : ∀ r, Answers M (Value.Alike M) (f r) (g r))
    : Answers M (Value.Alike M) (x >>= f) (y >>= g) :=
  decoded.bind fun {r s} same => by
    obtain rfl : r = s := same
    exact rest r

/-- A test of two texts gives the same truth for values that are alike. -/
theorem textTest_alike (exact : M.Exact) (test : List Char → List Char → Bool)
    (first : a.Alike M a') (second : b.Alike M b')
    : Answers M (Value.Alike M) (textTest test a b) (textTest test a' b') :=
  decoded_alike (textArg_alike first) fun _ =>
    decoded_alike (textArg_alike second) fun _ => answers_self exact _

/-- A number is parsed alike from values that are alike, as the same text. -/
theorem parseLong_alike (exact : M.Exact) (alike : a.Alike M a')
    : Answers M (Value.Alike M) (parseLong a) (parseLong a') :=
  decoded_alike (textArg_alike alike) fun _ => answers_self exact _

/-- Items at the same position are alike, or both positions are out of bounds. -/
theorem getElem?_alike {items items' : List Value} (alike : ValuesAlike M items items') (i : Nat)
    : Answers M (Value.Alike M)
        (match items[i]? with
          | some item => (.ok item : Except Fault Value)
          | none => .error (.outOfBounds i))
        (match items'[i]? with
          | some item => .ok item
          | none => .error (.outOfBounds i)) := by
  have both := alike.getElem? i
  generalize items[i]? = o, items'[i]? = o' at both ⊢
  cases both with
  | none => exact .error rfl
  | some same => exact .ok same

/-- The item of a sequence at an index is alike, by the sequence and the index. -/
theorem hostItemAt_alike (target : a.Alike M a') (index : b.Alike M b')
    : Answers M (Value.Alike M) (itemAt a b) (itemAt a' b') := by
  refine decoded_alike (indexArg_alike index) fun i => ?_
  cases a with
  | list | vector =>
      obtain ⟨_, rfl, items⟩ := target
      exact getElem?_alike items i
  | map | set | function | expander | node =>
      obtain ⟨_, rfl, inner⟩ := target
      exact .error ⟨_, rfl, _, rfl, inner⟩
  | _ =>
      obtain rfl := target
      exact .error ⟨_, rfl, rfl⟩

/-- The extreme of two numbers is alike: the same one of them wins. -/
theorem choose_alike (firstWins : Number.Double → Number.Double → Bool)
    (first : a.Alike M a') (second : b.Alike M b')
    : Answers M (Value.Alike M) (choose firstWins a b) (choose firstWins a' b') := by
  have compared : Answers M (Value.Alike M)
      (do
        let x ← numberArg a
        let y ← numberArg b
        .ok (.float (if firstWins x y then x else y)))
      (do
        let x ← numberArg a'
        let y ← numberArg b'
        .ok (.float (if firstWins x y then x else y))) :=
    decoded_alike (numberArg_alike first) fun _ =>
      decoded_alike (numberArg_alike second) fun _ => .ok rfl
  cases a with
  | int m =>
      obtain rfl := first
      cases b with
      | int n =>
          obtain rfl := second
          exact .ok rfl
      | list | vector | map | set | function | expander | node =>
          obtain ⟨_, rfl, _⟩ := second
          exact compared
      | _ =>
          obtain rfl := second
          exact compared
  | list | vector | map | set | function | expander | node =>
      obtain ⟨_, rfl, _⟩ := first
      exact compared
  | _ =>
      obtain rfl := first
      exact compared

-----------------------------------------------------------------------------------------
-- The standard host
-----------------------------------------------------------------------------------------

/-- A member of one argument runs blindly if its function answers alike. -/
theorem runsBlindly_unary {run : Value → Except Fault Value}
    (alike
      : ∀ {M : Likeness}, M.Exact → ∀ {a a' : Value}, a.Alike M a'
        → Answers M (Value.Alike M) (run a) (run a'))
    : RunsBlindly (unary run) := by
  intro M exact args args' values
  rw [valuesAlike_iff_forall₂] at values
  rcases values with _ | ⟨first, _ | ⟨_, rest⟩⟩
  · exact .error rfl
  · exact alike exact first
  · unfold unary
    simp only [List.length_cons, rest.length_eq]
    exact .error rfl

/-- So does a member of two arguments. -/
theorem runsBlindly_binary {run : Value → Value → Except Fault Value}
    (alike
      : ∀ {M : Likeness}, M.Exact → ∀ {a a' b b' : Value}, a.Alike M a' → b.Alike M b'
        → Answers M (Value.Alike M) (run a b) (run a' b'))
    : RunsBlindly (binary run) := by
  intro M exact args args' values
  rw [valuesAlike_iff_forall₂] at values
  rcases values with _ | ⟨first, _ | ⟨second, _ | ⟨_, rest⟩⟩⟩
  · exact .error rfl
  · exact .error rfl
  · exact alike exact first second
  · unfold binary
    simp only [List.length_cons, rest.length_eq]
    exact .error rfl

/-- So does a member of three arguments. -/
theorem runsBlindly_ternary {run : Value → Value → Value → Except Fault Value}
    (alike
      : ∀ {M : Likeness}, M.Exact
        → ∀ {a a' b b' c c' : Value}, a.Alike M a' → b.Alike M b' → c.Alike M c'
        → Answers M (Value.Alike M) (run a b c) (run a' b' c'))
    : RunsBlindly (ternary run) := by
  intro M exact args args' values
  rw [valuesAlike_iff_forall₂] at values
  rcases values with _ | ⟨first, _ | ⟨second, _ | ⟨third, _ | ⟨_, rest⟩⟩⟩⟩
  · exact .error rfl
  · exact .error rfl
  · exact .error rfl
  · exact alike exact first second third
  · unfold ternary
    simp only [List.length_cons, rest.length_eq]
    exact .error rfl

/-- A member that decodes its target or only argument. -/
theorem runsBlindly_decoding {α : Type} {decode : Value → Except Fault α}
    (decoded
      : ∀ {M : Likeness} {a a' : Value}, a.Alike M a' → Answers M (· = ·) (decode a) (decode a'))
    (rest : α → Except Fault Value)
    : RunsBlindly (unary fun a => decode a >>= rest) :=
  runsBlindly_unary fun exact _ _ alike =>
    decoded_alike (decoded alike) fun _ => answers_self exact _

/-- The members of a type, which answer alike to alike arguments. -/
abbrev MembersBlind (t : HostType)
    : Prop :=
  t.All fun m => RunsBlindly m.run

/-- The members of strings run blindly, each by the text that its arguments are. -/
theorem blind_stringType
    : MembersBlind stringType := by
  unfold stringType
  apply HostType.All.withStatic
  repeat apply HostType.All.withInstance
  · exact .plain _ _
  · exact runsBlindly_decoding textArg_alike _
  · exact runsBlindly_decoding textArg_alike _
  · exact runsBlindly_decoding textArg_alike _
  · exact runsBlindly_decoding textArg_alike _
  · exact runsBlindly_decoding textArg_alike _
  · exact runsBlindly_binary fun exact _ _ _ _ first second =>
      decoded_alike (textArg_alike first) fun _ =>
        decoded_alike (indexArg_alike second) fun _ => answers_self exact _
  · exact runsBlindly_ternary fun exact _ _ _ _ _ _ first second third =>
      decoded_alike (textArg_alike first) fun _ =>
        decoded_alike (indexArg_alike second) fun _ =>
          decoded_alike (indexArg_alike third) fun _ => answers_self exact _
  · exact runsBlindly_binary fun exact _ _ _ _ first second =>
      decoded_alike (indexArg_alike second) fun _ =>
        decoded_alike (textArg_alike first) fun _ => answers_self exact _
  · exact runsBlindly_binary fun exact _ _ _ _ => textTest_alike exact _
  · exact runsBlindly_binary fun exact _ _ _ _ => textTest_alike exact _
  · exact runsBlindly_binary fun exact _ _ _ _ => textTest_alike exact _
  · exact runsBlindly_binary fun exact _ _ _ _ first second =>
      decoded_alike (textArg_alike first) fun _ =>
        decoded_alike (textArg_alike second) fun _ => answers_self exact _
  · exact runsBlindly_binary fun exact _ _ _ _ first second =>
      decoded_alike (textArg_alike first) fun _ =>
        decoded_alike (textArg_alike second) fun _ => answers_self exact _
  · exact runsBlindly_unary fun _ _ _ alike => by
      rw [alike.text_eq]
      exact .ok rfl

/-- Those of integers do. -/
theorem blind_longType
    : MembersBlind longType := by
  unfold longType
  repeat apply HostType.All.withStatic
  apply HostType.All.withInstance
  · exact .plain _ _
  · exact runsBlindly_decoding numberArg_alike _
  · exact runsBlindly_unary fun exact _ _ => parseLong_alike exact
  · refine runsBlindly_unary fun exact a _ alike => ?_
    have parsed := parseLong_alike exact alike
    cases a with
    | int =>
        obtain rfl := alike
        exact .ok rfl
    | list | vector | map | set | function | expander | node =>
        obtain ⟨_, rfl, _⟩ := alike
        exact parsed
    | _ =>
        obtain rfl := alike
        exact parsed

/-- Those of floats do. -/
theorem blind_doubleType
    : MembersBlind doubleType := by
  unfold doubleType
  apply HostType.All.withStatic
  repeat apply HostType.All.withInstance
  · exact .plain _ _
  · exact runsBlindly_decoding numberArg_alike _
  · exact runsBlindly_decoding numberArg_alike _
  · exact runsBlindly_decoding textArg_alike _

/-- Those of characters do. -/
theorem blind_characterType
    : MembersBlind characterType := by
  unfold characterType
  repeat apply HostType.All.withStatic
  · exact .plain _ _
  · exact runsBlindly_decoding charArg_alike _
  · exact runsBlindly_decoding charArg_alike _
  · exact runsBlindly_decoding charArg_alike _

/-- Those of symbols and of keywords do. -/
theorem blind_identifierType (name : String) (isInstance : Value → Bool)
    : MembersBlind (identifierType name isInstance) := by
  unfold identifierType
  repeat apply HostType.All.withInstance
  · exact .plain _ _
  · exact runsBlindly_decoding identifierArg_alike _
  · exact runsBlindly_decoding identifierArg_alike _

/-- Those of a type with a size do, besides the members that it had. -/
theorem blind_withSize {t : HostType} (members : MembersBlind t)
    : MembersBlind (withSize t) := by
  unfold withSize
  repeat apply HostType.All.withInstance
  · exact members
  · exact runsBlindly_decoding size_alike _
  · exact runsBlindly_decoding size_alike _

/-- Those of lists and of vectors do, by their items. -/
theorem blind_sequentialType (name : String) (isInstance : Value → Bool)
    : MembersBlind (sequentialType name isInstance) := by
  unfold sequentialType
  apply HostType.All.withInstance
  apply HostType.All.withInstance (blind_withSize (.plain _ _))
  · exact runsBlindly_binary fun _ _ _ _ _ => hostItemAt_alike
  · refine runsBlindly_binary fun exact a a' b b' first second => ?_
    have items := first.items?
    generalize a.items? = o, a'.items? = o' at items ⊢
    refine .ok (congrArg Value.bool ?_)
    cases items with
    | none => rfl
    | some same => exact same.any_eq fun item => item.equal_eq exact second

/-- Those of maps do: a key is found at the same place in entries that are alike. -/
theorem blind_mapType
    : MembersBlind mapType := by
  have entry {M : Likeness} (exact : M.Exact) {entries entries' : List (Value × Value)}
      {key key' : Value} (alike : EntriesAlike M entries entries') (keys : key.Alike M key')
      : Option.Rel (Value.Alike M) (Value.entry? entries key) (Value.entry? entries' key') :=
    Collections.entry?_alike (.of_exact exact keys) alike
  unfold mapType
  apply HostType.All.withInstance
  apply HostType.All.withInstance (blind_withSize (.plain _ _))
  · refine runsBlindly_binary fun exact a a' key key' target keys => ?_
    cases a with
    | map =>
        obtain ⟨_, rfl, entries⟩ := target
        exact .ok (getD_rel (entry exact entries keys) rfl)
    | list | vector | set | function | expander | node =>
        obtain ⟨_, rfl, inner⟩ := target
        exact .error ⟨_, rfl, _, rfl, inner⟩
    | _ =>
        obtain rfl := target
        exact .error ⟨_, rfl, rfl⟩
  · refine runsBlindly_binary fun exact a a' key key' target keys => ?_
    cases a with
    | map items =>
        obtain ⟨items', rfl, entries⟩ := target
        have both := entry exact entries keys
        dsimp only
        generalize Value.entry? items key = o, Value.entry? items' key' = o' at both ⊢
        cases both <;> exact .ok rfl
    | list | vector | set | function | expander | node =>
        obtain ⟨_, rfl, inner⟩ := target
        exact .error ⟨_, rfl, _, rfl, inner⟩
    | _ =>
        obtain rfl := target
        exact .error ⟨_, rfl, rfl⟩

/-- Those of sets do: an item is found in both or in none. -/
theorem blind_setType
    : MembersBlind setType := by
  unfold setType
  apply HostType.All.withInstance (blind_withSize (.plain _ _))
  refine runsBlindly_binary fun exact a a' item item' target same => ?_
  cases a with
  | set =>
      obtain ⟨_, rfl, items⟩ := target
      exact .ok (congrArg Value.bool (items.any_eq fun other => other.equal_eq exact same))
  | list | vector | map | function | expander | node =>
      obtain ⟨_, rfl, inner⟩ := target
      exact .error ⟨_, rfl, _, rfl, inner⟩
  | _ =>
      obtain rfl := target
      exact .error ⟨_, rfl, rfl⟩

/-- Those of the mathematical functions do, by the numbers that their arguments are. -/
theorem blind_mathType
    : MembersBlind mathType := by
  unfold mathType floatFunction
  repeat apply HostType.All.withStatic
  · exact .plain _ _
  · refine runsBlindly_unary fun exact a _ alike => ?_
    have magnitude := decoded_alike (numberArg_alike alike)
      (f := fun x => .ok (.float x.abs)) (g := fun x => .ok (.float x.abs))
      fun _ => answers_self exact _
    cases a with
    | int =>
        obtain rfl := alike
        exact answers_self exact _
    | list | vector | map | set | function | expander | node =>
        obtain ⟨_, rfl, _⟩ := alike
        exact magnitude
    | _ =>
        obtain rfl := alike
        exact magnitude
  · exact runsBlindly_binary fun _ _ _ _ _ => choose_alike _
  · exact runsBlindly_binary fun _ _ _ _ _ => choose_alike _
  · exact runsBlindly_decoding numberArg_alike _
  · exact runsBlindly_binary fun exact _ _ _ _ first second =>
      decoded_alike (numberArg_alike first) fun _ =>
        decoded_alike (numberArg_alike second) fun _ => answers_self exact _
  · exact runsBlindly_decoding numberArg_alike _
  · exact runsBlindly_decoding numberArg_alike _

/-- Those of all objects do: values that are alike have the same text, hash and equality. -/
theorem blind_objectType {digest : Digest}
    : MembersBlind (objectType digest) := by
  unfold objectType
  repeat apply HostType.All.withInstance
  · exact .plain _ _
  · exact runsBlindly_unary fun _ _ _ alike => by
      rw [alike.text_eq]
      exact .ok rfl
  · exact runsBlindly_binary fun exact a a' b b' first second => by
      have same : (a' == b') = (a == b) := first.equal_eq exact second
      rw [same]
      exact .ok rfl
  · exact runsBlindly_unary fun exact _ _ alike => by
      rw [alike.hashCode_eq exact]
      exact .ok rfl

/-- Alike values are instances of the same types of the standard host: none but the root type looks
at more than the kind of a value.
-/
theorem isInstance_eq_of_mem_standardTypes {digest : Digest} {t : HostType}
    (listed : t ∈ standardTypes digest) {v w : Value} (alike : v.Alike M w)
    : t.isInstance w = t.isInstance v := by
  simp only [standardTypes, List.mem_cons, List.not_mem_nil, or_false] at listed
  rcases listed with rfl | rfl | rfl | rfl | rfl | rfl | rfl | rfl | rfl | rfl | rfl | rfl | rfl
  case inr.inr.inr.inr.inr.inr.inr.inr.inr.inr.inr.inr => exact alike.isTruthy_eq
  all_goals
    cases v with
    | list | vector | map | set | function | expander | node =>
        obtain ⟨_, rfl, _⟩ := alike
        rfl
    | _ =>
        obtain rfl := alike
        rfl

/-- Every standard type is blind, by its instances and its members. -/
theorem blind_of_mem_standardTypes {digest : Digest} {t : HostType}
    (listed : t ∈ standardTypes digest)
    : t.Blind := by
  refine ⟨fun _ _ _ _ => isInstance_eq_of_mem_standardTypes listed, ?_⟩
  simp only [standardTypes, List.mem_cons, List.not_mem_nil, or_false] at listed
  rcases listed with rfl | rfl | rfl | rfl | rfl | rfl | rfl | rfl | rfl | rfl | rfl | rfl | rfl
  · exact blind_stringType
  · exact blind_longType
  · exact blind_doubleType
  · exact .plain _ _
  · exact blind_characterType
  · exact blind_identifierType _ _
  · exact blind_identifierType _ _
  · exact blind_sequentialType _ _
  · exact blind_sequentialType _ _
  · exact blind_mapType
  · exact blind_setType
  · exact blind_mathType
  · exact blind_objectType

/-- A host whose types were registered one after the other is blind if each of them is. -/
theorem blind_registered {types : List HostType} {h : Host} (blind : h.Blind)
    (all : ∀ t ∈ types, t.Blind)
    : (types.foldl register h).Blind := by
  induction types generalizing h with
  | nil => exact blind
  | cons t rest ih =>
      refine ih ⟨fun u listed => ?_, nofun⟩ fun u listed => all u (List.mem_cons_of_mem _ listed)
      rcases mem_of_replaceType listed with rfl | old
      · exact all u List.mem_cons_self
      · exact blind.types u old

/-- The standard host does not look into functions. -/
theorem blind_standard {digest : Digest}
    : (standard digest).Blind :=
  blind_registered ⟨nofun, nofun⟩ fun _ => blind_of_mem_standardTypes

end Host

end IncrementalLisp
