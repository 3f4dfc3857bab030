import IncrementalLisp.Proofs.Value.Keys
import IncrementalLisp.Reader

/-! The forms that the reader makes. Their symbols and keywords are spelled as they can be read,
their lists have places, their sets and maps hold distinct keys, and there are no functions,
expanders, nodes and host types in them. Every character that is read keeps the unfinished token a
prefix of a word and the finished forms of this kind.
-/

namespace IncrementalLisp

-----------------------------------------------------------------------------------------
-- Spellings
-----------------------------------------------------------------------------------------

/-- A symbol is spelled as it was read. -/
theorem Symbol.toString_ofString (text : String)
    : (ofString text).toString = text := by
  have parts : text.toList.reverse.takeWhile (· != '/') ++ text.toList.reverse.dropWhile (· != '/')
      = text.toList.reverse := List.takeWhile_append_dropWhile
  unfold ofString
  dsimp only
  split
  case h_1 slash space found =>
    have first : slash = '/' := by
      have stopped := List.head_dropWhile_not (· != '/') (found ▸ List.cons_ne_nil slash space)
      simpa [found] using stopped
    rw [found, first] at parts
    split
    · rfl
    · have letters := congrArg List.reverse parts
      rw [List.reverse_reverse] at letters
      refine String.toList_inj.mp (Eq.trans ?_ letters)
      simp [inSpace, toString]
  case h_2 => rfl

namespace Reader

/-- Whether a character starts a word. -/
def startsWord (c : Char)
    : Bool :=
  !(isDelimiter c || ['#', '\x27', '\x60', '~', '^', '\\', ':'].contains c)

/-- (Undelimited chars) says that no character ends a word. -/
def Undelimited (chars : List Char)
    : Prop :=
  ∀ c ∈ chars, isDelimiter c = false

/-- (IsWord chars) says that the characters are those of a word. -/
def IsWord (chars : List Char)
    : Prop :=
  (∃ c ∈ chars.head?, startsWord c) ∧ Undelimited chars

/-- Characters are undelimited if none of them is a delimiter. -/
theorem undelimited_iff {chars : List Char}
    : Undelimited chars ↔ (chars.all fun c => !isDelimiter c) := by
  simp [Undelimited]

/-- Undelimited characters stay so when put together. -/
theorem Undelimited.append {chars others : List Char} (first : Undelimited chars)
    (second : Undelimited others)
    : Undelimited (chars ++ others) :=
  List.forall_mem_append.mpr ⟨first, second⟩

/-- A word stays one with undelimited characters behind it. -/
theorem IsWord.append {chars others : List Char} (word : IsWord chars) (more : Undelimited others)
    : IsWord (chars ++ others) := by
  obtain ⟨⟨c, head, starts⟩, letters⟩ := word
  refine ⟨⟨c, ?_, starts⟩, letters.append more⟩
  rw [Option.mem_def] at head ⊢
  rw [List.head?_append, head, Option.some_or]

/-- A character that starts a word is one. -/
theorem isWord_singleton {c : Char} (starts : startsWord c)
    : IsWord [c] := by
  refine ⟨⟨c, rfl, starts⟩, fun d member => ?_⟩
  obtain rfl := List.mem_singleton.mp member
  rw [startsWord, Bool.not_eq_true', Bool.or_eq_false_iff] at starts
  exact starts.1

end Reader

-----------------------------------------------------------------------------------------
-- Readable forms
-----------------------------------------------------------------------------------------

open Reader

/-- (s.IsSpelled) says that the spelling of a symbol is a word that is read as the symbol. -/
def Symbol.IsSpelled (s : Symbol)
    : Prop :=
  IsWord s.toString.toList ∧ readWord s.toString = .ok (.symbol s)

/-- (s.IsKeyword) says that the spelling of a keyword, without its colon, is read as the keyword. -/
def Symbol.IsKeyword (s : Symbol)
    : Prop :=
  Undelimited s.toString.toList ∧ readKeyword s.toString = .ok (.keyword s)

mutual

/-- (v.Readable) says that the value is a form as the reader makes it. -/
def Value.Readable : Value → Prop
  | .symbol s => s.IsSpelled
  | .keyword s => s.IsKeyword
  | .list items source => source.isSome ∧ AllReadable items
  | .vector items => AllReadable items
  | .map entries => Value.Differ (fun e f => Value.equal e.1 f.1) entries ∧ EntriesReadable entries
  | .set items => Value.Differ Value.equal items ∧ AllReadable items
  | .function _ => False
  | .expander _ => False
  | .node _ => False
  | .type _ => False
  | _ => True
termination_by structural v => v

/-- (AllReadable vs) says that all of several values are forms as the reader makes them. -/
def AllReadable : List Value → Prop
  | [] => True
  | v :: rest => v.Readable ∧ AllReadable rest
termination_by structural vs => vs

/-- (EntriesReadable es) says the same of the keys and values of several entries. -/
def EntriesReadable : List (Value × Value) → Prop
  | [] => True
  | (k, v) :: rest => k.Readable ∧ v.Readable ∧ EntriesReadable rest
termination_by structural es => es

end

/-- Several values are readable if each of them is. Witness: induction on them. -/
theorem allReadable_iff {vs : List Value}
    : AllReadable vs ↔ ∀ v ∈ vs, v.Readable := by
  induction vs with
  | nil => simp [AllReadable]
  | cons v rest ih => rw [AllReadable, ih, List.forall_mem_cons]

/-- So are entries. Witness: induction on them. -/
theorem entriesReadable_iff {es : List (Value × Value)}
    : EntriesReadable es ↔ ∀ e ∈ es, e.1.Readable ∧ e.2.Readable := by
  induction es with
  | nil => simp [EntriesReadable]
  | cons e rest ih => rw [EntriesReadable, ih, List.forall_mem_cons, and_assoc]

namespace Value

mutual

/-- What is read is proper. Witness: by the form. -/
theorem Readable.proper
    : ∀ {v : Value}, v.Readable → v.Proper
  | .list _ _, readable => allProper_of_readable readable.2
  | .vector _, readable => allProper_of_readable readable
  | .map _, readable => ⟨readable.1, entriesProper_of_readable readable.2⟩
  | .set _, readable => ⟨readable.1, allProper_of_readable readable.2⟩
  | .nil, _ | .bool _, _ | .int _, _ | .float _, _ | .char _, _ | .string _, _ | .symbol _, _
  | .keyword _, _ | .function _, _ | .expander _, _ | .node _, _ | .type _, _ => trivial
termination_by structural v => v

/-- Readable values are proper, one by one. -/
theorem allProper_of_readable
    : ∀ {vs : List Value}, AllReadable vs → AllProper vs
  | [], _ => trivial
  | _ :: _, readable => ⟨readable.1.proper, allProper_of_readable readable.2⟩
termination_by structural vs => vs

/-- So are readable entries. -/
theorem entriesProper_of_readable
    : ∀ {es : List (Value × Value)}, EntriesReadable es → EntriesProper es
  | [], _ => trivial
  | (_, _) :: _, readable =>
      ⟨readable.1.proper, readable.2.1.proper, entriesProper_of_readable readable.2.2⟩
termination_by structural es => es

end

end Value

/-- Sets of readable items are readable: their items are some of these. -/
theorem Value.readable_setOf {a : Arrangement} {items : List Value} (readable : AllReadable items)
    : (Value.setOf a items).Readable := by
  have proper : (Value.setOf a items).Proper := proper_setOf (allProper_of_readable readable)
  refine ⟨proper.1, ?_⟩
  rw [allReadable_iff] at readable ⊢
  exact fun v member => readable v (mem_distinct member)

/-- Maps of readable entries are readable: their entries are some of these. -/
theorem Value.readable_mapOf {a : Arrangement} {entries : List (Value × Value)}
    (readable : EntriesReadable entries)
    : (Value.mapOf a entries).Readable := by
  have proper : (Value.mapOf a entries).Proper := proper_mapOf (entriesProper_of_readable readable)
  refine ⟨proper.1, ?_⟩
  rw [entriesReadable_iff] at readable ⊢
  exact fun e member => readable e (mem_distinctEntries member)

/-- Alternating readable keys and values give readable entries, by the recursion of pairs. -/
theorem entriesReadable_pairs {items : List Value} (readable : AllReadable items)
    : EntriesReadable (Value.pairs items) := by
  induction items using Value.pairs.induct with
  | case1 x y rest ih =>
      obtain ⟨key, value, others⟩ := readable
      exact ⟨key, value, ih others⟩
  | case2 items short =>
      rw [Value.pairs]
      · trivial
      · exact short

namespace Reader

-----------------------------------------------------------------------------------------
-- Tokens
-----------------------------------------------------------------------------------------

/-- A number that is read is readable. -/
theorem readable_of_readNumber {token : String} {v : Value} (read : readNumber token = .ok v)
    : v.Readable := by
  unfold readNumber at read
  split at read
  · cases read
    trivial
  · split at read <;> cases read
    trivial

/-- A word that is read is readable, by what it is read as. -/
theorem readable_of_readWord {token : String} {v : Value} (word : IsWord token.toList)
    (read : readWord token = .ok v)
    : v.Readable := by
  have whole := read
  unfold readWord at read
  split at read
  · cases read
    trivial
  split at read
  · cases read
    trivial
  split at read
  · cases read
    trivial
  split at read
  · exact readable_of_readNumber read
  · cases read
    rw [Value.Readable, Symbol.IsSpelled, Symbol.toString_ofString]
    exact ⟨word, whole⟩

/-- A keyword that is read is readable. -/
theorem readable_of_readKeyword {token : String} {v : Value} (letters : Undelimited token.toList)
    (read : readKeyword token = .ok v)
    : v.Readable := by
  have whole := read
  unfold readKeyword at read
  split at read <;> cases read
  rw [Value.Readable, Symbol.IsKeyword, Symbol.toString_ofString]
  exact ⟨letters, whole⟩

/-- A character that is read is readable. -/
theorem readable_of_readCharacter {first : Char} {rest : List Char} {v : Value}
    (read : readCharacter first rest = .ok v)
    : v.Readable := by
  unfold readCharacter at read
  split at read
  · cases read
    trivial
  · split at read <;> cases read <;> trivial

/-- Brackets make readable forms of readable items, by their kind. -/
theorem Bracket.readable_of_form {a : Arrangement} {bracket : Bracket} {start : Location}
    {items : List Value} {v : Value} (readable : AllReadable items)
    (made : bracket.form a start items = .ok v)
    : v.Readable := by
  cases bracket with
  | round =>
      cases made
      exact ⟨rfl, readable⟩
  | square =>
      cases made
      exact readable
  | curly =>
      dsimp only [Bracket.form] at made
      split at made
      · cases made
        exact Value.readable_mapOf (entriesReadable_pairs readable)
      · cases made
  | hashed =>
      cases made
      exact Value.readable_setOf readable

-----------------------------------------------------------------------------------------
-- States
-----------------------------------------------------------------------------------------

/-- The symbols that wrap a quoted form. -/
def wrappers : List String := ["quote", "syntax-quote", "unquote"]

/-- The items of an open bracket are readable, and a quoting character wraps a form as usual. -/
def Frame.WellRead : Frame → Prop
  | .opened _ _ items => AllReadable items
  | .wrap head _ => head ∈ wrappers
  | .dropNext => True
  | .needed => True

/-- The characters of an unfinished word or keyword are those of one. -/
def Mode.WellRead : Mode → Prop
  | .word _ chars => IsWord chars.reverse
  | .keyword _ chars => Undelimited chars.reverse
  | _ => True

namespace State

/-- (s.WellRead) says that what was read is readable, and that the unfinished token and the
unfinished forms are so as far as they go.
-/
structure WellRead (s : State)
    : Prop where
  mode : s.mode.WellRead
  frames : ∀ frame ∈ s.frames, frame.WellRead
  forms : AllReadable s.forms

variable {s : State}

/-- The reader starts well. -/
theorem wellRead_start (a : Arrangement) (file : String)
    : (start a file).WellRead :=
  ⟨trivial, nofun, trivial⟩

/-- It stays well when it fails. -/
theorem WellRead.fail (read : s.WellRead) (fault : ReadFault) (place : Location)
    : (s.fail fault place).WellRead :=
  ⟨trivial, read.frames, read.forms⟩

/-- The usual wrappers have symbols that are spelled, one by one. -/
theorem isSpelled_of_mem_wrappers {head : String} (usual : head ∈ wrappers)
    : (Symbol.bare head).IsSpelled := by
  simp only [wrappers, List.mem_cons, List.not_mem_nil, or_false] at usual
  unfold Symbol.IsSpelled IsWord
  have spelled {s : String} (word : startsNumber s.toList = false)
    (name : Symbol.ofString s = .bare s)
      (others : s ≠ "nil" ∧ s ≠ "true" ∧ s ≠ "false")
      : readWord s = .ok (.symbol (.bare s)) := by
    unfold readWord
    simp [others, word, name]
  rcases usual with rfl | rfl | rfl <;>
    exact ⟨⟨⟨_, rfl, by decide⟩, undelimited_iff.mpr (by decide)⟩,
      spelled (by decide) (by decide) (by decide)⟩

/-- A readable form is placed well into frames that are. Witness: induction on the frames. -/
theorem wellRead_place {frames : List Frame} {forms : List Value} {form : Value}
    (readable : form.Readable) (inside : ∀ frame ∈ frames, frame.WellRead)
    (done : AllReadable forms)
    : (∀ frame ∈ (place form frames forms).1, frame.WellRead)
        ∧ AllReadable (place form frames forms).2 := by
  induction frames generalizing form with
  | nil => exact ⟨nofun, readable, done⟩
  | cons frame rest ih =>
      obtain ⟨first, others⟩ := List.forall_mem_cons.mp inside
      cases frame with
      | opened => exact ⟨List.forall_mem_cons.mpr ⟨⟨readable, first⟩, others⟩, done⟩
      | wrap => exact ih ⟨rfl, isSpelled_of_mem_wrappers first, readable, trivial⟩ others
      | dropNext => exact ⟨List.forall_mem_cons.mpr ⟨trivial, others⟩, done⟩
      | needed => exact ih readable others

/-- The reader takes a readable form well. -/
theorem WellRead.deliver (read : s.WellRead) {form : Value} (readable : form.Readable)
    : (s.deliver form).WellRead :=
  have placed := wellRead_place readable read.frames read.forms
  ⟨trivial, placed.1, placed.2⟩

/-- It finishes a token well if its forms are readable. -/
theorem WellRead.finishToken (read : s.WellRead) {result : Except ReadFault Value}
    (readable : ∀ v, result = .ok v → v.Readable) (start : Location)
    : (s.finishToken start result).WellRead := by
  cases result with
  | ok form => exact read.deliver (readable form rfl)
  | error fault => exact read.fail fault start

/-- It opens a frame well. -/
theorem WellRead.push (read : s.WellRead) {frame : Frame} (usual : frame.WellRead)
    : (s.push frame).WellRead :=
  ⟨trivial, List.forall_mem_cons.mpr ⟨usual, read.frames⟩, read.forms⟩

/-- It turns to a usual mode well. -/
theorem WellRead.inMode (read : s.WellRead) {mode : Mode} (usual : mode.WellRead)
    : WellRead { s with mode := mode } :=
  ⟨usual, read.frames, read.forms⟩

/-- It closes a bracket well, by the frame that is open. -/
theorem WellRead.close (read : s.WellRead) (c : Char)
    : (s.close c).WellRead := by
  have inside := read.frames
  unfold State.close
  split
  · rename_i bracket start items rest frames
    rw [frames] at inside
    obtain ⟨first, others⟩ := List.forall_mem_cons.mp inside
    split
    · have outer : WellRead { s with frames := rest } := ⟨read.mode, others, read.forms⟩
      refine outer.finishToken (fun v made => ?_) start
      refine Bracket.readable_of_form (allReadable_iff.mpr fun w member => ?_) made
      exact allReadable_iff.mp first w (List.mem_reverse.mp member)
    · exact read.fail _ _
  · exact read.fail _ _

/-- It starts a form well, by the character. -/
theorem WellRead.unclaimed (read : s.WellRead) (c : Char)
    : (s.unclaimed c).WellRead := by
  unfold State.unclaimed
  split
  · exact read
  · rename_i solid
    split
    case h_16 =>
      refine read.inMode (isWord_singleton ?_)
      simp_all [startsWord, isDelimiter]
    all_goals first
      | exact read.close _
      | exact read.push trivial
      | exact read.push (List.mem_of_elem_eq_true rfl)
      | exact read.inMode trivial
      | exact read.inMode (List.forall_mem_nil _)

/-- It settles well, by the mode. -/
theorem WellRead.settle (read : s.WellRead)
    : s.settle.WellRead := by
  have usual := read.mode
  unfold State.settle
  split
  case h_1 start chars mode =>
    rw [mode] at usual
    exact read.finishToken (fun v => readable_of_readWord (by rwa [String.toList_ofList])) start
  case h_2 start chars mode =>
    rw [mode] at usual
    exact read.finishToken (fun v => readable_of_readKeyword (by rwa [String.toList_ofList])) start
  case h_3 start first chars mode =>
    exact read.finishToken (fun v => readable_of_readCharacter) start
  case h_4 start mode => exact read.push (List.mem_of_elem_eq_true rfl)
  case h_5 => exact read

/-- It goes on behind a token well. -/
theorem WellRead.reopen (read : s.WellRead) (c : Char)
    : (s.reopen c).WellRead := by
  unfold State.reopen
  split
  · exact read.unclaimed c
  · exact read

/-- It takes a character well, by the mode. -/
theorem WellRead.take (read : s.WellRead) (c : Char)
    : (s.take c).WellRead := by
  have usual := read.mode
  have single (letter : ¬isDelimiter c = true)
      : Undelimited [c] := fun d member => by simpa [List.mem_singleton.mp member] using letter
  unfold State.take
  split
  case h_1 => exact read.unclaimed c
  case h_2 =>
    split
    · exact read.inMode trivial
    · exact read
  case h_3 start chars mode =>
    split
    · exact read.settle.reopen c
    · rename_i letter
      rw [mode] at usual
      refine read.inMode ?_
      rw [Mode.WellRead, List.reverse_cons]
      exact usual.append (single letter)
  case h_4 start chars mode =>
    split
    · exact read.settle.reopen c
    · rename_i letter
      rw [mode] at usual
      refine read.inMode ?_
      rw [Mode.WellRead, List.reverse_cons]
      exact usual.append (single letter)
  case h_5 =>
    split
    · exact read.deliver trivial
    · exact read.inMode trivial
    · exact read.inMode trivial
  case h_6 =>
    split
    · exact read.inMode trivial
    · exact read.fail _ _
  case h_7 => exact read.inMode trivial
  case h_8 =>
    split
    · exact read.settle.reopen c
    · exact read.inMode trivial
  case h_9 =>
    split
    · exact read.push trivial
    · exact read.push trivial
    · exact read.fail _ _
  case h_10 =>
    split
    · exact read.fail _ _
    · exact read.settle.reopen c
  case h_11 => exact read

/-- It moves on well. -/
theorem WellRead.feed (read : s.WellRead) (c : Char)
    : (s.feed c).WellRead :=
  have taken := read.take c
  ⟨taken.mode, taken.frames, taken.forms⟩

/-- It reads a text well. Witness: induction on the characters. -/
theorem WellRead.foldl_feed (read : s.WellRead) (chars : List Char)
    : (chars.foldl State.feed s).WellRead := by
  induction chars generalizing s with
  | nil => exact read
  | cons c rest ih => exact ih (read.feed c)

/-- It finishes well, by the frame that is open. -/
theorem WellRead.finish (read : s.WellRead)
    : s.finish.WellRead := by
  unfold State.finish
  dsimp only
  repeat' split
  all_goals first
    | exact read.settle
    | exact read.settle.fail _ _

end State

/-- Every form that is read from a text is readable. -/
theorem readable_of_mem_forms {a : Arrangement} {file text : String} {form : Value}
    (member : form ∈ (readNamed a file text).forms)
    : form.Readable := by
  have read := ((State.wellRead_start a file).foldl_feed text.toList).finish
  unfold readNamed State.outcome at member
  refine allReadable_iff.mp read.forms form (List.mem_reverse.mp ?_)
  split at member <;> exact member

end Reader

end IncrementalLisp
