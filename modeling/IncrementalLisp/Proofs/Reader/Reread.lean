import IncrementalLisp.Proofs.Number.IntegerText
import IncrementalLisp.Proofs.Places.Value
import IncrementalLisp.Proofs.Reader.Forms
import IncrementalLisp.Proofs.Value.Reordered
import Mathlib.Tactic.IntervalCases

/-! Printing undoes reading. The readable form of a form that was read is read as that form again,
with other places and its tables in another order, if there are no floats in it and if its strings
consist of characters that a quoted text shows as they are or writes with a letter behind a
backslash. Quoted texts write any other character as a code point, which the reader does not know.
-/

namespace IncrementalLisp

-----------------------------------------------------------------------------------------
-- Quotable forms
-----------------------------------------------------------------------------------------

/-- Whether a character is quoted without its code point. -/
def Text.isQuotable (c : Char)
    : Bool :=
  (escapeLetter? c).isSome || isPrintable c

mutual

/-- Whether there are no floats in a form, and only quotable characters in its strings. -/
def Value.isQuotable : Value → Bool
  | .float _ => false
  | .string s => s.toList.all Text.isQuotable
  | .list items _ => areQuotable items
  | .vector items => areQuotable items
  | .map entries => entriesAreQuotable entries
  | .set items => areQuotable items
  | _ => true
termination_by structural v => v

/-- Whether all of several forms are quotable. -/
def areQuotable : List Value → Bool
  | [] => true
  | v :: rest => v.isQuotable && areQuotable rest
termination_by structural vs => vs

/-- Whether the keys and values of several entries are quotable. -/
def entriesAreQuotable : List (Value × Value) → Bool
  | [] => true
  | (k, v) :: rest => k.isQuotable && v.isQuotable && entriesAreQuotable rest
termination_by structural es => es

end

namespace Reader

/-- What is read for a character of a quoted text is the character. -/
theorem unescape?_of_escapeLetter? {c letter : Char} (escaped : Text.escapeLetter? c = some letter)
    : unescape? letter = some c := by
  unfold Text.escapeLetter? at escaped
  split at escaped <;> cases escaped <;> rfl

/-- A digit starts a word. -/
theorem startsWord_of_isDigit {d : Char} (digit : d.isDigit)
    : startsWord d = true := by
  have bounds : 48 ≤ d.toNat ∧ d.toNat ≤ 57 := by
    simpa [Char.isDigit, UInt32.le_iff_toNat_le] using digit
  obtain ⟨least, most⟩ := bounds
  rw [← d.ofNat_toNat]
  interval_cases d.toNat <;> decide

/-- What starts a word is no delimiter. -/
theorem isDelimiter_of_startsWord {c : Char} (starts : startsWord c)
    : isDelimiter c = false := by
  rw [startsWord, Bool.not_eq_true', Bool.or_eq_false_iff] at starts
  exact starts.1

/-- A word that starts as a number is read as one, since no constant does. -/
theorem readWord_of_startsNumber {token : String} (starts : startsNumber token.toList)
    : readWord token = readNumber token := by
  have differs (word : String) (other : startsNumber word.toList = false) : ¬(token == word) := by
    intro same
    rw [eq_of_beq same, other] at starts
    cases starts
  unfold readWord
  rw [if_neg (differs "nil" rfl), if_neg (differs "true" rfl), if_neg (differs "false" rfl),
    if_pos starts]

/-- The text of an integer is a word, which is read as the integer. -/
theorem reads_integerText (n : Int64)
    : IsWord (integerText n).toList ∧ readWord (integerText n) = .ok (.int n) := by
  obtain ⟨negative, m, -, letters⟩ := Number.toList_integerText n
  have digits : ∀ d ∈ Nat.toDigits 10 m, d.isDigit :=
    fun d member => Nat.isDigit_of_mem_toDigits (by decide) (by decide) member
  obtain ⟨d, rest, found⟩ := List.exists_cons_of_ne_nil (Nat.toDigits_ne_nil (n := m) (b := 10))
  rw [found] at letters digits
  have first : d.isDigit := digits d List.mem_cons_self
  have undelimited : Undelimited (d :: rest) :=
    fun c member => isDelimiter_of_startsWord (startsWord_of_isDigit (digits c member))
  have number : startsNumber (integerText n).toList := by
    rw [letters]
    cases negative with
    | true => exact first
    | false =>
        rw [if_neg Bool.false_ne_true, List.nil_append]
        unfold startsNumber
        split <;> simp_all
  refine ⟨?_, ?_⟩
  · rw [letters]
    cases negative with
    | true => exact (isWord_singleton (by decide)).append undelimited
    | false => exact ⟨⟨d, rfl, startsWord_of_isDigit first⟩, undelimited⟩
  · rw [readWord_of_startsNumber number, readNumber, Number.readInteger_integerText]

namespace State

variable {s : State} {mode : Mode} {frames rest : List Frame} {forms : List Value}

/-- (s.At mode frames forms) says how far a text has been read. -/
structure At (s : State) (mode : Mode) (frames : List Frame) (forms : List Value) : Prop where
  mode : s.mode = mode
  frames : s.frames = frames
  forms : s.forms = forms

/-- (s.Ends frames forms) says that a form is complete, or will be with the next delimiter,
whichever it is.
-/
structure Ends (s : State) (frames : List Frame) (forms : List Value) : Prop where
  settled : s.settle.At .between frames forms
  stops : ∀ c, isDelimiter c → s.take c = s.settle.unclaimed c

/-- The state after several characters. -/
abbrev feedAll (s : State) (chars : List Char)
    : State :=
  chars.foldl feed s

/-- A reading between tokens takes a form into its frames. -/
theorem At.deliver (at_ : s.At mode frames forms) (v : Value)
    : (s.deliver v).At .between (place v frames forms).1 (place v frames forms).2 := by
  obtain ⟨-, rfl, rfl⟩ := at_
  exact ⟨rfl, rfl, rfl⟩

/-- The place that a reading stands at makes no difference to what it is at. -/
theorem At.fed (at_ : s.At mode frames forms) (here : Location)
    : At { s with here := here } mode frames forms :=
  ⟨at_.mode, at_.frames, at_.forms⟩

/-- A reading between tokens ends with its forms. -/
theorem At.ends (at_ : s.At .between frames forms)
    : s.Ends frames forms := by
  have settled : s.settle = s := by
    unfold settle
    rw [at_.mode]
  refine ⟨settled.symm ▸ at_, fun c _ => ?_⟩
  rw [settled, take, at_.mode]

-----------------------------------------------------------------------------------------
-- Tokens
-----------------------------------------------------------------------------------------

/-- (Gathers token read) says that a kind of token takes in all characters up to a delimiter, and
what it is read as then.
-/
inductive Gathers : (List Char → Mode) → (List Char → Except ReadFault Value) → Prop where
  | word (start : Location) : Gathers (.word start) fun chars => readWord (.ofList chars)
  | keyword (start : Location) : Gathers (.keyword start) fun chars => readKeyword (.ofList chars)
  | named (start : Location) (first : Char) : Gathers (.named start first) (readCharacter first)

variable {token : List Char → Mode} {read : List Char → Except ReadFault Value}

/-- A token that gathers characters gathers an undelimited one. -/
theorem Gathers.feed (gathers : Gathers token read) {chars : List Char}
    (at_ : s.At (token chars) frames forms) {c : Char} (letter : isDelimiter c = false)
    : (s.feed c).At (token (c :: chars)) frames forms := by
  unfold State.feed take
  rw [at_.mode]
  cases gathers with
  | word | keyword | named =>
      dsimp only
      rw [letter]
      exact ⟨rfl, at_.frames, at_.forms⟩

/-- So it does with several. Witness: induction on the characters. -/
theorem Gathers.feedAll (gathers : Gathers token read) {chars more : List Char}
    (at_ : s.At (token chars) frames forms) (letters : Undelimited more)
    : (s.feedAll more).At (token (more.reverse ++ chars)) frames forms := by
  induction more generalizing s chars with
  | nil => exact at_
  | cons c rest ih =>
      obtain ⟨letter, others⟩ := List.forall_mem_cons.mp letters
      rw [List.reverse_cons, List.append_assoc]
      exact ih (gathers.feed at_ letter) others

/-- A gathered token ends with the form that it is read as. -/
theorem Gathers.ends (gathers : Gathers token read) {chars : List Char}
    (at_ : s.At (token chars) frames forms) {v : Value} (made : read chars.reverse = .ok v)
    : s.Ends (place v frames forms).1 (place v frames forms).2 := by
  have settled : s.settle = s.deliver v := by
    unfold settle
    rw [at_.mode]
    cases gathers with
    | word | keyword | named =>
        dsimp only at made ⊢
        rw [made]
        rfl
  refine ⟨settled.symm ▸ at_.deliver v, fun c delimiter => ?_⟩
  have reopened : s.settle.reopen c = s.settle.unclaimed c := by
    rw [settled]
    rfl
  unfold take
  rw [at_.mode]
  cases gathers with
  | word | keyword | named =>
      dsimp only
      rw [if_pos delimiter, reopened]

/-- A token that goes up to a delimiter is read with all its characters. -/
theorem Gathers.reads (gathers : Gathers token read) {chars more : List Char}
    (at_ : s.At (token chars) frames forms) (letters : Undelimited more) {v : Value}
    (made : read (chars.reverse ++ more) = .ok v)
    : (s.feedAll more).Ends (place v frames forms).1 (place v frames forms).2 := by
  refine gathers.ends (gathers.feedAll at_ letters) ?_
  rwa [List.reverse_append, List.reverse_reverse]

/-- Between tokens a character starts what it starts. -/
theorem At.feed_unclaimed (at_ : s.At .between frames forms) {c : Char}
    (opens : (s.unclaimed c).At mode frames forms)
    : (s.feed c).At mode frames forms := by
  have taken : s.take c = s.unclaimed c := by rw [take, at_.mode]
  unfold feed
  rw [taken]
  exact opens.fed _

/-- A word is read as what it stands for, by its first character and the others. -/
theorem At.reads_word (at_ : s.At .between frames forms) {text : String} (word : IsWord text.toList)
    {v : Value} (made : readWord text = .ok v)
    : (s.feedAll text.toList).Ends (place v frames forms).1 (place v frames forms).2 := by
  obtain ⟨⟨c, head, starts⟩, letters⟩ := word
  generalize whole : text.toList = chars at head letters ⊢
  obtain rfl : String.ofList chars = text := whole ▸ text.ofList_toList
  obtain ⟨rest, rfl⟩ : ∃ rest, chars = c :: rest := List.head?_eq_some_iff.mp head
  have opened : (s.feed c).At (.word s.here [c]) frames forms := by
    refine at_.feed_unclaimed ?_
    unfold unclaimed
    split
    · rename_i blank
      simp_all [startsWord, isDelimiter]
    · split
      case h_16 => exact ⟨rfl, at_.frames, at_.forms⟩
      all_goals exact absurd starts (by decide)
  exact (Gathers.word s.here).reads opened (List.forall_mem_cons.mp letters).2 made

/-- A keyword's text is read as the keyword. -/
theorem At.reads_keyword (at_ : s.At .between frames forms) {k : Symbol} (spelled : k.IsKeyword)
    : (s.feedAll (keywordText k).toList).Ends (place (.keyword k) frames forms).1
        (place (.keyword k) frames forms).2 := by
  obtain ⟨letters, made⟩ := spelled
  have opened : (s.feed ':').At (.keyword s.here []) frames forms :=
    at_.feed_unclaimed ⟨rfl, at_.frames, at_.forms⟩
  unfold keywordText
  rw [String.toList_append]
  refine (Gathers.keyword s.here).reads opened letters ?_
  rw [List.reverse_nil, List.nil_append, String.ofList_toList]
  exact made

/-- A character's text is read as the character, by whether it has a name. -/
theorem At.reads_char (at_ : s.At .between frames forms) (c : Char)
    : (s.feedAll (charText c).toList).Ends (place (.char c) frames forms).1
        (place (.char c) frames forms).2 := by
  have opened : (s.feed '\\').At (.character s.here) frames forms :=
    at_.feed_unclaimed ⟨rfl, at_.frames, at_.forms⟩
  have named (first : Char)
      : ((s.feed '\\').feed first).At (.named s.here first []) frames forms := by
    generalize s.feed '\\' = t at opened ⊢
    rw [feed, take, opened.mode]
    exact ⟨rfl, opened.frames, opened.forms⟩
  have spelled {first : Char} {more : List Char} (letters : Undelimited more)
      (made : readCharacter first more = .ok (.char c))
      : (s.feedAll ('\\' :: first :: more)).Ends (place (.char c) frames forms).1
          (place (.char c) frames forms).2 :=
    (Gathers.named s.here first).reads (named first) letters made
  unfold charText
  split
  · exact spelled (undelimited_iff.mpr (by decide)) rfl
  · exact spelled (undelimited_iff.mpr (by decide)) rfl
  · exact spelled (undelimited_iff.mpr (by decide)) rfl
  · rw [String.toList_ofList]
    exact spelled (List.forall_mem_nil _) rfl

/-- A quotable character that is quoted is read as that character, escaped or not. -/
theorem At.feed_quoted {start : Location} {chars : List Char}
    (at_ : s.At (.string start chars) frames forms) {c : Char} (quotable : Text.isQuotable c)
    : (s.feedAll (Text.quoteChar c)).At (.string start (c :: chars)) frames forms := by
  unfold Text.quoteChar
  cases escaped : Text.escapeLetter? c with
  | some letter =>
      have inside : (s.feed '\\').At (.escape start chars) frames forms := by
        rw [feed, take, at_.mode]
        exact ⟨rfl, at_.frames, at_.forms⟩
      change ((s.feed '\\').feed letter).At _ frames forms
      generalize s.feed '\\' = t at inside ⊢
      rw [feed, take, inside.mode]
      dsimp only
      rw [unescape?_of_escapeLetter? escaped]
      exact ⟨rfl, inside.frames, inside.forms⟩
  | none =>
      rw [Text.isQuotable, escaped, Option.isSome_none, Bool.false_or] at quotable
      dsimp only
      rw [if_pos quotable]
      change (s.feed c).At _ frames forms
      rw [feed, take, at_.mode]
      dsimp only
      split
      · cases escaped
      · cases escaped
      · exact ⟨rfl, at_.frames, at_.forms⟩

/-- So are several. Witness: induction on the characters. -/
theorem At.feedAll_quoted {start : Location} {chars done : List Char}
    (at_ : s.At (.string start done) frames forms) (quotable : chars.all Text.isQuotable)
    : (s.feedAll (chars.flatMap Text.quoteChar)).At (.string start (chars.reverse ++ done)) frames
        forms := by
  induction chars generalizing s done with
  | nil => exact at_
  | cons c rest ih =>
      rw [List.all_cons, Bool.and_eq_true] at quotable
      rw [List.flatMap_cons, feedAll, List.foldl_append, List.reverse_cons, List.append_assoc]
      exact ih (at_.feed_quoted quotable.1) quotable.2

/-- A quote opens a string. -/
theorem At.open_string (at_ : s.At .between frames forms)
    : (s.feed '\x22').At (.string s.here []) frames forms :=
  at_.feed_unclaimed ⟨rfl, at_.frames, at_.forms⟩

/-- A quoted text is its quoted characters between quotes. -/
theorem toList_quote (text : String)
    : (Text.quote text).toList = '\x22' :: (text.toList.flatMap Text.quoteChar ++ ['\x22']) :=
  String.toList_ofList

/-- A quoted text is read as the string. -/
theorem At.reads_string (at_ : s.At .between frames forms) {text : String}
    (quotable : text.toList.all Text.isQuotable)
    : (s.feedAll (Text.quote text).toList).Ends (place (.string text) frames forms).1
        (place (.string text) frames forms).2 := by
  have whole := at_.open_string.feedAll_quoted quotable
  rw [toList_quote, feedAll, List.foldl_cons, List.foldl_append]
  rw [feedAll] at whole
  generalize (text.toList.flatMap Text.quoteChar).foldl feed (s.feed '\x22') = t at whole ⊢
  change (t.feed '\x22').Ends _ _
  rw [feed, take, whole.mode]
  dsimp only
  rw [List.append_nil, List.reverse_reverse, String.ofList_toList]
  exact ((whole.deliver _).fed _).ends

-----------------------------------------------------------------------------------------
-- Code points
-----------------------------------------------------------------------------------------

/-- A failed reading stays failed. Witness: induction on the characters. -/
theorem At.feedAll_failed {e : ReadError} (at_ : s.At (.failed e) frames forms) (chars : List Char)
    : (s.feedAll chars).At (.failed e) frames forms := by
  induction chars generalizing s with
  | nil => exact at_
  | cons c rest ih =>
      refine ih ?_
      rw [feed, take, at_.mode]
      exact at_.fed _

/-- Its outcome is its error, behind the forms of before. -/
theorem At.failed_outcome {e : ReadError} (at_ : s.At (.failed e) frames forms)
    : s.finish.outcome = ⟨forms.reverse, some e⟩ := by
  have settled : s.settle = s := by
    unfold settle
    rw [at_.mode]
  have finished : s.finish = s := by
    unfold finish
    dsimp only
    rw [settled, at_.mode]
  rw [finished, State.outcome, at_.mode, at_.forms]

/-- A code point is an unknown escape, which ends the reading. -/
theorem At.feed_codePoint {start : Location} {done : List Char}
    (at_ : s.At (.string start done) frames forms) {c : Char}
    (unquotable : Text.isQuotable c = false) (more : List Char)
    : ∃ place, (s.feedAll (Text.quoteChar c ++ more)).At (.failed ⟨.unknownEscape 'u', some place⟩)
        frames forms := by
  rw [Text.isQuotable, Bool.or_eq_false_iff, Option.isSome_eq_false_iff, Option.isNone_iff_eq_none]
    at unquotable
  obtain ⟨escaped, hidden⟩ := unquotable
  have inside : (s.feed '\\').At (.escape start done) frames forms := by
    rw [feed, take, at_.mode]
    exact ⟨rfl, at_.frames, at_.forms⟩
  have failed : ((s.feed '\\').feed 'u').At
      (.failed ⟨.unknownEscape 'u', some ((s.feed '\\').here.after 'u')⟩) frames forms := by
    generalize s.feed '\\' = t at inside ⊢
    rw [feed, take, inside.mode]
    exact ⟨rfl, inside.frames, inside.forms⟩
  have letters : Text.quoteChar c
      = '\\' :: 'u' :: (['\x7b'] ++ Nat.toDigits 16 c.toNat ++ ['\x7d']) := by
    unfold Text.quoteChar
    rw [escaped]
    dsimp only
    rw [hidden]
    rfl
  rw [letters]
  exact ⟨_, failed.feedAll_failed _⟩

/-- A text that is not quotable fails at the first such character. Witness: induction on the
characters.
-/
theorem At.feedAll_unquotable {start : Location} {chars done : List Char}
    (at_ : s.At (.string start done) frames forms) (unquotable : chars.all Text.isQuotable = false)
    (more : List Char)
    : ∃ place, (s.feedAll (chars.flatMap Text.quoteChar ++ more)).At
        (.failed ⟨.unknownEscape 'u', some place⟩) frames forms := by
  induction chars generalizing s done with
  | nil => cases unquotable
  | cons c rest ih =>
      rw [List.flatMap_cons, List.append_assoc]
      cases first : Text.isQuotable c with
      | false => exact at_.feed_codePoint first _
      | true =>
          rw [List.all_cons, first, Bool.true_and] at unquotable
          rw [feedAll, List.foldl_append]
          exact ih (at_.feed_quoted first) unquotable

-----------------------------------------------------------------------------------------
-- Brackets
-----------------------------------------------------------------------------------------

/-- The characters that open a bracket. -/
def opening : Bracket → List Char
  | .round => ['(']
  | .square => ['[']
  | .curly => ['\x7b']
  | .hashed => ['#', '\x7b']

/-- An opening bracket opens its frame, by its kind. -/
theorem At.feed_opening (at_ : s.At .between frames forms) (bracket : Bracket)
    : (s.feedAll (opening bracket)).At .between (.opened bracket s.here [] :: frames) forms := by
  obtain ⟨m, f, g, here⟩ := s
  obtain ⟨rfl, rfl, rfl⟩ := at_
  cases bracket <;> exact ⟨rfl, rfl, rfl⟩

/-- A space or a comma after a form. -/
theorem Ends.feed_separator (ends : s.Ends frames forms) {c : Char} (separates : c ∈ [' ', ','])
    : (s.feed c).At .between frames forms := by
  have delimiter : isDelimiter c ∧ (Text.isBlank c || c == ',') = true := by
    rw [List.mem_cons, List.mem_singleton] at separates
    rcases separates with rfl | rfl <;> decide
  have passed : s.settle.unclaimed c = s.settle := by
    unfold unclaimed
    exact if_pos delimiter.2
  rw [feed, ends.stops c delimiter.1, passed]
  exact ends.settled.fed _

/-- A closing bracket completes the form of its items. -/
theorem Ends.feed_closing {bracket : Bracket} {start : Location} {items : List Value}
    (ends : s.Ends (.opened bracket start items :: frames) forms) {v : Value}
    (made : bracket.form s.settle.arrangement start items.reverse = .ok v)
    : (s.feed bracket.closing).At .between (place v frames forms).1 (place v frames forms).2 := by
  have closed : (s.settle.close bracket.closing).At .between (place v frames forms).1
      (place v frames forms).2 := by
    unfold close
    rw [ends.settled.frames]
    dsimp only
    rw [beq_self_eq_true, if_pos rfl, made]
    have outer : At { s.settle with frames := frames } s.settle.mode frames forms :=
      ⟨rfl, rfl, ends.settled.forms⟩
    exact outer.deliver v
  have stopped : s.take bracket.closing = s.settle.close bracket.closing := by
    rw [ends.stops _ (by cases bracket <;> decide)]
    cases bracket <;> rfl
  rw [feed, stopped]
  exact closed.fed _

-----------------------------------------------------------------------------------------
-- Forms
-----------------------------------------------------------------------------------------

/-- (v.IsReread w) says that two forms differ at most in places and in the order of their tables. -/
def IsReread (v w : Value)
    : Prop :=
  ∃ u : Value, v.Reorders u ∧ w.unplaced = u.unplaced

/-- The same of several forms, one by one. -/
def AreReread (vs ws : List Value)
    : Prop :=
  ∃ us, List.Forall₂ Value.Reorders vs us ∧ ws.map Value.unplaced = us.map Value.unplaced

/-- The same of the keys and values of several entries. -/
def EntriesReread (es fs : List (Value × Value))
    : Prop :=
  ∃ gs, List.Forall₂ Value.EntryReorders es gs ∧ fs.map unplacedEntry = gs.map unplacedEntry

/-- (Rereads s frames forms v) says that after the readable form of v a form that differs from v
only in places and in the order of tables is complete.
-/
def Rereads (s : State) (frames : List Frame) (forms : List Value) (v : Value)
    : Prop :=
  ∃ w : Value, IsReread v w
    ∧ (s.feedAll v.repr.toList).Ends (place w frames forms).1 (place w frames forms).2

/-- What stands between two brackets is read as the form between them. -/
theorem rereads_bracket {bracket : Bracket} {inner : String} {items : List Value}
    (ends
      : ((s.feedAll (opening bracket)).feedAll inner.toList).Ends
          (.opened bracket s.here (items.reverse ++ []) :: frames) forms)
    {v : Value} (made : ∀ a, ∃ w, bracket.form a s.here items = .ok w ∧ IsReread v w)
    (printed : v.repr.toList = opening bracket ++ inner.toList ++ [bracket.closing])
    : Rereads s frames forms v := by
  rw [List.append_nil] at ends
  obtain ⟨w, form, same⟩ :=
    made ((s.feedAll (opening bracket)).feedAll inner.toList).settle.arrangement
  refine ⟨w, same, ?_⟩
  rw [printed, feedAll, List.foldl_append, List.foldl_append]
  exact (ends.feed_closing (by rwa [List.reverse_reverse])).ends

/-- Entries that are flattened are paired again. Witness: induction on the entries. -/
theorem pairs_flatMap (entries : List (Value × Value))
    : Value.pairs (entries.flatMap fun e => [e.1, e.2]) = entries := by
  induction entries with
  | nil => rfl
  | cons e rest ih => exact congrArg (e :: ·) ih

/-- They have two items each. Witness: induction on the entries. -/
theorem length_flatMap_pair (entries : List (Value × Value))
    : (entries.flatMap fun e => [e.1, e.2]).length = 2 * entries.length := by
  induction entries with
  | nil => rfl
  | cons e rest ih =>
      rw [List.flatMap_cons, List.length_append, ih, List.length_cons]
      simp
      omega

/-- Two texts with a separator between them. -/
theorem feedAll_separated (s : State) (first separator second : String)
    : s.feedAll (first ++ separator ++ second).toList
      = ((s.feedAll first.toList).feedAll separator.toList).feedAll second.toList := by
  rw [String.toList_append, String.toList_append, feedAll, List.foldl_append, List.foldl_append]

/-- A literal whose text is a word is read again. -/
theorem At.rereads_literal (at_ : s.At .between frames forms) {v : Value}
    (word : IsWord v.repr.toList) (made : readWord v.repr = .ok v)
    : Rereads s frames forms v :=
  ⟨v, ⟨v, .refl v, rfl⟩, at_.reads_word word made⟩

mutual

/-- The readable form of a form is read as the form. Witness: induction on the form. -/
theorem rereads
    : ∀ v : Value, v.Readable → v.isQuotable → ∀ {s : State} {frames : List Frame}
        {forms : List Value}, s.At .between frames forms → Rereads s frames forms v
  | .nil, _, _, _, _, _, at_ =>
      at_.rereads_literal ⟨⟨_, rfl, by decide⟩, undelimited_iff.mpr (by decide)⟩ rfl
  | .bool true, _, _, _, _, _, at_ =>
      at_.rereads_literal ⟨⟨_, rfl, by decide⟩, undelimited_iff.mpr (by decide)⟩ rfl
  | .bool false, _, _, _, _, _, at_ =>
      at_.rereads_literal ⟨⟨_, rfl, by decide⟩, undelimited_iff.mpr (by decide)⟩ rfl
  | .int n, _, _, _, _, _, at_ =>
      at_.rereads_literal (reads_integerText n).1 (reads_integerText n).2
  | .symbol _, spelled, _, _, _, _, at_ => at_.rereads_literal spelled.1 spelled.2
  | .char c, _, _, _, _, _, at_ => ⟨_, ⟨_, .refl _, rfl⟩, at_.reads_char c⟩
  | .string _, _, quotable, _, _, _, at_ => ⟨_, ⟨_, .refl _, rfl⟩, at_.reads_string quotable⟩
  | .keyword _, spelled, _, _, _, _, at_ => ⟨_, ⟨_, .refl _, rfl⟩, at_.reads_keyword spelled⟩
  | .list items (some place), readable, quotable, s, _, _, at_ => by
      obtain ⟨ws, ⟨us, each, same⟩, ends⟩ :=
        allReread items readable.2 quotable (at_.feed_opening .round)
      refine rereads_bracket ends (fun _ => ⟨_, rfl, .list us (some place), ?_, ?_⟩) ?_
      · exact ⟨us, rfl, Value.allReorder_iff.mpr each⟩
      · simp [same]
      · simp [Value.repr, opening, Bracket.closing]
  | .vector items, readable, quotable, s, _, _, at_ => by
      obtain ⟨ws, ⟨us, each, same⟩, ends⟩ :=
        allReread items readable quotable (at_.feed_opening .square)
      refine rereads_bracket ends (fun _ => ⟨_, rfl, .vector us, ?_, ?_⟩) ?_
      · exact ⟨us, rfl, Value.allReorder_iff.mpr each⟩
      · simp [same]
      · simp [Value.repr, opening, Bracket.closing]
  | .map entries, readable, quotable, s, _, _, at_ => by
      obtain ⟨fs, ⟨gs, each, same⟩, ends⟩ := entriesAllReread entries readable.2 quotable
        (at_.feed_opening .curly)
      have proper := Value.Readable.proper (v := .map entries) readable
      refine rereads_bracket ends (fun a => ⟨.mapOf a fs, ?_, .mapOf a gs, ?_, ?_⟩) ?_
      · rw [Bracket.form, length_flatMap_pair, pairs_flatMap, Nat.mul_mod_right]
        rfl
      · exact Value.map_reorders proper each
      · rw [← Value.mapOf_unplaced, same, Value.mapOf_unplaced]
      · simp [Value.repr, opening, Bracket.closing]
  | .set items, readable, quotable, s, _, _, at_ => by
      obtain ⟨ws, ⟨us, each, same⟩, ends⟩ :=
        allReread items readable.2 quotable (at_.feed_opening .hashed)
      have proper := Value.Readable.proper (v := .set items) readable
      refine rereads_bracket ends (fun a => ⟨.setOf a ws, rfl, .setOf a us, ?_, ?_⟩) ?_
      · exact Value.set_reorders proper each
      · rw [← Value.setOf_unplaced, same, Value.setOf_unplaced]
      · simp [Value.repr, opening, Bracket.closing]
  | .float _, _, quotable, _, _, _, _ => absurd quotable Bool.false_ne_true
termination_by structural v => v

/-- Several readable values are read again, by the first and the others. -/
theorem allReread
    : ∀ vs : List Value, AllReadable vs → areQuotable vs → ∀ {s : State} {bracket : Bracket}
        {start : Location} {done : List Value} {frames : List Frame} {forms : List Value},
        s.At .between (.opened bracket start done :: frames) forms
        → ∃ ws : List Value, AreReread vs ws
          ∧ (s.feedAll (spaced (reprsOf vs)).toList).Ends
              (.opened bracket start (ws.reverse ++ done) :: frames) forms
  | [], _, _, _, _, _, _, _, _, at_ => ⟨[], ⟨[], .nil, rfl⟩, at_.ends⟩
  | v :: rest, readable, quotable, s, bracket, start, done, frames, forms, at_ => by
      rw [areQuotable, Bool.and_eq_true] at quotable
      obtain ⟨w, ⟨u, again, same⟩, ends⟩ := rereads v readable.1 quotable.1 at_
      have others {s : State} := @allReread rest readable.2 quotable.2 s bracket start (w :: done)
        frames forms
      cases rest with
      | nil => exact ⟨[w], ⟨[u], .cons again .nil, congrArg ([·]) same⟩, ends⟩
      | cons x more =>
          obtain ⟨ws, ⟨us, each, sames⟩, ends'⟩ :=
            others (ends.feed_separator (c := ' ') List.mem_cons_self)
          refine ⟨w :: ws, ⟨u :: us, .cons again each, congrArg₂ List.cons same sames⟩, ?_⟩
          rw [List.reverse_cons, List.append_assoc]
          rw [reprsOf, reprsOf, spaced, String.intercalate_cons_cons, feedAll_separated]
          exact ends'
termination_by structural vs => vs

/-- So are the keys and values of entries. -/
theorem entriesAllReread
    : ∀ es : List (Value × Value), EntriesReadable es → entriesAreQuotable es → ∀ {s : State}
        {bracket : Bracket} {start : Location} {done : List Value} {frames : List Frame}
        {forms : List Value}, s.At .between (.opened bracket start done :: frames) forms
        → ∃ fs : List (Value × Value), EntriesReread es fs
          ∧ (s.feedAll (", ".intercalate (reprsOfEntries es)).toList).Ends
              (.opened bracket start ((fs.flatMap fun e => [e.1, e.2]).reverse ++ done) :: frames)
              forms
  | [], _, _, _, _, _, _, _, _, at_ => ⟨[], ⟨[], .nil, rfl⟩, at_.ends⟩
  | (k, v) :: rest, readable, quotable, s, bracket, start, done, frames, forms, at_ => by
      rw [entriesAreQuotable, Bool.and_eq_true, Bool.and_eq_true] at quotable
      obtain ⟨k', ⟨l, key, keyed⟩, ends⟩ := rereads k readable.1 quotable.1.1 at_
      obtain ⟨v', ⟨w, value, valued⟩, ends⟩ := rereads v readable.2.1 quotable.1.2
        (ends.feed_separator (c := ' ') List.mem_cons_self)
      have others {s : State} := @entriesAllReread rest readable.2.2 quotable.2 s bracket start
        (v' :: k' :: done) frames forms
      have entry : unplacedEntry (k', v') = unplacedEntry (l, w) := congrArg₂ Prod.mk keyed valued
      have again : Value.EntryReorders (k, v) (l, w) := ⟨key, value⟩
      have ended : (s.feedAll (k.repr ++ " " ++ v.repr).toList).Ends
          (.opened bracket start (v' :: k' :: done) :: frames) forms := by
        rw [feedAll_separated]
        exact ends
      cases rest with
      | nil => exact ⟨[(k', v')], ⟨[(l, w)], .cons again .nil, congrArg ([·]) entry⟩, ended⟩
      | cons e more =>
          have comma := ended.feed_separator (c := ',') (List.mem_cons_of_mem _ List.mem_cons_self)
          obtain ⟨fs, ⟨gs, each, sames⟩, ends'⟩ := others
            (comma.ends.feed_separator (c := ' ') List.mem_cons_self)
          refine ⟨(k', v') :: fs,
            ⟨(l, w) :: gs, .cons again each, congrArg₂ List.cons entry sames⟩, ?_⟩
          rw [List.flatMap_cons, List.reverse_append, List.append_assoc]
          rw [reprsOfEntries, reprsOfEntries, String.intercalate_cons_cons, feedAll_separated]
          exact ends'
termination_by structural es => es

end

/-- The outcome of a text that ends with a complete form outside of all brackets. -/
theorem Ends.outcome (ends : s.Ends [] forms)
    : s.finish.outcome = ⟨forms.reverse, none⟩ := by
  have finished : s.finish = s.settle := by
    unfold finish
    dsimp only
    rw [ends.settled.mode]
    dsimp only
    rw [ends.settled.frames]
  unfold State.outcome
  rw [finished, ends.settled.mode]
  exact congrArg (Reading.mk · none) (congrArg List.reverse ends.settled.forms)

end State

/-- Printing undoes reading. A form that was read, without floats and with only quotable characters
in its strings, is read again from its readable form, wherever the two readings put the items of
tables: that text is read without a fault into one form, which differs from the first one only in
places and in the order of its tables, and equals it.
-/
theorem read_repr {a a' : Arrangement} {file text : String} {form : Value}
    (member : form ∈ (readNamed a file text).forms) (quotable : form.isQuotable)
    : ∃ again : Value, read a' form.repr = ⟨[again], none⟩ ∧ State.IsReread form again
        ∧ again == form := by
  have start : (State.start a' unnamed).At .between [] [] := ⟨rfl, rfl, rfl⟩
  obtain ⟨again, reread, ends⟩ := State.rereads form (readable_of_mem_forms member) quotable start
  refine ⟨again, ends.outcome, reread, ?_⟩
  obtain ⟨u, reordered, same⟩ := reread
  rw [← Value.beq_unplaced, same, Value.beq_unplaced]
  exact reordered.equals.2

/-- The quoted text of a string is read without a fault just if all its characters are quotable. -/
theorem read_quote_error_eq_none_iff {a : Arrangement} {text : String}
    : (read a (Value.string text).repr).error = none ↔ text.toList.all Text.isQuotable := by
  have start : (State.start a unnamed).At .between [] [] := ⟨rfl, rfl, rfl⟩
  cases quotable : text.toList.all Text.isQuotable with
  | true =>
      have outcome := (start.reads_string quotable).outcome
      exact ⟨fun _ => rfl, fun _ => congrArg Reading.error outcome⟩
  | false =>
      refine ⟨fun none => ?_, fun never => absurd never Bool.false_ne_true⟩
      obtain ⟨place, failed⟩ := start.open_string.feedAll_unquotable quotable ['\x22']
      have outcome : read a (Value.string text).repr
          = ⟨[], some ⟨.unknownEscape 'u', some place⟩⟩ := by
        unfold read readNamed
        rw [Value.repr, State.toList_quote]
        exact failed.failed_outcome
      rw [outcome] at none
      cases none

end Reader

end IncrementalLisp
