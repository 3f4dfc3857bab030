import IncrementalLisp.Proofs.Value.Equality
import IncrementalLisp.Reader

/-! The steps of the reader. A token either is complete with its last character, or it waits for
what follows to show that it is. Completing a token that waits, and taking a character when there is
none to complete, is one step each: another unfinished token, one more unfinished form, a complete
form without lists, or the end of a bracket. The unfinished forms around have no say in which of
these it is.
-/

namespace IncrementalLisp

namespace Value

mutual

/-- The lists in a form, at any depth, the form itself among them. -/
def lists : Value → List Value
  | .list items source => .list items source :: listsOfAll items
  | .vector items => listsOfAll items
  | .map entries => listsOfEntries entries
  | .set items => listsOfAll items
  | _ => []
termination_by structural v => v

/-- The lists in several forms. -/
def listsOfAll : List Value → List Value
  | [] => []
  | v :: rest => v.lists ++ listsOfAll rest
termination_by structural vs => vs

/-- The lists in the keys and values of several entries. -/
def listsOfEntries : List (Value × Value) → List Value
  | [] => []
  | (k, v) :: rest => k.lists ++ v.lists ++ listsOfEntries rest
termination_by structural es => es

end

end Value

namespace Reader

-----------------------------------------------------------------------------------------
-- Tokens
-----------------------------------------------------------------------------------------

/-- A number that is read has no lists. -/
theorem lists_of_readNumber {token : String} {v : Value} (read : readNumber token = .ok v)
    : v.lists = [] := by
  unfold readNumber at read
  split at read
  · cases read
    rfl
  · split at read <;> cases read
    rfl

/-- Neither has a word, whatever it is read as. -/
theorem lists_of_readWord {token : String} {v : Value} (read : readWord token = .ok v)
    : v.lists = [] := by
  unfold readWord at read
  repeat' split at read
  all_goals first
    | exact lists_of_readNumber read
    | (cases read; rfl)

/-- Neither has a keyword. -/
theorem lists_of_readKeyword {token : String} {v : Value} (read : readKeyword token = .ok v)
    : v.lists = [] := by
  unfold readKeyword at read
  split at read <;> cases read
  rfl

/-- Neither has a character. -/
theorem lists_of_readCharacter {first : Char} {rest : List Char} {v : Value}
    (read : readCharacter first rest = .ok v)
    : v.lists = [] := by
  unfold readCharacter at read
  split at read
  · cases read
    rfl
  · split at read <;> cases read <;> rfl

/-- Whether only what follows shows that a token is complete. -/
def Mode.waits : Mode → Bool
  | .word _ _ | .keyword _ _ | .named _ _ _ | .tilde _ => true
  | _ => false

/-- Whether a token that waits is complete before the rest of a text. -/
def Mode.stops (mode : Mode) : List Char → Bool
  | [] => true
  | c :: _ =>
      match mode with
      | .tilde _ => c != '@'
      | _ => isDelimiter c

/-- A delimiter stops every token, by the mode. -/
theorem Mode.stops_of_isDelimiter {c : Char} (delimiter : isDelimiter c) (mode : Mode)
    (rest : List Char)
    : mode.stops (c :: rest) := by
  cases mode with
  | tilde =>
      refine bne_iff_ne.mpr ?_
      rintro rfl
      cases delimiter
  | _ => exact delimiter

/-- (mode.Ready rest) says that no token that waits is complete before the rest of a text. -/
abbrev Mode.Ready (mode : Mode) (rest : List Char)
    : Prop :=
  mode.waits → mode.stops rest = false

-----------------------------------------------------------------------------------------
-- Steps
-----------------------------------------------------------------------------------------

/-- The characters with which a list begins. -/
def beginners : List Char := ['(', '\x27', '\x60', '~']

/-- The place where a list begins whose end is still to come. -/
def Frame.start? : Frame → Option Location
  | .opened .round start _ => some start
  | .wrap _ start => some start
  | _ => none

/-- The items of an open bracket so far. -/
def Frame.items : Frame → List Value
  | .opened _ _ items => items
  | _ => []

/-- (Step begins step) says what a step of the reader does, where lists begin at certain places. -/
inductive Step (begins : Location → Prop) : (State → State) → Prop where
  | turn (mode : Mode) (marks : ∀ l, mode = .tilde l → begins l)
      : Step begins fun s => { s with mode := mode }
  | push (frame : Frame) (empty : frame.items = []) (marks : ∀ l, frame.start? = some l → begins l)
      : Step begins fun s => s.push frame
  | put (form : Value) (plain : form.lists = [])
      : Step begins fun s => s.deliver form
  | close (c : Char)
      : Step begins fun s => s.close c

namespace State

/-- To complete a token is a step. Only the mark of an unquoted form begins a list. -/
theorem exists_step_settle (mode : Mode) (here : Location)
    : ∃ step, Step (fun l => mode = .tilde l) step
        ∧ ∀ frames forms a,
          settle ⟨mode, frames, forms, here, a⟩ = step ⟨mode, frames, forms, here, a⟩ := by
  have finished (start : Location) {result : Except ReadFault Value}
      (plain : ∀ v, result = .ok v → v.lists = [])
      : ∃ step, Step (fun l => mode = .tilde l) step
          ∧ ∀ frames forms a,
            finishToken ⟨mode, frames, forms, here, a⟩ start result
              = step ⟨mode, frames, forms, here, a⟩ := by
    cases result with
    | ok form => exact ⟨_, .put form (plain form rfl), fun _ _ _ => rfl⟩
    | error fault => exact ⟨_, .turn (.failed ⟨fault, some start⟩) nofun, fun _ _ _ => rfl⟩
  cases mode with
  | word start chars => exact finished start fun v => lists_of_readWord
  | keyword start chars => exact finished start fun v => lists_of_readKeyword
  | named start first chars => exact finished start fun v => lists_of_readCharacter
  | tilde start =>
      refine ⟨_, .push (.wrap "unquote" start) rfl fun l at_ => ?_, fun _ _ _ => rfl⟩
      exact congrArg Mode.tilde (Option.some.inj at_)
  | between | comment | string | escape | character | dispatch | failed =>
      refine ⟨_, .turn _ fun l marked => ?_, fun _ _ _ => rfl⟩
      cases marked

/-- Between tokens, every character is a step, and a list begins with one of four. -/
theorem exists_step_unclaimed (here : Location) (c : Char)
    : ∃ step, Step (fun l => c ∈ beginners ∧ l = here) step
        ∧ ∀ frames forms a,
          unclaimed ⟨.between, frames, forms, here, a⟩ c
            = step ⟨.between, frames, forms, here, a⟩ := by
  have here_of {l : Location} (same : some here = some l)
      : l = here := (Option.some.inj same).symm
  unfold unclaimed
  dsimp only
  split
  · exact ⟨_, .turn .between nofun, fun _ _ _ => rfl⟩
  · split
    -- A quoting character, an opening bracket of a list, and the mark of an unquoted form.
    case h_9 | h_10 =>
      exact ⟨_, .push (.wrap _ here) rfl fun l at_ => ⟨by decide, here_of at_⟩, fun _ _ _ => rfl⟩
    case h_2 =>
      exact ⟨_, .push (.opened .round here []) rfl fun l at_ => ⟨by decide, here_of at_⟩,
        fun _ _ _ => rfl⟩
    case h_11 =>
      refine ⟨_, .turn (.tilde here) fun l marked => ⟨by decide, ?_⟩, fun _ _ _ => rfl⟩
      cases marked
      rfl
    all_goals first
      | exact ⟨_, .close _, fun _ _ _ => rfl⟩
      | exact ⟨_, .push .dropNext rfl nofun, fun _ _ _ => rfl⟩
      | (refine ⟨_, .turn _ ?_, fun _ _ _ => rfl⟩; nofun)
      | (refine ⟨_, .push (.opened _ here []) rfl ?_, fun _ _ _ => rfl⟩; nofun)

/-- To take a character when there is no token to complete is a step. Between tokens, a list begins
with one of four characters.
-/
theorem exists_step_take {mode : Mode} {c : Char} {rest : List Char}
    (ready : mode.Ready (c :: rest)) (here : Location)
    : ∃ step, Step (fun l => mode = .between ∧ c ∈ beginners ∧ l = here) step
        ∧ ∀ frames forms a,
          take ⟨mode, frames, forms, here, a⟩ c = step ⟨mode, frames, forms, here, a⟩ := by
  unfold take
  cases mode with
  | between =>
      obtain ⟨step, does, same⟩ := exists_step_unclaimed here c
      exact ⟨step, by simpa using does, same⟩
  | word | keyword | named =>
      have letter : isDelimiter c = false := ready rfl
      simp only [letter]
      refine ⟨_, .turn _ ?_, fun _ _ _ => rfl⟩
      nofun
  | tilde start =>
      have spliced : (c != '@') = false := ready rfl
      have marked : (c == '@') = true := by simpa using spliced
      simp only [marked]
      exact ⟨_, .turn (.failed ⟨.splicing, some start⟩) nofun, fun _ _ _ => rfl⟩
  | comment =>
      dsimp only
      split
      · exact ⟨_, .turn .between nofun, fun _ _ _ => rfl⟩
      · exact ⟨_, .turn .comment nofun, fun _ _ _ => rfl⟩
  | string start chars =>
      dsimp only
      split
      · exact ⟨_, .put _ rfl, fun _ _ _ => rfl⟩
      · exact ⟨_, .turn (.escape start chars) nofun, fun _ _ _ => rfl⟩
      · exact ⟨_, .turn (.string start (c :: chars)) nofun, fun _ _ _ => rfl⟩
  | escape start chars =>
      dsimp only
      split
      · rename_i meant known
        exact ⟨_, .turn (.string start (meant :: chars)) nofun, fun _ _ _ => rfl⟩
      · exact ⟨_, .turn (.failed ⟨.unknownEscape c, some (here.after c)⟩) nofun, fun _ _ _ => rfl⟩
  | character start => exact ⟨_, .turn (.named start c []) nofun, fun _ _ _ => rfl⟩
  | dispatch start =>
      dsimp only
      split
      · exact ⟨_, .push (.opened .hashed start []) rfl nofun, fun _ _ _ => rfl⟩
      · exact ⟨_, .push .dropNext rfl nofun, fun _ _ _ => rfl⟩
      · exact ⟨_, .turn (.failed ⟨.unknownDispatch (some c), some start⟩) nofun, fun _ _ _ => rfl⟩
  | failed e => exact ⟨_, .turn (.failed e) nofun, fun _ _ _ => rfl⟩

/-- A closing bracket ends the innermost unfinished form, or it does not fit and is a fault. -/
theorem close_cases (frame : Frame) (c : Char)
    : (∃ bracket start items, frame = .opened bracket start items
          ∧ ∀ mode frames forms here a,
            close ⟨mode, frame :: frames, forms, here, a⟩ c
              = finishToken ⟨mode, frames, forms, here, a⟩ start (bracket.form a start items.reverse))
        ∨ ∀ mode frames forms here a,
          close ⟨mode, frame :: frames, forms, here, a⟩ c
            = fail ⟨mode, frame :: frames, forms, here, a⟩ (.unexpectedClosing c) here := by
  cases frame with
  | opened bracket start items =>
      by_cases fits : c == bracket.closing
      · exact .inl ⟨bracket, start, items, rfl, fun _ _ _ _ _ => if_pos fits⟩
      · exact .inr fun _ _ _ _ _ => if_neg fits
  | wrap | dropNext | needed => exact .inr fun _ _ _ _ _ => rfl

-----------------------------------------------------------------------------------------
-- Waiting tokens
-----------------------------------------------------------------------------------------

variable {s : State} {c : Char} {rest : List Char}

/-- A reading that does not wait has settled. -/
theorem settle_of_not_waits (ready : s.mode.waits = false)
    : s.settle = s := by
  unfold settle
  split <;> rename_i mode <;> first
    | rfl
    | (rw [mode] at ready; cases ready)

/-- A settled reading does not wait. -/
theorem waits_settle (s : State)
    : s.settle.mode.waits = false := by
  have finished (start : Location) (result : Except ReadFault Value)
      : (s.finishToken start result).mode.waits = false := by cases result <;> rfl
  obtain ⟨mode, frames, forms, here, a⟩ := s
  cases mode with
  | word start | keyword start | named start => exact finished start _
  | _ => rfl

/-- A settled reading is ready for any text. -/
theorem ready_settle (s : State) (rest : List Char)
    : s.settle.mode.Ready rest :=
  fun waits => absurd waits (by simp [s.waits_settle])

/-- To settle does not move. -/
theorem here_settle (s : State)
    : s.settle.here = s.here := by
  have finished (start : Location) (result : Except ReadFault Value)
      : (s.finishToken start result).here = s.here := by cases result <;> rfl
  obtain ⟨mode, frames, forms, here, a⟩ := s
  cases mode with
  | word start | keyword start | named start => exact finished start _
  | _ => rfl

/-- To settle twice is to settle once. -/
theorem settle_settle (s : State)
    : s.settle.settle = s.settle :=
  settle_of_not_waits s.waits_settle

/-- To settle and then finish is to finish. -/
theorem finish_settle (s : State)
    : s.settle.finish = s.finish := by
  unfold finish
  rw [settle_settle]

/-- A token that waited has become a form or a fault. -/
theorem mode_settle_of_waits (waits : s.mode.waits)
    : s.settle.mode = .between ∨ ∃ e, s.settle.mode = .failed e := by
  have finished (start : Location) (result : Except ReadFault Value)
      : (s.finishToken start result).mode = .between
          ∨ ∃ e, (s.finishToken start result).mode = .failed e := by
    cases result with
    | ok => exact .inl rfl
    | error => exact .inr ⟨_, rfl⟩
  obtain ⟨mode, frames, forms, here, a⟩ := s
  cases mode with
  | word start | keyword start | named start => exact finished start _
  | tilde => exact .inl rfl
  | _ => cases waits

/-- A character behind a token that waits is read as if the token had been completed before. -/
theorem feed_settle (stops : s.mode.stops (c :: rest))
    : s.settle.feed c = s.feed c := by
  cases waits : s.mode.waits with
  | false => rw [settle_of_not_waits waits]
  | true =>
      have taken : s.take c = s.settle.reopen c := by
        obtain ⟨mode, frames, forms, here, a⟩ := s
        cases mode with
        | word | keyword | named => exact if_pos stops
        | tilde => exact if_neg (by simpa [Mode.stops] using stops)
        | _ => cases waits
      have again : s.settle.take c = s.settle.reopen c := by
        unfold take reopen
        rcases mode_settle_of_waits waits with settled | ⟨e, settled⟩ <;> rw [settled]
      unfold feed
      rw [again, taken, here_settle]

-----------------------------------------------------------------------------------------
-- The arrangement of tables
-----------------------------------------------------------------------------------------

/-- A step keeps the arrangement, by its kind. -/
theorem arrangement_step {begins : Location → Prop} {step : State → State}
    (does : Step begins step) (s : State)
    : (step s).arrangement = s.arrangement := by
  cases does with
  | turn | push | put => rfl
  | close c =>
      obtain ⟨mode, frames, forms, here, a⟩ := s
      rcases frames with _ | ⟨frame, frames⟩
      · rfl
      · rcases close_cases frame c with ⟨bracket, start, items, -, closes⟩ | refuses
        · dsimp only
          rw [closes]
          cases bracket.form a start items.reverse <;> rfl
        · dsimp only
          rw [refuses]
          rfl

/-- So does settling. -/
theorem arrangement_settle (s : State)
    : s.settle.arrangement = s.arrangement := by
  obtain ⟨step, does, same⟩ := exists_step_settle s.mode s.here
  exact (congrArg State.arrangement (same s.frames s.forms s.arrangement)).trans
    (arrangement_step does s)

/-- No character changes how the tables of a text are arranged. Witness: it is at most two steps,
the completion of a token and one that takes the character.
-/
theorem arrangement_feed (s : State) (c : Char)
    : (s.feed c).arrangement = s.arrangement := by
  have taken {s : State} (ready : s.mode.Ready [c]) : (s.feed c).arrangement = s.arrangement := by
    obtain ⟨step, does, same⟩ := exists_step_take ready s.here
    exact (congrArg State.arrangement (same s.frames s.forms s.arrangement)).trans
      (arrangement_step does s)
  cases stops : s.mode.stops [c] with
  | true => rw [← feed_settle stops, taken (s.ready_settle [c]), s.arrangement_settle]
  | false => exact taken fun _ => stops

end State

end Reader

end IncrementalLisp
