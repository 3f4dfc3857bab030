import IncrementalLisp.Proofs.Places.Relocated
import IncrementalLisp.Proofs.Reader.Reread
import IncrementalLisp.Proofs.Reader.Steps

/-! Texts below one another. A text that is read without a fault leaves nothing unfinished that the
end of its last line does not finish. So what is read of a text below it is what is read of that
text alone, at places that are as many lines below as the first text takes.
-/

namespace IncrementalLisp

/-- A fault at another place. -/
def ReadError.relocated (f : Location → Location) (e : ReadError)
    : ReadError :=
  { e with location := e.location.map f }

/-- An error that is moved nowhere is itself. -/
theorem ReadError.relocated_id
    : ReadError.relocated id = id := by
  funext e
  unfold relocated
  rw [Option.map_id]
  rfl

namespace Reader

section Following

variable (f : Location → Location) (a : Arrangement) (earlier : List Value)

/-- An unfinished form at another place. -/
def Frame.relocated : Frame → Frame
  | .opened bracket start items => .opened bracket (f start) (items.map (Value.relocated f))
  | .wrap head start => .wrap head (f start)
  | .dropNext => .dropNext
  | .needed => .needed

/-- An unfinished token at another place. -/
def Mode.relocated : Mode → Mode
  | .between => .between
  | .comment => .comment
  | .word start chars => .word (f start) chars
  | .keyword start chars => .keyword (f start) chars
  | .string start chars => .string (f start) chars
  | .escape start chars => .escape (f start) chars
  | .character start => .character (f start)
  | .named start first chars => .named (f start) first chars
  | .dispatch start => .dispatch (f start)
  | .tilde start => .tilde (f start)
  | .failed e => .failed (e.relocated f)

/-- How far a text has been read that follows earlier forms, with its places where they are then. -/
def State.following (s : State)
    : State :=
  ⟨s.mode.relocated f, s.frames.map (Frame.relocated f),
    s.forms.map (Value.relocated f) ++ earlier, f s.here, s.arrangement⟩

-----------------------------------------------------------------------------------------
-- Tokens and brackets
-----------------------------------------------------------------------------------------

/-- No token is a list, so none knows its place. -/
theorem relocated_readNumber (token : String)
    : (readNumber token).map (Value.relocated f) = readNumber token := by
  unfold readNumber
  split
  · rfl
  · split <;> rfl

/-- A word has no places to move, whatever it is read as. -/
theorem relocated_readWord (token : String)
    : (readWord token).map (Value.relocated f) = readWord token := by
  unfold readWord
  repeat' split
  all_goals first
    | exact relocated_readNumber f token
    | rfl

/-- Neither has a keyword. -/
theorem relocated_readKeyword (token : String)
    : (readKeyword token).map (Value.relocated f) = readKeyword token := by
  unfold readKeyword
  split <;> rfl

/-- Neither has a character. -/
theorem relocated_readCharacter (first : Char) (rest : List Char)
    : (readCharacter first rest).map (Value.relocated f) = readCharacter first rest := by
  unfold readCharacter
  split
  · rfl
  · split <;> rfl

/-- Brackets make moved forms of moved items, by their kind. -/
theorem Bracket.form_relocated (bracket : Bracket) (start : Location) (items : List Value)
    : bracket.form a (f start) (items.map (Value.relocated f))
      = (bracket.form a start items).map (Value.relocated f) := by
  cases bracket with
  | round => simp [form, Except.map, Value.relocated, relocatedAll_eq_map]
  | square => simp [form, Except.map, Value.relocated, relocatedAll_eq_map]
  | curly =>
      rw [form, form, List.length_map, Value.mapOf_pairs_relocated]
      split <;> rfl
  | hashed =>
      rw [form, form, Value.setOf_relocated]
      rfl

namespace State

/-- A moved form is placed into moved frames as the form is into the frames. Witness: induction on
these.
-/
theorem place_relocated (form : Value) (frames : List Frame) (forms : List Value)
    : place (form.relocated f) (frames.map (Frame.relocated f))
          (forms.map (Value.relocated f) ++ earlier)
      = ((place form frames forms).1.map (Frame.relocated f),
          (place form frames forms).2.map (Value.relocated f) ++ earlier) := by
  induction frames generalizing form with
  | nil => rfl
  | cons frame rest ih =>
      cases frame with
      | opened => rfl
      | wrap head start =>
          simp only [List.map_cons, Frame.relocated, place]
          rw [← ih]
          rfl
      | dropNext => rfl
      | needed => exact ih form

variable (s : State)

/-- A reading that follows another one is in the moved mode. -/
theorem mode_following
    : (s.following f earlier).mode = s.mode.relocated f :=
  rfl

/-- It stands at the moved place. -/
theorem here_following
    : (s.following f earlier).here = f s.here :=
  rfl

/-- It takes a moved form as the other reading takes the form. -/
theorem deliver_following (form : Value)
    : (s.following f earlier).deliver (form.relocated f)
      = (s.deliver form).following f earlier := by
  unfold deliver following
  dsimp only
  rw [place_relocated]
  rfl

/-- It finishes a token as the other reading does, with a form or an error. -/
theorem finishToken_following (start : Location) (result : Except ReadFault Value)
    : (s.following f earlier).finishToken (f start) (result.map (Value.relocated f))
      = (s.finishToken start result).following f earlier := by
  cases result with
  | ok form => exact s.deliver_following f earlier form
  | error fault => rfl

/-- So it does for a token without places. -/
theorem finishToken_placeless (start : Location) {result : Except ReadFault Value}
    (placeless : result.map (Value.relocated f) = result)
    : (s.following f earlier).finishToken (f start) result
      = (s.finishToken start result).following f earlier := by
  have finished := s.finishToken_following f earlier start result
  rwa [placeless] at finished

/-- It closes a bracket as the other reading does, by the frame that is open. -/
theorem close_following (c : Char)
    : (s.following f earlier).close c = (s.close c).following f earlier := by
  obtain ⟨mode, frames, forms, here, a⟩ := s
  rcases frames with _ | ⟨frame, rest⟩
  · rfl
  · cases frame with
    | opened bracket start items =>
        have finished := finishToken_following f earlier
          ⟨mode, rest, forms, here, a⟩ start (bracket.form a start items.reverse)
        rw [← Bracket.form_relocated, List.map_reverse] at finished
        by_cases fits : c == bracket.closing
        · have closes : close ⟨mode, .opened bracket start items :: rest, forms, here, a⟩ c
              = finishToken ⟨mode, rest, forms, here, a⟩ start (bracket.form a start items.reverse) :=
            if_pos fits
          rw [closes, ← finished]
          exact if_pos fits
        · have refuses : close ⟨mode, .opened bracket start items :: rest, forms, here, a⟩ c
              = fail ⟨mode, .opened bracket start items :: rest, forms, here, a⟩ (.unexpectedClosing c)
                  here :=
            if_neg fits
          rw [refuses]
          exact if_neg fits
    | _ => rfl

/-- It starts a form as the other reading does, by the character. -/
theorem unclaimed_following (c : Char)
    : (s.following f earlier).unclaimed c = (s.unclaimed c).following f earlier := by
  unfold unclaimed
  split
  · rfl
  · split
    all_goals first
      | exact s.close_following f earlier _
      | rfl

/-- It settles as the other reading does, by the mode. -/
theorem settle_following
    : (s.following f earlier).settle = s.settle.following f earlier := by
  obtain ⟨mode, frames, forms, here, a⟩ := s
  cases mode with
  | word start chars =>
      exact finishToken_placeless f earlier _ start (relocated_readWord f _)
  | keyword start chars =>
      exact finishToken_placeless f earlier _ start (relocated_readKeyword f _)
  | named start first chars =>
      exact finishToken_placeless f earlier _ start (relocated_readCharacter f first _)
  | _ => rfl

/-- It goes on behind a token as the other reading does. -/
theorem reopen_following (c : Char)
    : (s.following f earlier).reopen c = (s.reopen c).following f earlier := by
  have claimed := s.unclaimed_following f earlier c
  obtain ⟨mode, frames, forms, here, a⟩ := s
  cases mode with
  | between => exact claimed
  | _ => rfl

/-- The fault of an unknown escape has the place behind its letter. All other steps only look at the
place before the character.
-/
theorem take_following (c : Char)
    (along : ∀ start chars, s.mode = .escape start chars → f (s.here.after c) = (f s.here).after c)
    : (s.following f earlier).take c = (s.take c).following f earlier := by
  have settled : (s.following f earlier).settle.reopen c
      = (s.settle.reopen c).following f earlier := by
    rw [settle_following, reopen_following]
  have claimed := s.unclaimed_following f earlier c
  have quoted (chars : List Char) :=
    s.deliver_following f earlier (.string (String.ofList chars.reverse))
  obtain ⟨mode, frames, forms, here, a⟩ := s
  unfold take
  cases mode with
  | between => exact claimed
  | word | keyword | named =>
      dsimp only [mode_following, Mode.relocated]
      split
      · exact settled
      · rfl
  | tilde start =>
      dsimp only [mode_following, Mode.relocated]
      split
      · rfl
      · exact settled
  | comment =>
      dsimp only [mode_following, Mode.relocated]
      split <;> rfl
  | string start chars =>
      dsimp only [mode_following, Mode.relocated]
      split
      · exact quoted chars
      · rfl
      · rfl
  | escape start chars =>
      dsimp only [mode_following, Mode.relocated]
      split
      · rfl
      · rw [here_following, ← along start chars rfl]
        rfl
  | dispatch start =>
      dsimp only [mode_following, Mode.relocated]
      split <;> rfl
  | character | failed => rfl

variable (along : ∀ l c, f (Location.after l c) = (f l).after c)

include along in
/-- A reading that follows another one takes a character as that one does, and moves on. -/
theorem feed_following (c : Char)
    : (s.following f earlier).feed c = (s.feed c).following f earlier := by
  unfold feed
  rw [s.take_following f earlier c fun _ _ _ => along s.here c]
  unfold following
  rw [along]

include along in
/-- A text is read at other places as it is read at its own. Witness: induction on the text. -/
theorem feedAll_following (chars : List Char)
    : (s.following f earlier).feedAll chars = (s.feedAll chars).following f earlier := by
  induction chars generalizing s with
  | nil => rfl
  | cons c rest ih =>
      have next := ih (s.feed c)
      rw [← s.feed_following f earlier along] at next
      exact next

/-- A reading that follows another one finishes as that one does, by the frame that is open. -/
theorem finish_following
    : (s.following f earlier).finish = s.finish.following f earlier := by
  unfold finish
  rw [settle_following]
  obtain ⟨mode, frames, forms, here, a⟩ := s.settle
  cases mode with
  | string | escape | character | dispatch | failed => rfl
  | _ =>
      rcases frames with _ | ⟨frame, rest⟩
      · rfl
      · cases frame <;> rfl

/-- Its outcome is that of the other reading, moved, behind what was read before. -/
theorem outcome_following
    : (s.following f earlier).outcome
      = ⟨earlier.reverse ++ s.outcome.forms.map (Value.relocated f),
          s.outcome.error.map (ReadError.relocated f)⟩ := by
  obtain ⟨mode, frames, forms, here, a⟩ := s
  cases mode <;> simp [outcome, following, Mode.relocated]

end State

end Following

-----------------------------------------------------------------------------------------
-- The end of a text
-----------------------------------------------------------------------------------------

namespace State

variable {s : State} {frames : List Frame} {forms : List Value}

/-- Where a form is complete, a text ends without a fault only outside of all brackets. -/
theorem Ends.frames_eq_nil (ends : s.Ends frames forms) (complete : s.finish.outcome.error = none)
    : frames = [] := by
  obtain ⟨⟨mode, rfl, -⟩, -⟩ := ends
  unfold finish at complete
  dsimp only at complete
  rw [mode] at complete
  rcases settled : s.settle.frames with _ | ⟨frame, rest⟩
  · rfl
  · rw [settled] at complete
    cases frame <;> cases complete

/-- A token that a text ends with is read without a fault if the text is. -/
theorem Gathers.ends_of_complete {token : List Char → Mode}
    {read : List Char → Except ReadFault Value} (gathers : Gathers token read) {chars : List Char}
    (at_ : s.At (token chars) frames forms) (complete : s.finish.outcome.error = none)
    : ∃ forms, s.Ends [] forms := by
  cases made : read chars.reverse with
  | ok v =>
      have ends := gathers.ends at_ made
      exact ⟨_, ends.frames_eq_nil complete ▸ ends⟩
  | error fault =>
      obtain ⟨place, failed⟩ : ∃ place, s.settle = s.fail fault place := by
        unfold settle
        rw [at_.mode]
        cases gathers with
        | word start | keyword start | named start =>
            dsimp only at made ⊢
            rw [made]
            exact ⟨start, rfl⟩
      unfold finish at complete
      rw [failed] at complete
      cases complete

/-- A text that is read without a fault ends in a comment or with a complete form, outside of all
brackets.
-/
theorem ends_of_complete (complete : s.finish.outcome.error = none)
    : s.At .comment [] s.forms ∨ ∃ forms, s.Ends [] forms := by
  have here {mode : Mode} (same : s.mode = mode) : s.At mode s.frames s.forms := ⟨same, rfl, rfl⟩
  cases mode : s.mode with
  | between =>
      have ends := (here mode).ends
      exact .inr ⟨_, ends.frames_eq_nil complete ▸ ends⟩
  | comment =>
      obtain ⟨_, frames, forms, place⟩ := s
      obtain rfl := mode
      rcases frames with _ | ⟨frame, rest⟩
      · exact .inl ⟨rfl, rfl, rfl⟩
      · cases frame <;> cases complete
  | word start chars => exact .inr ((Gathers.word start).ends_of_complete (here mode) complete)
  | keyword start chars =>
      exact .inr ((Gathers.keyword start).ends_of_complete (here mode) complete)
  | named start first chars =>
      exact .inr ((Gathers.named start first).ends_of_complete (here mode) complete)
  | string | escape | character | dispatch | failed | tilde =>
      obtain ⟨_, frames, forms, place⟩ := s
      obtain rfl := mode
      cases complete

/-- After the end of its last line nothing of a text is unfinished. -/
theorem feed_newline_of_complete (complete : s.finish.outcome.error = none)
    : s.feed '\n'
        = ⟨.between, [], s.finish.outcome.forms.reverse, s.here.after '\n', s.arrangement⟩ := by
  rcases ends_of_complete complete with comment | ⟨forms, ends⟩
  · obtain ⟨_, _, forms, here, a⟩ := s
    obtain ⟨rfl, rfl, -⟩ := comment
    exact congrArg (State.mk .between [] · (here.after '\n') a) forms.reverse_reverse.symm
  · obtain ⟨mode, frames, rfl⟩ := ends.settled
    have blank : s.settle.unclaimed '\n' = s.settle := if_pos (by decide)
    have taken : s.take '\n' = s.settle := (ends.stops '\n' (by decide)).trans blank
    rw [ends.outcome, List.reverse_reverse]
    rw [← s.arrangement_settle]
    unfold feed
    rw [taken]
    dsimp only
    rw [mode, frames]

/-- A reading keeps its arrangement. Witness: induction on the characters. -/
theorem arrangement_feedAll (s : State) (chars : List Char)
    : (s.feedAll chars).arrangement = s.arrangement := by
  induction chars generalizing s with
  | nil => rfl
  | cons c rest ih => exact (ih (s.feed c)).trans (s.arrangement_feed c)

/-- The place below the lines of a text. -/
theorem here_below (s : State) (chars : List Char)
    : (s.feedAll chars).here.after '\n'
      = ⟨s.here.file, s.here.line + (chars.count '\n' + 1), 1⟩ := by
  induction chars generalizing s with
  | nil => rfl
  | cons c rest ih =>
      have next : (s.feedAll (c :: rest)).here.after '\n'
          = ⟨(s.here.after c).file, (s.here.after c).line + (rest.count '\n' + 1), 1⟩ :=
        ih (s.feed c)
      rw [next, Location.after]
      by_cases ends : c = '\n'
      · simp [ends, Nat.add_assoc, Nat.add_comm]
      · simp [ends]

end State

/-- Reading is compositional: below a text that is read without a fault, with the end of its last
line between them, a text is read as it is by itself, its forms after those of the first text and
all its places, also that of its fault if it has one, as many lines further down as the first text
takes. Witness: the state after the end of the line differs from the one at the start of a text in
the place and the forms read so far only.
-/
theorem readNamed_below {a : Arrangement} {file upper : String}
    (complete : (readNamed a file upper).error = none) (lower : String)
    : let place := Location.below (upper.toList.count '\n' + 1)
      readNamed a file (upper ++ "\n" ++ lower)
        = ⟨(readNamed a file upper).forms
              ++ (readNamed a file lower).forms.map (Value.relocated place),
            (readNamed a file lower).error.map (ReadError.relocated place)⟩ := by
  intro place
  let earlier := (readNamed a file upper).forms.reverse
  have above : ((State.start a file).feedAll upper.toList).feed '\n'
      = (State.start a file).following place earlier := by
    rw [State.feed_newline_of_complete complete, State.here_below, State.arrangement_feedAll]
    rfl
  have along (l : Location) (c : Char) : place (l.after c) = (place l).after c :=
    Location.below_after _ l c
  have read : (State.start a file).feedAll (upper ++ "\n" ++ lower).toList
      = ((State.start a file).feedAll lower.toList).following place earlier := by
    rw [← State.feedAll_following place earlier _ along, ← above]
    simp [State.feedAll]
  unfold readNamed
  change State.outcome (State.finish ((State.start a file).feedAll _)) = _
  rw [read, State.finish_following, State.outcome_following, List.reverse_reverse]
  rfl

/-- A text of two lines that ends in a comment with an open bracket in it, and one below it with a
bracket too many.
-/
theorem forms_below_comment
    : let upper := "(f\n x) \\a ;("
      let lower := "(g) )"
      let whole := readNamed .last "here" (upper ++ "\n" ++ lower)
      (readNamed .last "here" upper).error = none
        ∧ whole.forms.map Value.repr = ["(f x)", "\\a", "(g)"]
        ∧ whole.forms.map Value.location? = [some ⟨"here", 1, 1⟩, none, some ⟨"here", 3, 1⟩]
        ∧ whole.error = some ⟨.unexpectedClosing ')', some ⟨"here", 3, 5⟩⟩ := by
  intro upper lower whole
  have complete : (readNamed .last "here" upper).error = none := by decide +kernel
  have read := readNamed_below complete lower
  unfold whole
  rw [read]
  exact ⟨complete, by decide +kernel⟩

end Reader

end IncrementalLisp
