import IncrementalLisp.Proofs.Reader.Appended
import IncrementalLisp.Proofs.Reader.Steps

/-! Reading one form at a time. The next form of a text is the first that the reader completes; a
token that only a delimiter ends leaves this delimiter to the rest of the text. Every form takes at
least one character, so reading one form after the other comes to an end, and it gives what reading
the text in one run gives.
-/

namespace IncrementalLisp

/-- The place behind several characters. -/
def Location.past (l : Location) (chars : List Char)
    : Location :=
  chars.foldl after l

namespace Reader

/-- What comes next in a text: nothing, a fault, or a form, and then the rest and its place. -/
inductive Next where
  | ended
  | failed (error : ReadError)
  | read (form : Value) (rest : List Char) (here : Location)

namespace State

/-- The state at a place where nothing is unfinished and nothing has been read. -/
def fresh (a : Arrangement) (here : Location)
    : State :=
  ⟨.between, [], [], here, a⟩

/-- What a state has found before the rest of a text: its fault, or the first complete form. -/
def found? (s : State) (rest : List Char)
    : Option Next :=
  match s.mode, s.forms with
  | .failed e, _ => some (.failed e)
  | _, form :: _ => some (.read form rest s.here)
  | _, [] => none

/-- What comes next in a text that goes on with some characters. -/
def next (s : State) : List Char → Next
  | [] => (s.finish.found? []).getD .ended
  | c :: rest =>
      ((if isDelimiter c then s.settle else s).found? (c :: rest)).getD ((s.feed c).next rest)

variable {s : State} {c : Char} {rest : List Char}

-----------------------------------------------------------------------------------------
-- One form
-----------------------------------------------------------------------------------------

/-- (s.Single) says that nothing has been read yet, or one form of which nothing is unfinished. -/
def Single (s : State)
    : Prop :=
  s.forms = [] ∨ ∃ form, s = { fresh s.arrangement s.here with forms := [form] }

/-- A form is placed into a frame, or becomes one whole form. Witness: induction on the frames. -/
theorem place_nil_cases (form : Value) (frames : List Frame)
    : (place form frames []).2 = [] ∨ ∃ whole, place form frames [] = ([], [whole]) := by
  induction frames generalizing form with
  | nil => exact .inr ⟨form, rfl⟩
  | cons frame rest ih =>
      cases frame with
      | opened | dropNext => exact .inl rfl
      | wrap | needed => exact ih _

section Single

variable (none : s.forms = [])
include none

/-- A reading that takes one form completes one at most. -/
theorem single_deliver (form : Value)
    : (s.deliver form).Single := by
  unfold Single deliver
  rw [none]
  rcases place_nil_cases form s.frames with empty | ⟨whole, placed⟩
  · exact .inl empty
  · exact .inr ⟨whole, by rw [placed]; rfl⟩

/-- So does one that closes a bracket. -/
theorem single_close (c : Char)
    : (s.close c).Single := by
  obtain ⟨mode, frames, forms, here, a⟩ := s
  cases frames with
  | nil => exact .inl none
  | cons frame rest =>
      rcases close_cases frame c with ⟨bracket, start, items, rfl, closes⟩ | refuses
      · rw [closes]
        cases bracket.form a start items.reverse with
        | ok form => exact single_deliver (s := ⟨mode, rest, forms, here, a⟩) none form
        | error => exact .inl none
      · rw [refuses]
        exact .inl none

/-- A step completes at most one form. -/
theorem single_step {begins : Location → Prop} {step : State → State} (does : Step begins step)
    : (step s).Single := by
  cases does with
  | turn | push => exact .inl none
  | put form => exact single_deliver none form
  | close c => exact single_close none c

/-- A reading that settles completes one form at most. -/
theorem single_settle
    : s.settle.Single := by
  obtain ⟨step, does, same⟩ := exists_step_settle s.mode s.here
  rw [show s.settle = step s from same s.frames s.forms s.arrangement]
  exact single_step none does

/-- So does one that takes a character, by the step that it makes. -/
theorem single_feed (ready : s.mode.Ready (c :: rest))
    : (s.feed c).Single := by
  obtain ⟨step, does, same⟩ := exists_step_take ready s.here
  unfold feed
  rw [show s.take c = step s from same s.frames s.forms s.arrangement]
  rcases single_step none does with empty | ⟨form, whole⟩
  · exact .inl empty
  · refine .inr ⟨form, ?_⟩
    rw [whole]
    rfl

/-- Induction along a text until a form is complete: a token that waits is completed where it stops,
and otherwise a character is taken, up to the end of the text.
-/
@[elab_as_elim]
theorem next_induction {motive : State → List Char → Prop}
    (complete : ∀ a here form chars, motive { fresh a here with forms := [form] } chars)
    (settle : ∀ s chars, s.forms = [] → s.mode.stops chars → motive s.settle chars → motive s chars)
    (feed : ∀ s c rest, s.forms = [] → s.mode.Ready (c :: rest) → motive (s.feed c) rest →
      motive s (c :: rest))
    (ends : ∀ s, s.forms = [] → s.settle = s → motive s [])
    (chars : List Char)
    : motive s chars := by
  induction chars generalizing s with
  | nil =>
      refine settle s [] none rfl ?_
      rcases single_settle none with empty | ⟨form, whole⟩
      · exact ends s.settle empty s.settle_settle
      · rw [whole]
        exact complete _ _ form []
  | cons c rest ih =>
      have goes {t : State} (none : t.forms = []) (ready : t.mode.Ready (c :: rest))
          : motive t (c :: rest) := by
        refine feed t c rest none ready ?_
        rcases single_feed none ready with empty | ⟨form, whole⟩
        · exact ih empty
        · rw [whole]
          exact complete _ _ form rest
      cases stops : s.mode.stops (c :: rest) with
      | false => exact goes none fun _ => stops
      | true =>
          refine settle s (c :: rest) none stops ?_
          rcases single_settle none with empty | ⟨form, whole⟩
          · exact goes empty (s.ready_settle _)
          · rw [whole]
            exact complete _ _ form (c :: rest)

end Single

-----------------------------------------------------------------------------------------
-- What comes next
-----------------------------------------------------------------------------------------

/-- A failed reading has no next form. Witness: induction on the characters. -/
theorem next_failed {e : ReadError} (failed : s.mode = .failed e) (chars : List Char)
    : s.next chars = .failed e := by
  induction chars generalizing s with
  | nil =>
      have same : s.settle = s := settle_of_not_waits (by rw [failed]; rfl)
      unfold next finish
      rw [same]
      dsimp only
      rw [failed]
      dsimp only
      rw [found?, failed]
      rfl
  | cons c rest ih =>
      have same : s.settle = s := settle_of_not_waits (by rw [failed]; rfl)
      rw [next, same, ite_self, found?, failed]
      rfl

/-- Where a form is complete, it comes next. -/
theorem next_complete (a : Arrangement) (here : Location) (form : Value) (chars : List Char)
    : ({ fresh a here with forms := [form] } : State).next chars = .read form chars here := by
  cases chars with
  | nil => rfl
  | cons c rest =>
      rw [next, settle_of_not_waits (s := { fresh a here with forms := [form] }) rfl, ite_self]
      rfl

/-- A reading that has not failed and has no form has found none. -/
theorem found?_eq_none (none : s.forms = []) (sound : ∀ e, s.mode ≠ .failed e) (chars : List Char)
    : s.found? chars = Option.none := by
  unfold found?
  rw [none]
  split
  · rename_i failed
    exact absurd failed (sound _)
  · rename_i never _
    cases never
  · rfl

/-- What comes next comes after a character that completes no token. -/
theorem next_feed (none : s.forms = []) (ready : s.mode.Ready (c :: rest))
    : s.next (c :: rest) = (s.feed c).next rest := by
  by_cases failed : ∃ e, s.mode = .failed e
  · obtain ⟨e, failed⟩ := failed
    have still : (s.feed c).mode = .failed e := by
      unfold feed take
      rw [failed]
      exact failed
    rw [next_failed failed, next_failed still]
  · have sound (e : ReadError) : s.mode ≠ .failed e := fun same => failed ⟨e, same⟩
    have same : (if isDelimiter c then s.settle else s) = s := by
      split
      · rename_i delimiter
        refine settle_of_not_waits (Bool.eq_false_iff.mpr fun waits => ?_)
        cases (ready waits).symm.trans (Mode.stops_of_isDelimiter delimiter _ _)
      · rfl
    rw [next, same, found?_eq_none none sound]
    rfl

/-- What comes next after a token that waits is what comes next when it has been completed. -/
theorem next_settle (none : s.forms = []) (stops : s.mode.stops rest)
    : s.settle.next rest = s.next rest := by
  cases waits : s.mode.waits with
  | false => rw [settle_of_not_waits waits]
  | true =>
      cases rest with
      | nil => rw [next, finish_settle, next]
      | cons c rest =>
          rw [next, next, settle_settle, ite_self, feed_settle stops]
          split
          · rfl
          · rename_i letter
            -- Before a letter, only the mark of an unquoted form is complete.
            obtain ⟨mode, frames, forms, here, a⟩ := s
            cases mode with
            | word | keyword | named => exact absurd stops letter
            | tilde =>
                obtain rfl : forms = [] := none
                rfl
            | _ => cases waits

/-- What a state has found does not depend on the rest of the text, which it only goes before. -/
theorem found?_cases (s : State)
    : (∀ chars, s.found? chars = none) ∨ (∃ e, ∀ chars, s.found? chars = some (.failed e))
        ∨ ∃ form, ∀ chars, s.found? chars = some (.read form chars s.here) := by
  obtain ⟨mode, frames, forms, here, a⟩ := s
  cases mode with
  | failed e => exact .inr (.inl ⟨e, fun _ => rfl⟩)
  | _ =>
      cases forms with
      | nil => exact .inl fun _ => rfl
      | cons form => exact .inr (.inr ⟨form, fun _ => rfl⟩)

/-- To finish does not move. -/
theorem here_finish (s : State)
    : s.finish.here = s.here := by
  unfold finish
  dsimp only
  repeat' split
  all_goals exact s.here_settle

/-- What has been read is behind the characters that it took. Witness: induction on the text. -/
theorem next_eq_read {chars rest : List Char} {form : Value} {here : Location}
    (read : s.next chars = .read form rest here)
    : ∃ taken, chars = taken ++ rest ∧ here = s.here.past taken := by
  induction chars generalizing s with
  | nil =>
      unfold next at read
      rcases found?_cases s.finish with empty | ⟨e, failed⟩ | ⟨form, found⟩
      · rw [empty] at read
        cases read
      · rw [failed] at read
        cases read
      · rw [found] at read
        cases read
        exact ⟨[], rfl, s.here_finish⟩
  | cons c others ih =>
      unfold next at read
      rcases found?_cases (if isDelimiter c then s.settle else s) with
        empty | ⟨e, failed⟩ | ⟨form, found⟩
      · rw [empty] at read
        obtain ⟨taken, rfl, rfl⟩ := ih read
        exact ⟨c :: taken, rfl, rfl⟩
      · rw [failed] at read
        cases read
      · rw [found] at read
        cases read
        refine ⟨[], rfl, ?_⟩
        split
        · exact s.here_settle
        · rfl

/-- A form that is read from a place where nothing is unfinished takes at least one character. -/
theorem fresh_next_eq_read {a : Arrangement} {here there : Location} {chars rest : List Char}
    {form : Value} (read : (fresh a here).next chars = .read form rest there)
    : ∃ c taken, chars = c :: taken ++ rest ∧ there = here.past (c :: taken) := by
  cases chars with
  | nil => cases read
  | cons c others =>
      rw [next_feed rfl fun waits => by cases waits] at read
      obtain ⟨taken, rfl, rfl⟩ := next_eq_read read
      exact ⟨c, taken, rfl, rfl⟩

end State

-----------------------------------------------------------------------------------------
-- All forms
-----------------------------------------------------------------------------------------

/-- Reads one form after the other, up to so many times. There is no result unless the text ends, or
has a fault, by then.
-/
def readTimes (a : Arrangement) : Nat → Location → List Char → Option Reading
  | 0, _, _ => none
  | n + 1, here, chars =>
      match (State.fresh a here).next chars with
      | .ended => some ⟨[], none⟩
      | .failed e => some ⟨[], some e⟩
      | .read form rest there =>
          (readTimes a n there rest).map fun others => ⟨form :: others.forms, others.error⟩

/-- What is read of a text in which this comes next. -/
def Next.reading (a : Arrangement) : Next → Reading
  | .ended => ⟨[], none⟩
  | .failed e => ⟨[], some e⟩
  | .read form rest here =>
      ({ State.fresh a here with forms := [form] }.feedAll rest).finish.outcome

namespace State

variable {s : State}

/-- To finish completes what to settle does. -/
theorem forms_finish (s : State)
    : s.finish.forms = s.settle.forms := by
  unfold finish
  dsimp only
  repeat' split
  all_goals rfl

/-- To finish keeps the arrangement. -/
theorem arrangement_finish (s : State)
    : s.finish.arrangement = s.arrangement := by
  unfold finish
  dsimp only
  repeat' split
  all_goals exact s.arrangement_settle

/-- To settle first makes no difference to the outcome of a text that stops the token. -/
theorem outcome_settle {chars : List Char} (stops : s.mode.stops chars)
    : (s.settle.feedAll chars).finish.outcome = (s.feedAll chars).finish.outcome := by
  cases chars with
  | nil => exact congrArg outcome s.finish_settle
  | cons c rest => exact congrArg (fun t => (t.feedAll rest).finish.outcome) (feed_settle stops)

/-- What is read of a text begins with what comes next. -/
theorem outcome_feedAll (none : s.forms = []) (chars : List Char)
    : (s.feedAll chars).finish.outcome = (s.next chars).reading s.arrangement := by
  refine next_induction none ?complete ?settle ?feed ?ends chars
  case complete =>
    intro a here form chars
    rw [next_complete]
    rfl
  case settle =>
    intro s chars none stops same
    rw [← outcome_settle stops, ← next_settle none stops, same, arrangement_settle]
  case feed =>
    intro s c rest none ready same
    rw [next_feed none ready, ← s.arrangement_feed c, ← same]
    rfl
  case ends =>
    intro s none settled
    have empty : s.finish.forms = [] := by rw [forms_finish, settled, none]
    have arranged : s.finish.arrangement = s.arrangement := s.arrangement_finish
    change s.finish.outcome = ((s.finish.found? []).getD .ended).reading s.arrangement
    rw [← arranged]
    clear arranged
    generalize s.finish = t at empty ⊢
    obtain ⟨mode, frames, forms, here, a⟩ := t
    obtain rfl : forms = [] := empty
    cases mode <;> rfl

/-- What is read behind earlier forms is what is read without them. -/
theorem outcome_behind (earlier : List Value) (a : Arrangement) (here : Location)
    (chars : List Char)
    : ({ fresh a here with forms := earlier }.feedAll chars).finish.outcome
      = ⟨earlier.reverse ++ ((fresh a here).feedAll chars).finish.outcome.forms,
          ((fresh a here).feedAll chars).finish.outcome.error⟩ := by
  have read := outcome_following id earlier ((fresh a here).feedAll chars).finish
  rw [← finish_following, ← feedAll_following id earlier _ fun _ _ => rfl] at read
  rw [Value.relocated_id, ReadError.relocated_id, List.map_id, Option.map_id] at read
  exact read

end State

/-- Reading one form after the other comes to an end, because every form takes a character, and it
gives what one run reads. Witness: induction along the forms.
-/
theorem readTimes_eq_outcome {n : Nat} {chars : List Char} (enough : chars.length < n)
    (a : Arrangement) (here : Location)
    : readTimes a n here chars = some ((State.fresh a here).feedAll chars).finish.outcome := by
  induction n generalizing chars here with
  | zero => cases enough
  | succ n ih =>
      rw [State.outcome_feedAll rfl, readTimes]
      cases found : (State.fresh a here).next chars with
      | ended | failed => rfl
      | read form rest there =>
          obtain ⟨c, taken, rfl, -⟩ := State.fresh_next_eq_read found
          have shorter : rest.length < n := by
            simp at enough
            omega
          dsimp only [Next.reading]
          rw [ih shorter there, State.outcome_behind [form]]
          rfl

/-- What is read of a text are the forms that are read one after the other. -/
theorem readTimes_eq_readNamed (a : Arrangement) (file text : String)
    : readTimes a (text.length + 1) ⟨file, 1, 1⟩ text.toList = some (readNamed a file text) := by
  rw [← String.length_toList]
  exact readTimes_eq_outcome (Nat.lt_succ_self _) a ⟨file, 1, 1⟩

end Reader

end IncrementalLisp
