import IncrementalLisp.Proofs.Reader.Next

/-! Discarded forms. A discarded form leaves behind that another form must follow. If one does, then
the discarded form is invisible, at whatever depth: the text is read as it is without it, but for
the places. If the text ends there, or a bracket is closed, then this is a fault.
-/

namespace IncrementalLisp.Reader

-----------------------------------------------------------------------------------------
-- Places aside
-----------------------------------------------------------------------------------------

/-- The one place of a text without places. -/
def nowhere (_ : Location)
    : Location :=
  ⟨"", 1, 1⟩

/-- What comes next in a text, without places. -/
def Next.placeless : Next → Next
  | .ended => .ended
  | .failed e => .failed (e.relocated nowhere)
  | .read form rest here => .read (form.relocated nowhere) rest (nowhere here)

namespace State

/-- A state without places. -/
def placeless (s : State)
    : State :=
  s.following nowhere []

variable {s t : State}

section Placeless

variable (same : s.placeless = t.placeless)
include same

/-- Readings that are the same without places are in modes that are. -/
theorem mode_placeless
    : s.mode.relocated nowhere = t.mode.relocated nowhere :=
  congrArg mode same

/-- They stay so when both turn to such modes. -/
theorem placeless_turn {mode mode' : Mode}
    (alike : mode.relocated nowhere = mode'.relocated nowhere)
    : { s with mode := mode }.placeless = { t with mode := mode' }.placeless := by
  have turned := congrArg (fun u : State => { u with mode := mode.relocated nowhere }) same
  refine turned.trans ?_
  rw [alike]
  rfl

/-- They stay so with one character more, by the steps that it takes. -/
theorem placeless_take (c : Char)
    : (s.take c).placeless = (t.take c).placeless := by
  have modes := mode_placeless same
  by_cases escape : ∃ start chars, s.mode = .escape start chars
  · -- The place of its fault is not looked up, but counted on.
    obtain ⟨start, chars, mode⟩ := escape
    obtain ⟨start', mode'⟩ : ∃ start', t.mode = .escape start' chars := by
      rw [mode] at modes
      cases mode' : t.mode <;> rw [mode'] at modes <;> cases modes
      exact ⟨_, rfl⟩
    unfold take
    rw [mode, mode']
    dsimp only
    split
    · exact placeless_turn same rfl
    · exact placeless_turn same rfl
  · have plain (start : Location) (chars : List Char)
        : t.mode ≠ .escape start chars := by
      intro mode'
      rw [mode'] at modes
      cases mode : s.mode <;> rw [mode] at modes <;> cases modes
      exact escape ⟨_, _, mode⟩
    have left := s.take_following nowhere [] c fun start chars mode =>
      absurd ⟨start, chars, mode⟩ escape
    have right := t.take_following nowhere [] c fun start chars mode =>
      absurd mode (plain start chars)
    exact left.symm.trans ((congrArg (take · c) same).trans right)

/-- They stay so as both move on. -/
theorem placeless_feed (c : Char)
    : (s.feed c).placeless = (t.feed c).placeless :=
  placeless_take same c

/-- They stay so over a text. Witness: induction on its characters. -/
theorem placeless_feedAll (chars : List Char)
    : (s.feedAll chars).placeless = (t.feedAll chars).placeless := by
  induction chars generalizing s t with
  | nil => exact same
  | cons c rest ih => exact ih (placeless_feed same c)

/-- They settle to readings that are. -/
theorem placeless_settle
    : s.settle.placeless = t.settle.placeless := by
  unfold placeless at same ⊢
  rw [← settle_following, ← settle_following, same]

/-- They finish as readings that are. -/
theorem placeless_finish
    : s.finish.placeless = t.finish.placeless := by
  unfold placeless at same ⊢
  rw [← finish_following, ← finish_following, same]

/-- What is read at one place is read at another. -/
theorem outcome_placeless
    : s.outcome.forms.map Value.unplaced = t.outcome.forms.map Value.unplaced
        ∧ s.outcome.error.map (·.fault) = t.outcome.error.map (·.fault) := by
  have outcomes := congrArg outcome same
  unfold placeless at outcomes
  rw [outcome_following, outcome_following] at outcomes
  obtain ⟨forms, errors⟩ := Reading.mk.inj outcomes
  refine ⟨?_, ?_⟩
  · have unplaced := congrArg (List.map Value.unplaced) forms
    simpa [Function.comp_def, Value.unplaced_relocated] using unplaced
  · have faults := congrArg (Option.map (·.fault)) errors
    simpa [Function.comp_def, ReadError.relocated] using faults

/-- Readings that are the same without places find the same next form of a text, without places. -/
theorem found?_placeless (chars : List Char)
    : (s.found? chars).map Next.placeless = (t.found? chars).map Next.placeless := by
  have found (u : State)
      : (u.found? chars).map Next.placeless = u.placeless.found? chars := by
    obtain ⟨mode, frames, forms, here, a⟩ := u
    cases mode <;> cases forms <;> rfl
  rw [found, found, same]

/-- What comes next at one place comes next at another. Witness: induction on the text. -/
theorem next_placeless (chars : List Char)
    : (s.next chars).placeless = (t.next chars).placeless := by
  have getD (found : Option Next) (next : Next)
      : (found.getD next).placeless = (found.map Next.placeless).getD next.placeless := by
    cases found <;> rfl
  induction chars generalizing s t with
  | nil =>
      rw [next, next, getD, getD, found?_placeless (placeless_finish same)]
  | cons c rest ih =>
      rw [next, next, getD, getD, ih (placeless_feed same c)]
      split
      · rw [found?_placeless (placeless_settle same)]
      · rw [found?_placeless same]

/-- What comes next at one place ends there as it does at another. -/
theorem next_eq_read_of_placeless {chars rest : List Char} {form : Value} {here : Location}
    (read : s.next chars = .read form rest here)
    : ∃ form' there, t.next chars = .read form' rest there := by
  have alike := next_placeless same chars
  rw [read] at alike
  cases next : t.next chars <;> rw [next] at alike
  case read => exact ⟨_, _, by rw [(Next.read.inj alike).2.1]⟩
  all_goals cases alike

end Placeless

-----------------------------------------------------------------------------------------
-- Within unfinished forms
-----------------------------------------------------------------------------------------

/-- What a state outside of all forms is inside of some and behind others. Where a form is complete,
it is put where it belongs.
-/
def within (below : List Frame) (outer : List Value) (s : State)
    : State :=
  match s.forms with
  | [] => ⟨s.mode, s.frames ++ below, outer, s.here, s.arrangement⟩
  | form :: _ =>
      let placed := place form below outer
      ⟨s.mode, s.frames ++ placed.1, placed.2, s.here, s.arrangement⟩

section Within

variable {below : List Frame} {outer : List Value} (none : s.forms = [])
include none

/-- A reading without forms stands above the frames of an outer one. -/
theorem within_of_none
    : s.within below outer = ⟨s.mode, s.frames ++ below, outer, s.here, s.arrangement⟩ := by
  unfold within
  rw [none]

/-- It takes a form above them as it does alone. -/
theorem deliver_within (form : Value)
    : (s.within below outer).deliver form = (s.deliver form).within below outer := by
  rw [within_of_none none]
  unfold deliver
  rw [none]
  generalize s.frames = frames
  induction frames generalizing form with
  | nil => rfl
  | cons frame rest ih =>
      cases frame with
      | opened | dropNext => rfl
      | wrap | needed => exact ih _

/-- It finishes a token above them as it does alone. -/
theorem finishToken_within (start : Location) (result : Except ReadFault Value)
    : (s.within below outer).finishToken start result
      = (s.finishToken start result).within below outer := by
  cases result with
  | ok form => exact deliver_within none form
  | error fault =>
      unfold finishToken fail within
      rw [none]

/-- It settles above them as it does alone. -/
theorem settle_within
    : (s.within below outer).settle = s.settle.within below outer := by
  have finished := @finishToken_within s below outer none
  rw [within_of_none none] at finished ⊢
  obtain ⟨mode, frames, forms, here, a⟩ := s
  obtain rfl : forms = [] := none
  cases mode with
  | word start | keyword start | named start => exact finished start _
  | _ => rfl

/-- A closing bracket outside of all forms is a fault, and it still is where a form must follow. -/
theorem close_within {c : Char}
    (sound : below.head? = some .needed ∨ ∀ e, (s.close c).mode ≠ .failed e)
    : (s.within below outer).close c = (s.close c).within below outer := by
  rw [within_of_none none]
  obtain ⟨mode, frames, forms, here, a⟩ := s
  obtain rfl : forms = [] := none
  cases frames with
  | nil =>
      cases below with
      | nil => exact absurd rfl (sound.resolve_left nofun _)
      | cons frame rest =>
          obtain rfl := Option.some.inj (sound.resolve_right fun sound => sound _ rfl)
          rfl
  | cons frame rest =>
      rcases close_cases frame c with ⟨bracket, start, items, rfl, closes⟩ | refuses
      · rw [closes]
        exact Eq.trans (closes ..) (finishToken_within (s := ⟨mode, rest, [], here, a⟩) rfl start _)
      · rw [refuses]
        exact refuses ..

/-- A reading steps above the frames of an outer one as it does alone, unless it fails there. -/
theorem step_within {begins : Location → Prop} {step : State → State} (does : Step begins step)
    (sound : below.head? = some .needed ∨ ∀ e, (step s).mode ≠ .failed e)
    : step (s.within below outer) = (step s).within below outer := by
  cases does with
  | put form => exact deliver_within none form
  | close c => exact close_within none sound
  | turn mode => rw [within_of_none none, within_of_none (s := { s with mode := mode }) none]
  | push frame =>
      rw [within_of_none none, within_of_none (s := s.push frame) none]
      rfl

/-- So it does with one character more, by the step that the character takes. -/
theorem feed_within {c : Char} {rest : List Char} (ready : s.mode.Ready (c :: rest))
    (sound : below.head? = some .needed ∨ ∀ e, (s.feed c).mode ≠ .failed e)
    : (s.within below outer).feed c = (s.feed c).within below outer := by
  obtain ⟨step, does, same⟩ := exists_step_take ready s.here
  have alone : s.take c = step s := same s.frames s.forms s.arrangement
  have inside : (s.within below outer).take c = step (s.within below outer) := by
    rw [within_of_none none]
    exact same _ _ _
  unfold feed at sound ⊢
  rw [alone] at sound ⊢
  rw [inside, step_within none does sound, within_of_none none]
  unfold within
  dsimp only
  cases (step s).forms <;> rfl

/-- Reading inside of unfinished forms goes on behind the next form, put where it belongs. -/
theorem outcome_within {chars rest : List Char} {form : Value} {there : Location}
    (read : s.next chars = .read form rest there)
    : ((s.within below outer).feedAll chars).finish.outcome
      = (State.feedAll ⟨.between, (place form below outer).1, (place form below outer).2, there,
          s.arrangement⟩ rest).finish.outcome := by
  revert read
  refine next_induction none ?complete ?settle ?feed ?ends chars
  case complete =>
    intro a here whole chars read
    rw [next_complete] at read
    cases read
    rfl
  case settle =>
    intro s chars none stops same read
    rw [← s.arrangement_settle, ← same ((next_settle none stops).trans read), ← settle_within none]
    refine (outcome_settle ?_).symm
    rwa [within_of_none none]
  case feed =>
    intro s c others none ready same read
    rw [next_feed none ready] at read
    have sound (e : ReadError) : (s.feed c).mode ≠ .failed e := by
      intro failed
      rw [next_failed failed] at read
      cases read
    rw [← s.arrangement_feed c, ← same read, ← feed_within none ready (.inr sound)]
    rfl
  case ends =>
    intro s none settled read
    have empty : s.finish.forms = [] := by rw [forms_finish, settled, none]
    change (s.finish.found? []).getD .ended = _ at read
    generalize s.finish = t at empty read
    obtain ⟨mode, frames, forms, here, a⟩ := t
    obtain rfl : forms = [] := empty
    cases mode <;> cases read

omit none in
/-- Where a form must follow and one does, it is read as anywhere else. -/
theorem outcome_needed_of_read {a : Arrangement} {chars rest : List Char} {form : Value}
    {here there : Location} (fs : List Frame) (outer : List Value)
    (read : (fresh a here).next chars = .read form rest there)
    : (feedAll ⟨.between, .needed :: fs, outer, here, a⟩ chars).finish.outcome
      = (feedAll ⟨.between, fs, outer, here, a⟩ chars).finish.outcome := by
  have behind (below : List Frame)
      : (feedAll ⟨.between, below, outer, here, a⟩ chars).finish.outcome
        = (feedAll ⟨.between, (place form below outer).1, (place form below outer).2, there, a⟩
            rest).finish.outcome :=
    outcome_within (s := fresh a here) rfl read
  exact (behind (.needed :: fs)).trans (behind fs).symm

/-- Where a form must follow and none does, this is a fault. -/
theorem outcome_needed {chars : List Char} {fs : List Frame}
    (missing : ∀ form rest there, s.next chars ≠ .read form rest there)
    : ∃ e, ((s.within (.needed :: fs) outer).feedAll chars).finish.outcome
        = ⟨outer.reverse, some e⟩ := by
  revert missing
  refine next_induction none ?complete ?settle ?feed ?ends chars
  case complete =>
    intro a here form chars missing
    exact absurd (next_complete a here form chars) (missing _ _ _)
  case settle =>
    intro s chars none stops fails missing
    rw [← next_settle none stops] at missing
    obtain ⟨e, outcome⟩ := fails missing
    refine ⟨e, Eq.trans (outcome_settle ?_).symm ?_⟩
    · rwa [within_of_none none]
    · rwa [settle_within none]
  case feed =>
    intro s c others none ready fails missing
    rw [next_feed none ready] at missing
    obtain ⟨e, outcome⟩ := fails missing
    rw [← feed_within none ready (.inl rfl)] at outcome
    exact ⟨e, outcome⟩
  case ends =>
    intro s none settled missing
    have same : (s.within (.needed :: fs) outer).settle = s.within (.needed :: fs) outer := by
      rw [settle_within none, settled]
    change ∃ e, (s.within (.needed :: fs) outer).finish.outcome = _
    unfold finish
    rw [same, within_of_none none]
    obtain ⟨mode, frames, forms, here, a⟩ := s
    cases mode with
    | string | escape | character | dispatch | failed => exact ⟨_, rfl⟩
    | _ =>
        rcases frames with _ | ⟨frame, rest⟩
        · exact ⟨_, rfl⟩
        · cases frame <;> exact ⟨_, rfl⟩

end Within

-----------------------------------------------------------------------------------------
-- Discarded forms
-----------------------------------------------------------------------------------------

/-- A form that ends before a blank ends there whatever comes after that. -/
theorem next_before_blank {chars : List Char} {form : Value} {there : Location}
    (read : s.next (chars ++ [' ']) = .read form [' '] there) (more : List Char)
    : s.next (chars ++ ' ' :: more) = .read form (' ' :: more) there := by
  induction chars generalizing s with
  | nil =>
      rw [List.nil_append, next] at read ⊢
      rcases found?_cases (if isDelimiter ' ' then s.settle else s) with
        empty | ⟨e, failed⟩ | ⟨form, found⟩
      · rw [empty] at read
        obtain ⟨taken, whole, -⟩ := next_eq_read read
        simp at whole
      · rw [failed] at read
        cases read
      · rw [found] at read ⊢
        cases read
        rfl
  | cons c rest ih =>
      rw [List.cons_append, next] at read ⊢
      rcases found?_cases (if isDelimiter c then s.settle else s) with
        empty | ⟨e, failed⟩ | ⟨form, found⟩
      · rw [empty] at read ⊢
        exact ih read
      · rw [failed] at read
        cases read
      · rw [found] at read
        obtain ⟨-, same, -⟩ := Next.read.inj (show Next.read _ _ _ = _ from read)
        simp at same

/-- (s.Between rest) says that the rest of a text goes on with no token and no comment before it. -/
def Between (s : State) (rest : List Char)
    : Prop :=
  s.mode = .between ∨ s.mode.waits ∧ s.mode.stops rest

/-- Between tokens, to settle first makes no difference to the outcome of a text. -/
theorem Between.outcome_settle {rest : List Char} (between : s.Between rest)
    : (s.settle.feedAll rest).finish.outcome = (s.feedAll rest).finish.outcome := by
  rcases between with mode | ⟨-, stops⟩
  · rw [settle_of_not_waits (by rw [mode]; rfl)]
  · exact State.outcome_settle stops

/-- Nor does it before a delimiter. -/
theorem Between.feed_settle {rest : List Char} (between : s.Between rest) {c : Char}
    (delimiter : isDelimiter c)
    : s.settle.feed c = s.feed c := by
  rcases between with mode | -
  · rw [settle_of_not_waits (by rw [mode]; rfl)]
  · exact @State.feed_settle s c rest (s.mode.stops_of_isDelimiter delimiter rest)

/-- If the text is read without a fault, then the token that ends there is none. -/
theorem Between.mode_settle {rest : List Char} (between : s.Between rest)
    (complete : (s.feedAll rest).finish.outcome.error = none)
    : s.settle.mode = .between := by
  rcases between with mode | ⟨waits, stops⟩
  · rw [settle_of_not_waits (by rw [mode]; rfl), mode]
  · refine (mode_settle_of_waits waits).resolve_right fun ⟨e, failed⟩ => ?_
    have at_ : s.settle.At (.failed e) s.settle.frames s.settle.forms := ⟨failed, rfl, rfl⟩
    rw [← State.outcome_settle stops, (at_.feedAll_failed rest).failed_outcome] at complete
    cases complete

end State

/-- (OneForm a text) says that a text is that of one form: before a blank, it is read up to there.
-/
def OneForm (a : Arrangement) (text : List Char)
    : Prop :=
  ∃ l form there, (State.fresh a l).next (text ++ [' ']) = .read form [' '] there

/-- (FormFollows a rest) says that a form comes next in the rest of a text. -/
def FormFollows (a : Arrangement) (rest : List Char)
    : Prop :=
  ∃ l form others there, (State.fresh a l).next rest = .read form others there

/-- The characters that discard a form. -/
def discarding (text : List Char)
    : List Char :=
  ' ' :: '#' :: '_' :: text ++ [' ']

/-- Behind a discarded form, the text goes on as before, but a form must follow. -/
theorem State.outcome_discarding {s : State} {text rest : List Char} (between : s.Between rest)
    (settled : s.settle.mode = .between) (single : OneForm s.arrangement text)
    : ∃ there, (s.feedAll (discarding text ++ rest)).finish.outcome
        = (feedAll ⟨.between, .needed :: s.settle.frames, s.settle.forms, there, s.arrangement⟩
            rest).finish.outcome := by
  obtain ⟨behind, begun⟩
      : ∃ behind, s.feedAll [' ', '#', '_']
        = (fresh s.arrangement behind).within (.dropNext :: s.settle.frames) s.settle.forms := by
    change ∃ behind, ((s.feed ' ').feed '#').feed '_' = _
    rw [← between.feed_settle (by decide), ← s.arrangement_settle]
    generalize s.settle = u at settled ⊢
    obtain ⟨mode, frames, forms, here, a⟩ := u
    obtain rfl : mode = .between := settled
    exact ⟨_, rfl⟩
  obtain ⟨l, form, there, read⟩ := single
  obtain ⟨form, there, read⟩ :=
    next_eq_read_of_placeless (t := fresh s.arrangement behind) (by rfl)
      (next_before_blank read rest)
  refine ⟨there.after ' ', ?_⟩
  have split : discarding text ++ rest = [' ', '#', '_'] ++ (text ++ ' ' :: rest) := by
    simp [discarding]
  rw [split, feedAll, List.foldl_append]
  change ((s.feedAll [' ', '#', '_']).feedAll _).finish.outcome = _
  rw [begun, outcome_within rfl read]
  rfl

/-- A discarded form between two tokens of a text that is read without a fault is invisible, just if
a form follows: the text is read without a fault, and to the same forms but for the places.
-/
theorem discarded_invisible_iff {a : Arrangement} {file front rest text : String}
    (between : ((State.start a file).feedAll front.toList).Between rest.toList)
    (single : OneForm a text.toList)
    (complete : (readNamed a file (front ++ rest)).error = none)
    : let discarded := readNamed a file (front ++ " #_" ++ text ++ " " ++ rest)
      (discarded.error = none ↔ FormFollows a rest.toList)
        ∧ (FormFollows a rest.toList →
            discarded.forms.map Value.unplaced
              = (readNamed a file (front ++ rest)).forms.map Value.unplaced) := by
  intro discarded
  let s := (State.start a file).feedAll front.toList
  have arranged : s.arrangement = a := (State.start a file).arrangement_feedAll front.toList
  have plain : readNamed a file (front ++ rest) = (s.feedAll rest.toList).finish.outcome := by
    unfold readNamed
    rw [String.toList_append, List.foldl_append]
  have marked : discarded = (s.feedAll (discarding text.toList ++ rest.toList)).finish.outcome := by
    unfold discarded readNamed
    simp [String.toList_append, discarding, s, State.feedAll]
  rw [plain] at complete ⊢
  have settled := between.mode_settle complete
  obtain ⟨there, same⟩ := State.outcome_discarding between settled (arranged.symm ▸ single)
  rw [marked, same, arranged]
  by_cases follows : FormFollows a rest.toList
  · obtain ⟨l, form, others, behind, read⟩ := follows
    obtain ⟨form, behind, read⟩ :=
      State.next_eq_read_of_placeless (s := .fresh a l) (t := .fresh a there) rfl read
    have invisible := State.outcome_needed_of_read s.settle.frames s.settle.forms read
    have moved : State.placeless ⟨.between, s.settle.frames, s.settle.forms, there, a⟩
        = s.settle.placeless := by
      have known : s.settle.arrangement = a := s.arrangement_settle.trans arranged
      change s.settle.mode = .between at settled
      generalize s.settle = u at settled known ⊢
      obtain ⟨mode, frames, forms, here, arrangement⟩ := u
      obtain rfl : mode = .between := settled
      obtain rfl : arrangement = a := known
      rfl
    obtain ⟨forms, faults⟩ := State.outcome_placeless
      (State.placeless_finish (State.placeless_feedAll moved rest.toList))
    rw [between.outcome_settle] at forms faults
    rw [complete] at faults
    rw [invisible]
    exact ⟨iff_of_true (Option.map_eq_none_iff.mp faults) ⟨_, _, _, _, read⟩, fun _ => forms⟩
  · obtain ⟨e, fails⟩ :=
      State.outcome_needed (s := .fresh a there) rfl fun form others behind read =>
      follows ⟨there, form, others, behind, read⟩
    have fault : (State.feedAll ⟨.between, .needed :: s.settle.frames, s.settle.forms, there, a⟩
          rest.toList).finish.outcome = ⟨s.settle.forms.reverse, some e⟩ := fails
    rw [fault]
    exact ⟨iff_of_false nofun follows, fun now => absurd now follows⟩

example
    : (read .last "(1 #_2 3)").error = none
        ∧ (read .last "(1 #_2 )").error = some ⟨.unexpectedClosing ')', some ⟨unnamed, 1, 8⟩⟩ := by
  decide +kernel

end IncrementalLisp.Reader
