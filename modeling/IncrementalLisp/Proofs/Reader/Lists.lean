import IncrementalLisp.Proofs.Reader.Next

/-! The places of lists. Each list in a form that is read, at any depth, has the place of its first
character, and read alone from there on it comes out as the same list. The reader gets to its end by
the same steps within the forms around it as without them; so with the innermost of its unfinished
forms alone, it is always where a reader is that began at the outermost of these.
-/

namespace IncrementalLisp

/-- The place behind the beginning of a text. Its line is the number of line ends in there, its
column that of the characters behind the last of them, both counted from one.
-/
def Location.behind (file : String) (before : List Char)
    : Location :=
  ⟨file, 1 + before.count '\n', 1 + (before.reverse.takeWhile (· != '\n')).length⟩

/-- The place behind a text and one more character is the next place, by whether it ends a line. -/
theorem Location.behind_concat (file : String) (before : List Char) (c : Char)
    : behind file (before ++ [c]) = (behind file before).after c := by
  unfold behind after
  by_cases newline : c = '\n'
  · simp [newline, Nat.add_assoc]
  · simp [newline, Nat.add_assoc]

-----------------------------------------------------------------------------------------
-- Lists in forms
-----------------------------------------------------------------------------------------

section Placed

variable {P : Location → Value → Prop}

/-- The lists in several values are those in each of them. Witness: induction on the values. -/
theorem Value.mem_listsOfAll {list : Value} {vs : List Value}
    : list ∈ listsOfAll vs ↔ ∃ v ∈ vs, list ∈ v.lists := by
  induction vs with
  | nil => simp [listsOfAll]
  | cons v rest ih => simp [listsOfAll, ih]

/-- The lists in entries are those in the keys and values. Witness: induction on the entries. -/
theorem Value.mem_listsOfEntries {list : Value} {es : List (Value × Value)}
    : list ∈ listsOfEntries es ↔ ∃ e ∈ es, list ∈ e.1.lists ∨ list ∈ e.2.lists := by
  induction es with
  | nil => simp [listsOfEntries]
  | cons e rest ih => simp [listsOfEntries, ih, or_assoc]

/-- (v.Placed P) says that every list in a form has a place, with a property. -/
def Value.Placed (P : Location → Value → Prop) (v : Value)
    : Prop :=
  ∀ list ∈ v.lists, ∃ l, list.location? = some l ∧ P l list

/-- A value without lists has all of its lists placed. -/
theorem Value.placed_of_lists {v : Value} (plain : v.lists = [])
    : v.Placed P := by
  intro list member
  rw [plain] at member
  cases member

/-- A list has all of its lists placed if it is placed itself and its items have theirs. -/
theorem Value.placed_list {items : List Value} {l : Location} (whole : P l (.list items (some l)))
    (each : ∀ item ∈ items, item.Placed P)
    : (Value.list items (some l)).Placed P := by
  intro list member
  rcases List.mem_cons.mp member with rfl | member
  · exact ⟨l, rfl, whole⟩
  · obtain ⟨item, listed, member⟩ := mem_listsOfAll.mp member
    exact each item listed list member

/-- The keys and values of alternating items are among these, by the recursion of pairs. -/
theorem Value.mem_of_mem_pairs {items : List Value} {e : Value × Value}
    (member : e ∈ Value.pairs items)
    : e.1 ∈ items ∧ e.2 ∈ items := by
  induction items using Value.pairs.induct with
  | case1 x y rest ih =>
      rcases List.mem_cons.mp member with rfl | member
      · simp
      · simp [ih member]
  | case2 items short =>
      rw [Value.pairs] at member
      · cases member
      · exact short

namespace Reader

/-- A form of brackets has its lists placed if its items do and the form itself does, if it is a
list.
-/
theorem Bracket.placed_of_form {a : Arrangement} {bracket : Bracket} {start : Location}
    {items : List Value} {v : Value} (made : bracket.form a start items = .ok v)
    (whole : bracket = .round → P start v) (each : ∀ item ∈ items, item.Placed P)
    : v.Placed P := by
  intro list member
  cases bracket with
  | round =>
      cases made
      exact Value.placed_list (whole rfl) each list member
  | square =>
      cases made
      obtain ⟨item, listed, member⟩ := Value.mem_listsOfAll.mp member
      exact each item listed list member
  | curly =>
      dsimp only [Bracket.form] at made
      split at made <;> cases made
      obtain ⟨e, entered, member⟩ := Value.mem_listsOfEntries.mp member
      obtain ⟨key, value⟩ := Value.mem_of_mem_pairs (Value.mem_distinctEntries entered)
      rcases member with member | member
      · exact each e.1 key list member
      · exact each e.2 value list member
  | hashed =>
      cases made
      obtain ⟨item, listed, member⟩ := Value.mem_listsOfAll.mp member
      exact each item (Value.mem_distinct listed) list member

-----------------------------------------------------------------------------------------
-- The innermost unfinished forms
-----------------------------------------------------------------------------------------

/-- The place where the outermost of several unfinished forms begins, if it is a list. -/
def outermost? (frames : List Frame)
    : Option Location :=
  frames.getLast?.bind Frame.start?

/-- The outermost frame stays the same under one more frame. -/
theorem outermost?_cons {frames : List Frame} {l : Location} (begun : outermost? frames = some l)
    (frame : Frame)
    : outermost? (frame :: frames) = some l := by
  cases frames with
  | nil => cases begun
  | cons => exact begun

namespace State

/-- The state of a reader with some unfinished forms instead of its own, and nothing complete. -/
def inner (s : State) (frames : List Frame)
    : State :=
  ⟨s.mode, frames, [], s.here, s.arrangement⟩

/-- The place where the outermost unfinished form begins, if it is a list. -/
def begun? (s : State)
    : Option Location :=
  match s.frames, s.mode with
  | [], .tilde l => some l
  | frames, _ => outermost? frames

variable {s : State} {fs below : List Frame} {l : Location}

/-- A reading with an outermost frame began where that frame did. -/
theorem begun?_of_outermost? (begun : outermost? s.frames = some l)
    : s.begun? = some l := by
  obtain ⟨mode, frames, forms, here, a⟩ := s
  cases frames with
  | nil => cases begun
  | cons => exact begun

/-- A form that becomes part of an unfinished one does so without the forms around that. -/
theorem exists_place_inner {form : Value} {frames : List Frame} {forms : List Value}
    (placed : (place form frames forms).1 = fs ++ below) (begun : outermost? fs = some l)
    : ∃ pre, frames = pre ++ below ∧ place form pre [] = (fs, []) ∧ outermost? pre = some l := by
  obtain ⟨frame, inside, rfl⟩ : ∃ frame inside, fs = frame :: inside := by
    cases fs with
    | nil => cases begun
    | cons frame inside => exact ⟨frame, inside, rfl⟩
  induction frames generalizing form with
  | nil => cases placed
  | cons outer rest ih =>
      cases outer with
      | opened bracket start items =>
          obtain ⟨rfl, rfl⟩ := List.cons_eq_cons.mp placed
          refine ⟨.opened bracket start items :: inside, rfl, rfl, ?_⟩
          cases inside with
          | nil => cases bracket <;> exact begun
          | cons => exact begun
      | wrap head start =>
          obtain ⟨pre, rfl, same, out⟩ := ih placed
          exact ⟨.wrap head start :: pre, rfl, same, outermost?_cons out _⟩
      | dropNext =>
          obtain ⟨rfl, rfl⟩ := List.cons_eq_cons.mp placed
          refine ⟨.dropNext :: inside, rfl, rfl, ?_⟩
          cases inside with
          | nil => cases begun
          | cons => exact begun
      | needed =>
          obtain ⟨pre, rfl, same, out⟩ := ih placed
          exact ⟨.needed :: pre, rfl, same, outermost?_cons out _⟩

/-- A reading that takes a form above some frames took it above them before. -/
theorem exists_deliver_inner {form : Value} (frames : (s.deliver form).frames = fs ++ below)
    (begun : ((s.deliver form).inner fs).begun? = some l)
    : ∃ pre, s.frames = pre ++ below ∧ (s.inner pre).deliver form = (s.deliver form).inner fs
        ∧ outermost? pre = some l := by
  have out : outermost? fs = some l := by
    cases fs with
    | nil => cases begun
    | cons => exact begun
  obtain ⟨pre, same, placed, out⟩ := exists_place_inner frames out
  refine ⟨pre, same, ?_, out⟩
  unfold deliver inner
  rw [placed]

/-- So it is with a reading that closes a bracket. -/
theorem exists_close_inner {c : Char} (frames : (s.close c).frames = fs ++ below)
    (begun : ((s.close c).inner fs).begun? = some l)
    : ∃ pre, s.frames = pre ++ below ∧ (s.inner pre).close c = (s.close c).inner fs
        ∧ outermost? pre = some l := by
  obtain ⟨mode, outer, forms, here, a⟩ := s
  cases outer with
  | nil =>
      obtain ⟨rfl, rfl⟩ := List.append_eq_nil_iff.mp (show fs ++ below = [] from frames.symm)
      cases begun
  | cons frame rest =>
      rcases close_cases frame c with ⟨bracket, start, items, rfl, closes⟩ | refuses
      · unfold inner at begun ⊢
        rw [closes] at frames begun ⊢
        cases made : bracket.form a start items.reverse with
        | ok form =>
            rw [made] at frames begun
            obtain ⟨pre, rfl, alike, out⟩ :=
              exists_deliver_inner (s := ⟨mode, rest, forms, here, a⟩) frames begun
            refine ⟨.opened bracket start items :: pre, rfl, ?_, outermost?_cons out _⟩
            rw [closes, made]
            exact alike
        | error fault =>
            rw [made] at frames begun
            cases fs with
            | nil => cases begun
            | cons first inside =>
                obtain rfl : rest = first :: inside ++ below := frames
                refine ⟨.opened bracket start items :: first :: inside, rfl, ?_, begun⟩
                rw [closes, made]
                rfl
      · unfold inner at begun ⊢
        rw [refuses] at frames begun ⊢
        cases fs with
        | nil => cases begun
        | cons first inside =>
            have same : frame :: rest = first :: (inside ++ below) := frames
            obtain ⟨rfl, rfl⟩ := List.cons_eq_cons.mp same
            exact ⟨frame :: inside, rfl, refuses mode inside [] here a, begun⟩

/-- So it is with any step, which leaves the frames below alone. -/
theorem exists_step_inner {begins : Location → Prop} {step : State → State}
    (does : Step begins step) (frames : (step s).frames = fs ++ below)
    (begun : ((step s).inner fs).begun? = some l)
    : ∃ pre, s.frames = pre ++ below ∧ step (s.inner pre) = (step s).inner fs
        ∧ ((s.inner pre).begun? = some l ∨ pre = [] ∧ begins l) := by
  cases does with
  | turn mode marks =>
      refine ⟨fs, frames, rfl, ?_⟩
      cases fs with
      | nil =>
          refine .inr ⟨rfl, marks l ?_⟩
          cases mode <;> cases begun
          rfl
      | cons => exact .inl begun
  | push frame empty marks =>
      cases fs with
      | nil => cases begun
      | cons first inside =>
          obtain ⟨rfl, same⟩ := List.cons_eq_cons.mp frames
          refine ⟨inside, same, rfl, ?_⟩
          cases inside with
          | nil => exact .inr ⟨rfl, marks l begun⟩
          | cons => exact .inl begun
  | put form =>
      obtain ⟨pre, same, alike, out⟩ := exists_deliver_inner frames begun
      exact ⟨pre, same, alike, .inl (begun?_of_outermost? out)⟩
  | close c =>
      obtain ⟨pre, same, alike, out⟩ := exists_close_inner frames begun
      exact ⟨pre, same, alike, .inl (begun?_of_outermost? out)⟩

-----------------------------------------------------------------------------------------
-- Lists in states
-----------------------------------------------------------------------------------------

/-- (s.Placed P) says that every list in what has been read has a place, with a property. -/
structure Placed (P : Location → Value → Prop) (s : State)
    : Prop where
  frames : ∀ frame ∈ s.frames, ∀ item ∈ frame.items, item.Placed P
  forms : ∀ form ∈ s.forms, form.Placed P

/-- (s.Completes P step) says that the lists with which a step ends unfinished forms have a property
at the places where these begin.
-/
def Completes (P : Location → Value → Prop) (step : State → State) (s : State)
    : Prop :=
  ∀ pre below l list, s.frames = pre ++ below → outermost? pre = some l →
    (step (s.inner pre)).forms = [list] → P l list

/-- A form is put where it belongs. It may end the quoting forms around it, which are lists. -/
theorem Placed.deliver (placed : s.Placed P) {form : Value} (part : form.Placed P)
    (completes : s.Completes P fun s => s.deliver form)
    : (s.deliver form).Placed P := by
  obtain ⟨mode, frames, forms, here, a⟩ := s
  obtain ⟨inside, done⟩ := placed
  dsimp only at inside done
  have whole : ∀ pre below l list, frames = pre ++ below → outermost? pre = some l →
      (place form pre []).2 = [list] → P l list := completes
  suffices (∀ frame ∈ (place form frames forms).1, ∀ item ∈ frame.items, item.Placed P)
      ∧ ∀ whole ∈ (place form frames forms).2, whole.Placed P from ⟨this.1, this.2⟩
  clear completes
  induction frames generalizing form with
  | nil => exact ⟨nofun, List.forall_mem_cons.mpr ⟨part, done⟩⟩
  | cons frame rest ih =>
      obtain ⟨first, others⟩ := List.forall_mem_cons.mp inside
      cases frame with
      | opened =>
          refine ⟨List.forall_mem_cons.mpr ⟨List.forall_mem_cons.mpr ⟨part, first⟩, others⟩, done⟩
      | wrap head start =>
          refine ih ?_ others fun pre below l list same out =>
            whole (.wrap head start :: pre) below l list (congrArg _ same) (outermost?_cons out _)
          refine Value.placed_list (whole [.wrap head start] rest start _ rfl rfl rfl) ?_
          exact List.forall_mem_cons.mpr
            ⟨Value.placed_of_lists rfl, List.forall_mem_singleton.mpr part⟩
      | dropNext => exact ⟨List.forall_mem_cons.mpr ⟨nofun, others⟩, done⟩
      | needed =>
          exact ih part others fun pre below l list same out =>
            whole (.needed :: pre) below l list (congrArg _ same) (outermost?_cons out _)

/-- The lists stay placed when a bracket closes, if the list that it completes is. -/
theorem Placed.close (placed : s.Placed P) {c : Char} (completes : s.Completes P fun s => s.close c)
    : (s.close c).Placed P := by
  obtain ⟨mode, frames, forms, here, a⟩ := s
  cases frames with
  | nil => exact ⟨nofun, placed.forms⟩
  | cons frame rest =>
      rcases close_cases frame c with ⟨bracket, start, items, rfl, closes⟩ | refuses
      · obtain ⟨first, others⟩ := List.forall_mem_cons.mp placed.frames
        rw [closes]
        cases made : bracket.form a start items.reverse with
        | error fault => exact ⟨others, placed.forms⟩
        | ok form =>
            have ends (pre : List Frame)
                : (inner ⟨mode, .opened bracket start items :: rest, forms, here, a⟩
                      (.opened bracket start items :: pre)).close c
                  = State.deliver ⟨mode, pre, [], here, a⟩ form := by
              unfold inner
              rw [closes, made]
              rfl
            refine Placed.deliver (s := ⟨mode, rest, forms, here, a⟩) ⟨others, placed.forms⟩ ?_ ?_
            · refine Bracket.placed_of_form made ?_ fun item member =>
                first item (List.mem_reverse.mp member)
              rintro rfl
              refine completes [.opened .round start items] rest start form rfl rfl ?_
              dsimp only
              rw [ends]
              rfl
            · intro pre below l list same out complete
              refine completes (.opened bracket start items :: pre) below l list
                (congrArg _ same) (outermost?_cons out _) ?_
              dsimp only
              rw [ends]
              exact complete
      · rw [refuses]
        exact ⟨placed.frames, placed.forms⟩

/-- They stay placed by any step, if the list that it completes is. -/
theorem Placed.step {begins : Location → Prop} {step : State → State} (does : Step begins step)
    (placed : s.Placed P) (completes : s.Completes P step)
    : (step s).Placed P := by
  cases does with
  | turn => exact ⟨placed.frames, placed.forms⟩
  | push frame empty =>
      refine ⟨List.forall_mem_cons.mpr ⟨?_, placed.frames⟩, placed.forms⟩
      rw [empty]
      nofun
  | put form plain => exact placed.deliver (Value.placed_of_lists plain) completes
  | close => exact placed.close completes

end State

end Reader

end Placed

namespace Reader

-----------------------------------------------------------------------------------------
-- Lists in a text
-----------------------------------------------------------------------------------------

/-- (Starts a file text l next) says that a list begins at a place of a text, and what comes next
for a reader that begins there.
-/
def Starts (a : Arrangement) (file text : String) (l : Location) (next : Next)
    : Prop :=
  ∃ before c after, text.toList = before ++ c :: after ∧ c ∈ beginners ∧ l = .behind file before
    ∧ (State.fresh a l).next (c :: after) = next

/-- (Stands a file text l list) says that a list stands at a place of a text. -/
def Stands (a : Arrangement) (file text : String) (l : Location) (list : Value)
    : Prop :=
  ∃ rest here, Starts a file text l (.read list rest here)

namespace State

/-- (s.Traced a file text rest) says that a state comes before the rest of a text. With the
innermost of its unfinished forms alone, it is where a reader is that began at the outermost of
these, and every list that is complete stands at its place.
-/
structure Traced (a : Arrangement) (file text : String) (s : State) (rest : List Char)
    : Prop where
  here : ∃ done, text.toList = done ++ rest ∧ s.here = .behind file done
  begun : ∀ pre below l, s.frames = pre ++ below → (s.inner pre).begun? = some l →
    Starts a file text l ((s.inner pre).next rest)
  placed : s.Placed (Stands a file text)
  arranged : s.arrangement = a

variable {a : Arrangement} {file text : String} {s : State} {rest rest' : List Char}

/-- At the start nothing has been read of the text. -/
theorem traced_start (a : Arrangement) (file text : String)
    : (start a file).Traced a file text text.toList := by
  refine ⟨⟨[], rfl, rfl⟩, fun pre below l same begun => ?_, ⟨nofun, nofun⟩, rfl⟩
  obtain ⟨rfl, -⟩ := List.append_eq_nil_iff.mp same.symm
  cases begun

/-- A step that leaves to the rest of the text what comes next leaves the lists at their places. -/
theorem Traced.step {begins : Location → Prop} {step : State → State}
    (traced : s.Traced a file text rest) (does : Step begins step) (move : State → State)
    (there : Location)
    (same : ∀ frames forms, move ⟨s.mode, frames, forms, s.here, s.arrangement⟩
      = { step ⟨s.mode, frames, forms, s.here, s.arrangement⟩ with here := there })
    (goes : ∀ frames, (move (s.inner frames)).next rest' = (s.inner frames).next rest)
    (starts : ∀ l, begins l → Starts a file text l ((s.inner []).next rest))
    (behind : ∃ done, text.toList = done ++ rest' ∧ there = .behind file done)
    : (move s).Traced a file text rest' := by
  have moved : move s = { step s with here := there } := same s.frames s.forms
  have arranged : (move s).arrangement = a := by
    rw [moved]
    exact (arrangement_step does s).trans traced.arranged
  have completes : s.Completes (Stands a file text) step := by
    intro pre below l list frames out complete
    have begun := traced.begun pre below l frames (begun?_of_outermost? out)
    rcases single_step (s := s.inner pre) rfl does with empty | ⟨form, whole⟩
    · rw [empty] at complete
      cases complete
    · obtain rfl : form = list := by
        rw [whole] at complete
        exact List.singleton_inj.mp complete
      rw [← goes, inner, same, ← inner, whole] at begun
      exact ⟨rest', there, by rwa [← next_complete _ there form rest']⟩
  refine ⟨?_, fun fs below l frames begun => ?_, ?_, arranged⟩
  · rw [moved]
    exact behind
  · rw [moved] at frames begun
    obtain ⟨pre, frames, alike, begins⟩ := exists_step_inner (s := s) does frames begun
    have inside : move (s.inner pre) = (move s).inner fs := by
      rw [moved, inner, same, ← inner, alike]
      rfl
    rw [← inside, goes]
    rcases begins with begun | ⟨rfl, begins⟩
    · exact traced.begun pre below l frames begun
    · exact starts l begins
  · have placed := traced.placed.step does completes
    rw [moved]
    exact ⟨placed.frames, placed.forms⟩

/-- What is left of the text stays left when the reading settles. -/
theorem Traced.settle (traced : s.Traced a file text rest) (stops : s.mode.stops rest)
    : s.settle.Traced a file text rest := by
  obtain ⟨step, does, same⟩ := exists_step_settle s.mode s.here
  refine traced.step does State.settle s.here (fun frames forms => ?_)
    (fun frames => next_settle rfl stops) (fun l marked => ?_) traced.here
  · have kept := here_settle ⟨s.mode, frames, forms, s.here, s.arrangement⟩
    rw [same] at kept ⊢
    exact congrArg
      (fun l => { step ⟨s.mode, frames, forms, s.here, s.arrangement⟩ with here := l }) kept
  · refine traced.begun [] s.frames l rfl ?_
    unfold inner
    rw [marked]
    rfl

/-- One character more of it has been read behind it, by the steps that the character takes. -/
theorem Traced.feed {c : Char} (traced : s.Traced a file text (c :: rest))
    : (s.feed c).Traced a file text rest := by
  have goes {t : State} (traced : t.Traced a file text (c :: rest))
    (ready : t.mode.Ready (c :: rest))
      : (t.feed c).Traced a file text rest := by
    obtain ⟨step, does, same⟩ := exists_step_take ready t.here
    obtain ⟨done, whole, behind⟩ := traced.here
    refine traced.step does (State.feed · c) (t.here.after c) (fun frames forms => ?_)
      (fun frames => (next_feed (s := t.inner frames) rfl ready).symm) ?_
      ⟨done ++ [c], by simp [whole], ?_⟩
    · unfold State.feed
      rw [same]
    · rintro l ⟨between, begins, rfl⟩
      refine ⟨done, c, rest, whole, begins, behind, ?_⟩
      unfold inner fresh
      rw [between, traced.arranged]
    · rw [behind, Location.behind_concat]
  cases stops : s.mode.stops (c :: rest) with
  | false => exact goes traced fun _ => stops
  | true =>
      rw [← feed_settle stops]
      exact goes (traced.settle stops) (s.ready_settle _)

/-- All of it has been read at its end. Witness: induction on the characters. -/
theorem Traced.feedAll {chars : List Char} (traced : s.Traced a file text chars)
    : (s.feedAll chars).Traced a file text [] := by
  induction chars generalizing s with
  | nil => exact traced
  | cons c rest ih => exact ih traced.feed

end State

/-- The lists that are read from a text stand at their places. -/
theorem placed_of_mem_forms {a : Arrangement} {file text : String} {form : Value}
    (member : form ∈ (readNamed a file text).forms)
    : form.Placed (Stands a file text) := by
  have traced := (State.traced_start a file text).feedAll.settle rfl
  refine traced.placed.forms form ?_
  rw [← State.forms_finish]
  unfold readNamed State.outcome at member
  split at member <;> exact List.mem_reverse.mp member

/-- Reading ends and places are exact. Reading one form after the other gives what is read of a text
after no more readings than it has characters, and one; a form takes at least one character, and the
place behind it is the one behind all characters that it takes; and every list at any depth has the
place of the character, counted from the beginning of the text, from which on it is read.
-/
theorem reading_ends_and_places_are_exact (a : Arrangement) (file text : String)
    : readTimes a (text.length + 1) ⟨file, 1, 1⟩ text.toList = some (readNamed a file text)
        ∧ (∀ here chars form rest there,
            (State.fresh a here).next chars = .read form rest there →
            ∃ c taken, chars = c :: taken ++ rest ∧ there = here.past (c :: taken))
        ∧ ∀ form ∈ (readNamed a file text).forms, ∀ list ∈ form.lists,
            ∃ before c after rest here, text.toList = before ++ c :: after
              ∧ c ∈ ['(', '\x27', '\x60', '~']
              ∧ list.location? = some (.behind file before)
              ∧ (State.fresh a (.behind file before)).next (c :: after) = .read list rest here := by
  refine ⟨readTimes_eq_readNamed a file text, fun here chars form rest there =>
    State.fresh_next_eq_read, fun form read list member => ?_⟩
  obtain ⟨l, located, rest, here, before, c, after, whole, begins, rfl, next⟩ :=
    placed_of_mem_forms read list member
  exact ⟨before, c, after, rest, here, whole, begins, located, next⟩

/-- A discarded form, then a quoted list of two lines with an unquoted form and a list in a set. -/
theorem places_of_nested_lists
    : let text := "#_ (x) \x27(a\n  [~b #\x7b(c)\x7d])"
      let lists := (readNamed .last "here" text).forms.flatMap Value.lists
      lists.map Value.repr
          = ["(quote (a [(unquote b) #\x7b(c)\x7d]))", "(a [(unquote b) #\x7b(c)\x7d])",
            "(unquote b)", "(c)"]
        ∧ lists.map Value.location?
          = [some ⟨"here", 1, 8⟩, some ⟨"here", 1, 9⟩, some ⟨"here", 2, 4⟩, some ⟨"here", 2, 9⟩]
        ∧ ∀ list ∈ lists, ∃ before c after, text.toList = before ++ c :: after
          ∧ list.location? = some (.behind "here" before) := by
  intro text lists
  refine ⟨by decide +kernel, by decide +kernel, fun list member => ?_⟩
  obtain ⟨form, read, member⟩ := List.mem_flatMap.mp member
  obtain ⟨before, c, after, -, -, whole, -, located, -⟩ :=
    (reading_ends_and_places_are_exact .last "here" text).2.2 form read list member
  exact ⟨before, c, after, whole, located⟩

end Reader

end IncrementalLisp
