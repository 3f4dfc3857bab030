import IncrementalLisp.Proofs.Reader.Next
import IncrementalLisp.Session.Prelude

/-! The definitions in the texts of the prelude as forms. A text is a chain of definitions, each
read from the place where the one before it ends.
-/

namespace IncrementalLisp

namespace Prelude

open Reader

-----------------------------------------------------------------------------------------
-- Texts of several definitions
-----------------------------------------------------------------------------------------

/-- A definition in a text: how it is written, together with what surrounds it, the form that is
read, and the place where the next one begins.
-/
structure Written where
  text : String
  form : Value
  stop : Location

/-- The state at a place behind complete forms, of which the last is the first. -/
def behind (earlier : List Value) (here : Location)
    : State :=
  ⟨.between, [], earlier, here, .last⟩

/-- (ReadsAll start letters ws) says that from a place on letters are those of definitions one
behind the other, each read as its form.
-/
inductive ReadsAll : Location → List Char → List Written → Prop where
  | nil {start : Location}
      : ReadsAll start [] []
  | cons {start : Location} {first rest : List Char} {w : Written} {ws : List Written}
      (spelled : w.text = String.ofList first)
      (read : (behind [] start).feedAll first = behind [w.form] w.stop)
      (others : ReadsAll w.stop rest ws)
      : ReadsAll start (first ++ rest) (w :: ws)

/-- Letters that are read as a form behind no forms are read so behind any. -/
theorem feedAll_behind {form : Value} {start stop : Location} {letters : List Char}
    (reads : (behind [] start).feedAll letters = behind [form] stop) (earlier : List Value)
    : (behind earlier start).feedAll letters = behind (form :: earlier) stop := by
  have read := State.feedAll_following id earlier (behind [] start) (fun _ _ => rfl) letters
  rw [reads] at read
  unfold State.following behind at read
  simp only [Mode.relocated, List.map_nil, List.map_cons, Value.relocated_id, id_eq,
    List.nil_append, List.cons_append] at read
  exact read

/-- The reader comes to the forms of a chain, behind those of before. Witness: induction on the
chain.
-/
theorem feedAll_chain {start : Location} {letters : List Char} {ws : List Written}
    (reads : ReadsAll start letters ws) (earlier : List Value)
    : ∃ stop, (behind earlier start).feedAll letters
        = behind ((ws.map Written.form).reverse ++ earlier) stop := by
  induction reads generalizing earlier with
  | @nil start => exact ⟨start, rfl⟩
  | @cons start first rest w ws _ read _ ih =>
      obtain ⟨stop, onward⟩ := ih (w.form :: earlier)
      refine ⟨stop, ?_⟩
      rw [State.feedAll, List.foldl_append]
      change State.feedAll (State.feedAll _ _) _ = _
      rw [feedAll_behind read, onward, List.map_cons, List.reverse_cons, List.append_assoc]
      rfl

/-- A text that is a chain of definitions is read as their forms. -/
theorem readNamed_chain {file text : String} {letters : List Char} {ws : List Written}
    (reads : ReadsAll ⟨file, 1, 1⟩ letters ws) (spelled : text = String.ofList letters)
    : readNamed .last file text = ⟨ws.map Written.form, none⟩ := by
  obtain ⟨stop, read⟩ := feedAll_chain reads []
  change State.outcome (State.finish ((behind [] ⟨file, 1, 1⟩).feedAll text.toList)) = _
  rw [spelled, String.toList_ofList, read, List.append_nil]
  exact congrArg (Reading.mk · none) (List.reverse_reverse _)

-----------------------------------------------------------------------------------------
-- The texts of the prelude
-----------------------------------------------------------------------------------------

/-- A name as a form. -/
def word (name : String)
    : Value :=
  .symbol (.bare name)

/-- A list in the text of the bootstrap context. -/
def bootList (line column : Nat) (items : List Value)
    : Value :=
  .list items (some ⟨unnamed, line, column⟩)

/-- A list in the text of the initial context. -/
def coreList (line column : Nat) (items : List Value)
    : Value :=
  .list items (some ⟨coreFile, line, column⟩)

/-- The definitions in the text of the bootstrap context. -/
def bootstrapWritten : List Written :=
  [⟨"
(def identity (fn [x] x))
",
      bootList 2 1 [word "def", word "identity",
        bootList 2 15 [word "fn", .vector [word "x"], word "x"]],
      ⟨unnamed, 3, 1⟩⟩,
    ⟨"(def constantly (fn [x] (fn [& _] x)))
",
      bootList 3 1 [word "def", word "constantly",
        bootList 3 17 [word "fn", .vector [word "x"],
          bootList 3 25 [word "fn", .vector [word "&", word "_"], word "x"]]],
      ⟨unnamed, 4, 1⟩⟩,
    ⟨"(def second (fn [coll] (first (rest coll))))
",
      bootList 4 1 [word "def", word "second",
        bootList 4 13 [word "fn", .vector [word "coll"],
          bootList 4 24 [word "first", bootList 4 31 [word "rest", word "coll"]]]],
      ⟨unnamed, 5, 1⟩⟩,
    ⟨"(def list? (fn [x] (= (type-of x) \"list\")))
",
      bootList 5 1 [word "def", word "list?",
        bootList 5 12 [word "fn", .vector [word "x"],
          bootList 5 20 [word "=", bootList 5 23 [word "type-of", word "x"], .string "list"]]],
      ⟨unnamed, 6, 1⟩⟩,
    ⟨"(def vector? (fn [x] (= (type-of x) \"vector\")))
",
      bootList 6 1 [word "def", word "vector?",
        bootList 6 14 [word "fn", .vector [word "x"],
          bootList 6 22 [word "=", bootList 6 25 [word "type-of", word "x"], .string "vector"]]],
      ⟨unnamed, 7, 1⟩⟩,
    ⟨"(def empty? (fn [coll] (= (count coll) 0)))
",
      bootList 7 1 [word "def", word "empty?",
        bootList 7 13 [word "fn", .vector [word "coll"],
          bootList 7 24 [word "=", bootList 7 27 [word "count", word "coll"], .int 0]]],
      ⟨unnamed, 8, 1⟩⟩,
    ⟨"(def complement (fn [f] (fn [& args] (not (apply f args)))))
",
      bootList 8 1 [word "def", word "complement",
        bootList 8 17 [word "fn", .vector [word "f"],
          bootList 8 25 [word "fn", .vector [word "&", word "args"],
            bootList 8 38 [word "not", bootList 8 43 [word "apply", word "f", word "args"]]]]],
      ⟨unnamed, 9, 1⟩⟩]

/-- The definitions in the text of the initial context. -/
def coreWritten : List Written :=
  [⟨";; Core prelude, compiled on top of the bootstrap definitions.

(defmacro when [test & body]
  (list 'if test (cons 'do body)))

",
      coreList 3 1 [word "defmacro", word "when", .vector [word "test", word "&", word "body"],
        coreList 4 3 [word "list", coreList 4 9 [word "quote", word "if"], word "test",
          coreList 4 18 [word "cons", coreList 4 24 [word "quote", word "do"], word "body"]]],
      ⟨coreFile, 6, 1⟩⟩,
    ⟨"(defmacro when-not [test & body]
  (list 'if test nil (cons 'do body)))

",
      coreList 6 1 [word "defmacro", word "when-not", .vector [word "test", word "&", word "body"],
        coreList 7 3 [word "list", coreList 7 9 [word "quote", word "if"], word "test", .nil,
          coreList 7 22 [word "cons", coreList 7 28 [word "quote", word "do"], word "body"]]],
      ⟨coreFile, 9, 1⟩⟩,
    ⟨"(defn comp [f g]
  (fn [& args] (f (apply g args))))

",
      coreList 9 1 [word "defn", word "comp", .vector [word "f", word "g"],
        coreList 10 3 [word "fn", .vector [word "&", word "args"],
          coreList 10 16 [word "f", coreList 10 19 [word "apply", word "g", word "args"]]]],
      ⟨coreFile, 12, 1⟩⟩,
    ⟨"(defn partial [f & bound]
  (fn [& args] (apply f (concat bound args))))

",
      coreList 12 1 [word "defn", word "partial", .vector [word "f", word "&", word "bound"],
        coreList 13 3 [word "fn", .vector [word "&", word "args"],
          coreList 13 16 [word "apply", word "f",
            coreList 13 25 [word "concat", word "bound", word "args"]]]],
      ⟨coreFile, 15, 1⟩⟩,
    ⟨"(defn map [f coll]
  (if (empty? coll)
    ()
    (cons (f (first coll)) (map f (rest coll)))))

",
      coreList 15 1 [word "defn", word "map", .vector [word "f", word "coll"],
        coreList 16 3 [word "if", coreList 16 7 [word "empty?", word "coll"],
          coreList 17 5 [],
          coreList 18 5 [word "cons",
            coreList 18 11 [word "f", coreList 18 14 [word "first", word "coll"]],
            coreList 18 28 [word "map", word "f", coreList 18 35 [word "rest", word "coll"]]]]],
      ⟨coreFile, 20, 1⟩⟩,
    ⟨"(defn filter [pred coll]
  (if (empty? coll)
    ()
    (if (pred (first coll))
      (cons (first coll) (filter pred (rest coll)))
      (filter pred (rest coll)))))

",
      coreList 20 1 [word "defn", word "filter", .vector [word "pred", word "coll"],
        coreList 21 3 [word "if", coreList 21 7 [word "empty?", word "coll"],
          coreList 22 5 [],
          coreList 23 5 [word "if",
            coreList 23 9 [word "pred", coreList 23 15 [word "first", word "coll"]],
            coreList 24 7 [word "cons", coreList 24 13 [word "first", word "coll"],
              coreList 24 26 [word "filter", word "pred", coreList 24 39 [word "rest", word "coll"]]],
            coreList 25 7 [word "filter", word "pred",
              coreList 25 20 [word "rest", word "coll"]]]]],
      ⟨coreFile, 27, 1⟩⟩,
    ⟨"(defn reduce [f init coll]
  (if (empty? coll)
    init
    (reduce f (f init (first coll)) (rest coll))))
",
      coreList 27 1 [word "defn", word "reduce", .vector [word "f", word "init", word "coll"],
        coreList 28 3 [word "if", coreList 28 7 [word "empty?", word "coll"],
          word "init",
          coreList 30 5 [word "reduce", word "f",
            coreList 30 15 [word "f", word "init", coreList 30 23 [word "first", word "coll"]],
            coreList 30 37 [word "rest", word "coll"]]]],
      ⟨coreFile, 31, 1⟩⟩]

-- a list of letters nests as deep as the text is long
set_option maxRecDepth 4000 in
/-- The bootstrap text is read as its forms, one by one. -/
theorem read_bootstrapText
    : Reader.read .last bootstrapText = ⟨bootstrapWritten.map Written.form, none⟩ :=
  readNamed_chain
    (.cons rfl (by rfl) (.cons rfl (by rfl) (.cons rfl (by rfl) (.cons rfl (by rfl)
      (.cons rfl (by rfl) (.cons rfl (by rfl) (.cons rfl (by rfl) .nil)))))))
    (by rfl)

set_option maxRecDepth 8000 in
/-- The core text is read as its forms, one by one. -/
theorem read_coreText
    : readNamed .last coreFile coreText = ⟨coreWritten.map Written.form, none⟩ :=
  readNamed_chain
    (.cons rfl (by rfl) (.cons rfl (by rfl) (.cons rfl (by rfl) (.cons rfl (by rfl)
      (.cons rfl (by rfl) (.cons rfl (by rfl) (.cons rfl (by rfl) .nil)))))))
    (by rfl)

end Prelude

end IncrementalLisp
