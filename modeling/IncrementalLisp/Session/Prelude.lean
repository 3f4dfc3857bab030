import IncrementalLisp.Analysis
import IncrementalLisp.Host.Standard
import IncrementalLisp.Session.Compile

/-! The definitions that a run starts from. The bootstrap context defines the current namespace,
the special forms, the primitives and a few functions analysed by the fixed language; the
initial context adds macros and functions written in the full language.
-/

namespace IncrementalLisp

namespace Prelude

/-- The functions of the bootstrap context. -/
def bootstrapText : String :=
  "
(def identity (fn [x] x))
(def constantly (fn [x] (fn [& _] x)))
(def second (fn [coll] (first (rest coll))))
(def list? (fn [x] (= (type-of x) \"list\")))
(def vector? (fn [x] (= (type-of x) \"vector\")))
(def empty? (fn [coll] (= (count coll) 0)))
(def complement (fn [f] (fn [& args] (not (apply f args)))))
"

/-- The place name of the definitions that the initial context adds. -/
def coreFile : String := "core.ent"

/-- The macros and functions that the initial context adds. -/
def coreText : String :=
  ";; Core prelude, compiled on top of the bootstrap definitions.

(defmacro when [test & body]
  (list 'if test (cons 'do body)))

(defmacro when-not [test & body]
  (list 'if test nil (cons 'do body)))

(defn comp [f g]
  (fn [& args] (f (apply g args))))

(defn partial [f & bound]
  (fn [& args] (apply f (concat bound args))))

(defn map [f coll]
  (if (empty? coll)
    ()
    (cons (f (first coll)) (map f (rest coll)))))

(defn filter [pred coll]
  (if (empty? coll)
    ()
    (if (pred (first coll))
      (cons (first coll) (filter pred (rest coll)))
      (filter pred (rest coll)))))

(defn reduce [f init coll]
  (if (empty? coll)
    init
    (reduce f (f init (first coll)) (rest coll))))
"

/-- The definitions without which no text can be loaded. -/
def groundDefinitions : List (Symbol × Value) :=
  [(Symbol.currentSpace, .string coreSpace)]
    ++ SpecialForm.all.map (fun f => (f.symbol.qualify coreSpace, .expander (.form f)))
    ++ Primitive.all.map (fun p => (Symbol.inSpace coreSpace p.name, .function (.builtin p)))

end Prelude

namespace Machine

variable (m : Machine)

/-- The context after definitions of symbols as constants. -/
def defineConstants : List (Symbol × Value) → ContextId → Run ContextId
  | [], c => return c
  | (s, v) :: rest, c => do
      let c ← m.define c s (.constant v) []
      defineConstants rest c

/-- The bootstrap context, made from a context without definitions. -/
def bootstrap (c : ContextId)
    : Run ContextId := do
  let c ← m.defineConstants Prelude.groundDefinitions c
  return (← m.load (Reader.read .last Prelude.bootstrapText) c).2

/-- The initial context in the core namespace, made from a context without definitions. -/
def corePrelude (c : ContextId)
    : Run ContextId := do
  let c ← m.bootstrap c
  let reading := Reader.readNamed .last Prelude.coreFile Prelude.coreText
  return (← m.run Config.standard reading c).2

/-- A context switched to the namespace of a configuration. -/
def enterSpace (config : Config) (c : ContextId)
    : Run ContextId :=
  if config.space == coreSpace then pure c
  else m.define c Symbol.currentSpace (.constant (.string config.space)) []

end Machine

/-- A store in which the tables to come are arranged as given. -/
def Store.arrangedBy (st : Store) (arrangements : Nat → Arrangement)
    : Store :=
  { st with arrangements }

namespace Prelude

/-- The outcome of a computation on a new store with the given host. -/
def onHost {α : Type} (host : Host) (x : Run α)
    (arrangements : Nat → Arrangement := fun _ => .last)
    : Except Halt α × Store :=
  x.start Config.defaultCallLimit (Store.start host arrangements)

/-- The initial context on the standard host, and its store. No table of several items is made
before the context is, so that only what is run in it depends on the arrangements.
-/
def initial (arrangements : Nat → Arrangement := fun _ => .last)
    : Except Halt ContextId × Store :=
  (onHost Host.standard (machine.corePrelude Store.first)).map id (·.arrangedBy arrangements)

end Prelude

end IncrementalLisp
