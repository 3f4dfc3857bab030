import IncrementalLisp.Machine.Tower
import IncrementalLisp.Reader

/-! Running source texts. Each form is expanded, optimized if so configured, and evaluated in the
context that the form before it left, so that it sees all earlier definitions.
-/

namespace IncrementalLisp

/-- How texts are run: the namespace to start in, whether expanded forms are optimized, and the
bounds on nested expansions and on nested function calls.
-/
structure Config where
  space : String
  optimizes : Bool
  expansionLimit : Nat
  callLimit : Nat
deriving DecidableEq, Repr

namespace Config

/-- The number of nested function calls allowed when nothing else is said. -/
def defaultCallLimit : Nat := 128

/-- The configuration when nothing else is said. -/
def standard : Config := ⟨coreSpace, true, defaultExpansionLimit, defaultCallLimit⟩

end Config

/-- An expanded node as it is run. If it is optimized, its tables are arranged as given. -/
def Config.prepared (config : Config) (a : Arrangement) (node : Node)
    : Node :=
  if config.optimizes then node.optimized a else node

namespace Machine

variable (m : Machine) (config : Config)

/-- The node of a form. -/
def expandTop (form : Value) (c : ContextId)
    : Run Node := do
  let initial := Expander.initial config.expansionLimit
  let node ← m.expand initial c form initial
  return config.prepared (← Run.arrangementIf config.optimizes) node

/-- The value of a form and the context after it. -/
def runForm (form : Value) (c : ContextId)
    : Run (Value × ContextId) :=
  Run.withCallLimit config.callLimit do
    let node ← m.expandTop config form c
    Run.holding [form] (m.eval node c [])

/-- Runs forms in order, each in the context that the one before it left. The value of the one
before it is at hand until its own is there.
-/
def runForms : List Value → Value → ContextId → Run (Value × ContextId)
  | [], last, c => return (last, c)
  | form :: rest, last, c => do
      let (v, c) ← Run.holding [last] (m.runForm config form c)
      runForms rest v c

/-- Runs what was read, up to its fault if there is one. -/
def run (reading : Reading) (c : ContextId)
    : Run (Value × ContextId) := do
  let result ← Run.inContext c (m.runForms config reading.forms .nil c)
  match reading.error with
  | none => return result
  | some e => Run.fail (.reading e)

/-- Runs a text, naming it in locations. -/
def runText (file text : String) (c : ContextId)
    : Run (Value × ContextId) := do
  m.run config (Reader.readNamed (← Run.newArrangement) file text) c

end Machine

end IncrementalLisp
