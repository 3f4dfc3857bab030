import IncrementalLisp.Session.Prelude
import IncrementalLisp.Shell.Draft
import IncrementalLisp.Shell.Options

/-! The interactive shell. Each line is run in the current context; on success the context it
leaves becomes current, on failure the one before it stays. Lines that start with a colon are
commands of the shell.
-/

namespace IncrementalLisp

/-- A line of input. It is torn if correcting it leaves a part of a character. -/
inductive Line where
  | blank
  | quit
  | deps (symbol : String)
  | dependents (symbol : String)
  | unknown (text : String)
  | program (text : String)
  | torn
deriving DecidableEq, Repr

/-- What a line asks for. -/
def Line.ofText (text : String)
    : Line :=
  match text.toList with
  | [] => .blank
  | ':' :: command =>
      match Text.words (String.ofList command) with
      | "quit" :: _ => .quit
      | "q" :: _ => .quit
      | "deps" :: s :: _ => .deps s
      | "dependents" :: s :: _ => .dependents s
      | _ => .unknown text
  | _ => .program text

/-- What a line asks for that is given as it was typed. -/
def Line.ofTyped (typed : String)
    : Line :=
  match corrected? typed with
  | some text => .ofText (Text.trim text)
  | none => .torn

/-- The text of an outcome without a result. -/
def Halt.text : Halt → String
  | .error e => e.text
  | .outOfFuel => "evaluation is nested too deeply"

/-- A running shell. What it writes to its output is the output of the store; what it writes as
errors is kept apart.
-/
structure Shell where
  config : Config
  context : ContextId
  store : Store
  errors : String

/-- A command that goes on with a shell or has ended with an exit code. -/
inductive Stage where
  | running (sh : Shell)
  | ended (sh : Shell) (code : UInt8)

namespace Shell

/-- The version of the command. -/
def version : String := "entmoot 0.0.1"

/-- The line with which the shell starts. -/
def banner : String := version ++ " (:quit to exit)\n"

/-- A shell that has written a text. -/
def print (sh : Shell) (text : String)
    : Shell :=
  { sh with store := { sh.store with output := sh.store.output ++ text } }

/-- A shell that has written an error. -/
def report (sh : Shell) (text : String)
    : Shell :=
  { sh with errors := sh.errors ++ text ++ "\n" }

/-- The outcome of a computation on the store of a shell, which keeps its own context, and the
shell after it.
-/
def perform {α : Type} (sh : Shell) (x : Run α)
    : Except Halt α × Shell :=
  let store := sh.store.keeping [sh.context]
  let (outcome, store) := x.start Config.defaultCallLimit store
  (outcome, { sh with store })

/-- A shell after a computation whose outcome does not matter. -/
def touch {α : Type} (sh : Shell) (x : Run α)
    : Shell :=
  (sh.perform x).2

/-- A set of symbols under a title, one to a line. -/
def symbolsText (title : String) (symbols : SymbolSet)
    : String :=
  if symbols.isEmpty then title ++ ": none\n"
  else title ++ ":\n" ++ String.join (symbols.toList.map fun s => "  " ++ s.toString ++ "\n")

/-- A shell after it has shown the set of symbols that a computation gives. -/
def showSymbols (sh : Shell) (title : String) (x : Run SymbolSet)
    : Shell :=
  match sh.perform x with
  | (.ok symbols, sh) => sh.print (symbolsText title symbols)
  | (.error e, sh) => sh.report ("Error: " ++ e.text)

/-- The dependencies of the definition that a symbol means. -/
def dependencies (c : ContextId) (s : Symbol)
    : Run SymbolSet := do
  match ← machine.slot? c s with
  | some slot => return slot.dependencies
  | none => return ∅

/-- A shell after it has run a program text. Values other than nil are shown. -/
def runText (sh : Shell) (text : String)
    : Shell :=
  match sh.perform (machine.runText sh.config Reader.unnamed text sh.context) with
  | (.ok (v, c), sh) =>
      let sh := { sh with context := c }
      if v.isTruthy then sh.print (v.repr ++ "\n") else sh
  | (.error e, sh) => sh.report ("Error: " ++ e.text)

/-- A shell that is about to take a line. It looks up the namespace for its prompt. -/
def prompt (sh : Shell)
    : Shell :=
  sh.touch (machine.currentSpace sh.context)

/-- The stage after a line. -/
def after (sh : Shell)
    : Line → Stage
  | .blank => .running sh
  | .quit => .ended sh 0
  | .deps s =>
      .running (sh.showSymbols "depends on" (dependencies sh.context (Symbol.ofString s)))
  | .dependents s =>
      .running
        (sh.showSymbols "dependents" (machine.dependents sh.context (Symbol.ofString s)))
  | .unknown text => .running (sh.report ("Unknown command: " ++ text))
  | .program text => .running (sh.runText text)
  | .torn => .ended (sh.report "the line ends inside of a character") 101

/-- The stage after lines, up to the one that ends the shell. -/
def afterLines (sh : Shell)
    : List String → Stage
  | [] => .ended sh.prompt 0
  | line :: rest =>
      match sh.prompt.after (Line.ofTyped line) with
      | .running sh => afterLines sh rest
      | ended => ended

/-- The lines of a text. What follows the last end of a line is a line unless it is empty. -/
def linesOf (text : String)
    : List String :=
  let parts := text.splitOn "\n"
  if parts.getLast? == some "" then parts.dropLast else parts

end Shell

end IncrementalLisp
