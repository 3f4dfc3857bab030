import IncrementalLisp.Shell.Interact

/-! The command: it loads a file, evaluates code, or starts the interactive shell.
-/

namespace IncrementalLisp

namespace Stage

/-- The shell of a stage. -/
def shell : Stage → Shell
  | .running sh => sh
  | .ended sh _ => sh

/-- The exit code of a stage. -/
def code : Stage → UInt8
  | .running _ => 0
  | .ended _ code => code

/-- The stage that ends with an error. -/
def failure (sh : Shell) (text : String)
    : Stage :=
  .ended (sh.report ("Error: " ++ text)) 1

/-- The text of an error with the one that caused it, whose further lines are indented like its
first.
-/
def because (text cause : String)
    : String :=
  text ++ "\n\nCaused by:\n    " ++ "\n    ".intercalate (cause.splitOn "\n")

/-- The shell in the initial context of a configuration. -/
def start (config : Config)
    : Stage :=
  let (outcome, store) := Prelude.initial
  let sh : Shell := ⟨config, Store.first, store, ""⟩
  match outcome with
  | .error e => failure sh (because "failed to build the initial context" e.text)
  | .ok c =>
      match sh.perform (machine.enterSpace config c) with
      | (.ok c, sh) => .running { sh with context := c }
      | (.error e, sh) => failure sh (because "failed to build the initial context" e.text)

/-- The shell after a file, given by its content or by the reason why that cannot be read. -/
def load (sh : Shell) (file : String)
    : Except String String → Stage
  | .error reason => failure sh (because ("failed to read " ++ file) reason)
  | .ok content =>
      match sh.perform (machine.runText sh.config file content sh.context) with
      | (.ok (_, c), sh) => .running { sh with context := c }
      | (.error e, sh) => failure sh (because ("failed to load " ++ file) e.text)

/-- The command after it has evaluated code and shown its value. -/
def evaluate (sh : Shell) (code : String)
    : Stage :=
  match sh.perform (machine.runText sh.config Reader.unnamed code sh.context) with
  | (.ok (v, _), sh) => .ended (sh.print (v.repr ++ "\n")) 0
  | (.error e, sh) => failure sh e.text

/-- The command before it takes any lines. The content of a file is asked for by name. -/
def ofOptions (o : Options) (content : String → Except String String)
    : Stage :=
  match start o.config with
  | .ended sh code => .ended sh code
  | .running sh =>
      if o.showsVersion then .ended (sh.print (Shell.version ++ "\n")) 0
      else
        let loaded := match o.file with
          | some file => load sh file (content file)
          | none => .running sh
        match loaded with
        | .ended sh code => .ended sh code
        | .running sh =>
            match o.code with
            | some code => evaluate sh code
            | none => if o.file.isSome then .ended sh 0 else .running (sh.print Shell.banner)

/-- The whole command on a given input. -/
def ofInput (o : Options) (content : String → Except String String) (input : String)
    : Stage :=
  match ofOptions o content with
  | .running sh => sh.afterLines (Shell.linesOf input)
  | stage => stage

end Stage

end IncrementalLisp
