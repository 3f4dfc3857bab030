import IncrementalLisp.Shell.Command

/-! The program: it reads files and lines, and writes what the command writes.
-/

namespace IncrementalLisp

/-- Writes what a shell has to write, and empties it. -/
def flush (sh : Shell)
    : IO Shell := do
  IO.print sh.store.output
  (← IO.getStdout).flush
  IO.eprint sh.errors
  return { sh with store := { sh.store with output := "" }, errors := "" }

/-- Takes lines until the input or the shell ends, and returns the exit code. -/
partial def interact (sh : Shell)
    : IO UInt8 := do
  let sh ← flush sh.prompt
  let line ← (← IO.getStdin).getLine
  if line.isEmpty then return 0
  match sh.after (Line.ofTyped line) with
  | .running sh => interact (← flush sh)
  | .ended sh code =>
      let _ ← flush sh
      return code

/-- Why a file cannot be read. -/
def reasonOf : IO.Error → String
  | .noFileOrDirectory _ _ _ => "No such file or directory (os error 2)"
  | .permissionDenied _ _ _ => "Permission denied (os error 13)"
  | .inappropriateType _ _ _ => "Is a directory (os error 21)"
  | .userError _ => "stream did not contain valid UTF-8"
  | e => e.toString

/-- The content of a file, or why it cannot be read. -/
def contentOf (file : String)
    : IO (Except String String) := do
  try
    return .ok (← IO.FS.readFile file)
  catch e =>
    return .error (reasonOf e)

end IncrementalLisp

open IncrementalLisp in
/-- Runs the command. -/
def main (args : List String)
    : IO UInt32 := do
  match Options.ofArgs? args with
  | none =>
      IO.eprintln "error: unexpected arguments"
      return 2
  | some options =>
      let content ← match options.file with
        | some file => contentOf file
        | none => pure (.error "")
      let stage := Stage.ofOptions options fun _ => content
      let sh ← flush stage.shell
      match stage with
      | .running _ => return (← interact sh).toUInt32
      | .ended _ code => return code.toUInt32
