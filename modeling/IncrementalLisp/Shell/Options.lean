import IncrementalLisp.Session.Compile

/-! The arguments of the command: the namespace to start in, whether to optimize, code to
evaluate, and a file to load.
-/

namespace IncrementalLisp

/-- What the command is asked to do. -/
structure Options where
  space : String
  optimizes : Bool
  code : Option String
  file : Option String
  showsVersion : Bool
deriving DecidableEq, Repr

namespace Options

/-- The options of a command without arguments. -/
def standard : Options := ⟨coreSpace, true, none, none, false⟩

/-- The configuration that options ask for. -/
def config (o : Options)
    : Config :=
  { Config.standard with space := o.space, optimizes := o.optimizes }

/-- The value of an option written in one argument, after the name and an optional mark. -/
def attached? (name : String) (mark : List Char) (arg : String)
    : Option String :=
  let start := name.toList ++ mark
  if start.isPrefixOf arg.toList && start.length < arg.length + mark.length then
    some (String.ofList (arg.toList.drop start.length))
  else none

/-- Options with a file, unless there is one already. -/
def withFile? (o : Options) (file : String)
    : Option Options :=
  if o.file.isSome then none else some { o with file := some file }

/-- An option that carries its value in the same argument. -/
def ofAttached? (o : Options) (arg : String)
    : Option Options :=
  match attached? "--namespace" ['='] arg with
  | some space => some { o with space }
  | none =>
      match (attached? "--eval" ['='] arg).or
        ((attached? "-e" ['='] arg).or (attached? "-e" [] arg)) with
      | some code => some { o with code := some code }
      | none => none

/-- Whether an argument is an option or the mark that ends the options. -/
def isOption (arg : String)
    : Bool :=
  arg.toList.head? == some '-' && arg != "-"

/-- The value of an option in an argument of its own. -/
def valueIn? (arg : String)
    : Option String :=
  if isOption arg then none else some arg

/-- Options continued with further arguments; none for arguments the command does not take. Once
the version is asked for, what follows does not matter.
-/
def continued? (o : Options)
    : List String → Option Options
  | [] => some o
  | ["--"] => some o
  | ["--", file] => o.withFile? file
  | "--namespace" :: arg :: rest =>
      (valueIn? arg).bind fun space => continued? { o with space } rest
  | "--no-optimize" :: rest => continued? { o with optimizes := false } rest
  | "--eval" :: arg :: rest =>
      (valueIn? arg).bind fun code => continued? { o with code := some code } rest
  | "-e" :: arg :: rest =>
      (valueIn? arg).bind fun code => continued? { o with code := some code } rest
  | arg :: rest =>
      if arg == "--version" || ['-', 'V'].isPrefixOf arg.toList then
        some { o with showsVersion := true }
      else if isOption arg then (o.ofAttached? arg).bind fun o => continued? o rest
      else (o.withFile? arg).bind fun o => continued? o rest

/-- The options in the arguments of a command. -/
def ofArgs? (args : List String)
    : Option Options :=
  standard.continued? args

end Options

end IncrementalLisp
