import IncrementalLisp.Reader.Atom
import IncrementalLisp.Value.Collection

/-! Reading as a run over characters. The state holds the unfinished token, the frames of the
unfinished forms around it, and the forms that are complete. A fault ends the run: the state
keeps the forms read before and ignores what follows.
-/

namespace IncrementalLisp.Reader

/-- The kinds of brackets. -/
inductive Bracket where
  | round
  | square
  | curly
  | hashed
deriving DecidableEq, Repr

/-- The character that closes a bracket. -/
def Bracket.closing : Bracket → Char
  | .round => ')'
  | .square => ']'
  | .curly => '\x7d'
  | .hashed => '\x7d'

/-- The form between two brackets that open at a place, a table arranged as given. -/
def Bracket.form (a : Arrangement) (bracket : Bracket) (start : Location) (items : List Value)
    : Except ReadFault Value :=
  match bracket with
  | .round => .ok (.list items (some start))
  | .square => .ok (.vector items)
  | .curly => if items.length % 2 == 0 then .ok (.mapOf a (Value.pairs items)) else .error .oddMap
  | .hashed => .ok (.setOf a items)

/-- An unfinished form: an open bracket with the items so far in reverse, a quoting character
before the form it wraps, a mark that drops the next form, or the place that this leaves, where
a form must follow.
-/
inductive Frame where
  | opened (bracket : Bracket) (start : Location) (items : List Value)
  | wrap (head : String) (start : Location)
  | dropNext
  | needed

/-- An unfinished token, with its characters in reverse. -/
inductive Mode where
  | between
  | comment
  | word (start : Location) (chars : List Char)
  | keyword (start : Location) (chars : List Char)
  | string (start : Location) (chars : List Char)
  | escape (start : Location) (chars : List Char)
  | character (start : Location)
  | named (start : Location) (first : Char) (chars : List Char)
  | dispatch (start : Location)
  | tilde (start : Location)
  | failed (error : ReadError)

/-- How far a text has been read. The complete forms are in reverse; the tables in it are arranged
alike.
-/
structure State where
  mode : Mode
  frames : List Frame
  forms : List Value
  here : Location
  arrangement : Arrangement

namespace State

/-- The state before the first character of a text. -/
def start (a : Arrangement) (file : String)
    : State :=
  ⟨.between, [], [], ⟨file, 1, 1⟩, a⟩

/-- The state after a fault. -/
def fail (s : State) (fault : ReadFault) (place : Location)
    : State :=
  { s with mode := .failed ⟨fault, some place⟩ }

/-- Puts a complete form where it belongs: into the bracket around it, into the form that quotes
it, or among the complete forms.
-/
def place (form : Value)
    : List Frame → List Value → List Frame × List Value
  | [], forms => ([], form :: forms)
  | .opened bracket start items :: rest, forms =>
      (.opened bracket start (form :: items) :: rest, forms)
  | .wrap head start :: rest, forms =>
      place (.list [.symbol (Symbol.bare head), form] (some start)) rest forms
  | .dropNext :: rest, forms => (.needed :: rest, forms)
  | .needed :: rest, forms => place form rest forms

/-- The state after a complete form. -/
def deliver (s : State) (form : Value)
    : State :=
  let (frames, forms) := place form s.frames s.forms
  { s with mode := .between, frames, forms }

/-- The state after the token that started at a place. -/
def finishToken (s : State) (start : Location)
    : Except ReadFault Value → State
  | .ok form => s.deliver form
  | .error fault => s.fail fault start

/-- The state with one more unfinished form. -/
def push (s : State) (frame : Frame)
    : State :=
  { s with mode := .between, frames := frame :: s.frames }

/-- The state after a closing bracket. -/
def close (s : State) (c : Char)
    : State :=
  match s.frames with
  | .opened bracket start items :: rest =>
      if c == bracket.closing then
        finishToken { s with frames := rest } start (bracket.form s.arrangement start items.reverse)
      else s.fail (.unexpectedClosing c) s.here
  | _ => s.fail (.unexpectedClosing c) s.here

/-- The state after a character that no token has claimed. -/
def unclaimed (s : State) (c : Char)
    : State :=
  if Text.isBlank c || c == ',' then s
  else
    match c with
    | ';' => { s with mode := .comment }
    | '(' => s.push (.opened .round s.here [])
    | '[' => s.push (.opened .square s.here [])
    | '\x7b' => s.push (.opened .curly s.here [])
    | ')' => s.close c
    | ']' => s.close c
    | '\x7d' => s.close c
    | '#' => { s with mode := .dispatch s.here }
    | '\x27' => s.push (.wrap "quote" s.here)
    | '\x60' => s.push (.wrap "syntax-quote" s.here)
    | '~' => { s with mode := .tilde s.here }
    | '^' => s.push .dropNext
    | '\x22' => { s with mode := .string s.here [] }
    | '\\' => { s with mode := .character s.here }
    | ':' => { s with mode := .keyword s.here [] }
    | _ => { s with mode := .word s.here [c] }

/-- Completes a token whose end only the next character, or the end of the text, shows. -/
def settle (s : State)
    : State :=
  match s.mode with
  | .word start chars => s.finishToken start (readWord (String.ofList chars.reverse))
  | .keyword start chars => s.finishToken start (readKeyword (String.ofList chars.reverse))
  | .named start first chars => s.finishToken start (readCharacter first chars.reverse)
  | .tilde start => s.push (.wrap "unquote" start)
  | _ => s

/-- The state after an unclaimed character, unless a token before it turned out to be faulty. -/
def reopen (s : State) (c : Char)
    : State :=
  match s.mode with
  | .between => s.unclaimed c
  | _ => s

/-- The state after a character, its place apart. -/
def take (s : State) (c : Char)
    : State :=
  match s.mode with
  | .between => s.unclaimed c
  | .comment => if c == '\n' then { s with mode := .between } else s
  | .word start chars =>
      if isDelimiter c then s.settle.reopen c else { s with mode := .word start (c :: chars) }
  | .keyword start chars =>
      if isDelimiter c then s.settle.reopen c else { s with mode := .keyword start (c :: chars) }
  | .string start chars =>
      match c with
      | '\x22' => s.deliver (.string (String.ofList chars.reverse))
      | '\\' => { s with mode := .escape start chars }
      | _ => { s with mode := .string start (c :: chars) }
  | .escape start chars =>
      match unescape? c with
      | some meant => { s with mode := .string start (meant :: chars) }
      | none => s.fail (.unknownEscape c) (s.here.after c)
  | .character start => { s with mode := .named start c [] }
  | .named start first chars =>
      if isDelimiter c then s.settle.reopen c
      else { s with mode := .named start first (c :: chars) }
  | .dispatch start =>
      match c with
      | '\x7b' => s.push (.opened .hashed start [])
      | '_' => s.push .dropNext
      | _ => s.fail (.unknownDispatch (some c)) start
  | .tilde start => if c == '@' then s.fail .splicing start else s.settle.reopen c
  | .failed _ => s

/-- The state after a character. -/
def feed (s : State) (c : Char)
    : State :=
  { s.take c with here := s.here.after c }

/-- The state after the last character of a text. -/
def finish (s : State)
    : State :=
  let s := s.settle
  match s.mode with
  | .string start _ => s.fail .unterminatedString start
  | .escape start _ => s.fail .unterminatedString start
  | .character start => s.fail .missingCharacter start
  | .dispatch start => s.fail (.unknownDispatch none) start
  | .failed _ => s
  | _ =>
      match s.frames with
      | [] => s
      | .opened bracket _ _ :: _ => s.fail (.unclosed bracket.closing) s.here
      | _ => s.fail .unexpectedEnd s.here

end State

end IncrementalLisp.Reader
