import IncrementalLisp.Error
import IncrementalLisp.Number.FloatText

/-! Words of a source text: the three literal names, numbers, and symbols. A word that starts
with a digit, or with a sign and a digit, must be a number; a number without a 64-bit value is
read as a float.
-/

namespace IncrementalLisp.Reader

/-- Whether a character ends a word. -/
def isDelimiter (c : Char)
    : Bool :=
  Text.isBlank c || ['(', ')', '[', ']', '\x7b', '\x7d', '\x22', ';', ','].contains c

/-- Whether a word must be a number. -/
def startsNumber : List Char → Bool
  | '+' :: d :: _ => d.isDigit
  | '-' :: d :: _ => d.isDigit
  | d :: _ => d.isDigit
  | [] => false

/-- A number. -/
def readNumber (token : String)
    : Except ReadFault Value :=
  match Number.readInteger token with
  | .ok n => .ok (.int n)
  | .error _ =>
      match Number.readFloat token with
      | .ok x => .ok (.float x)
      | .error _ => .error (.invalidNumber token)

/-- A word. -/
def readWord (token : String)
    : Except ReadFault Value :=
  if token == "nil" then .ok .nil
  else if token == "true" then .ok (.bool true)
  else if token == "false" then .ok (.bool false)
  else if startsNumber token.toList then readNumber token
  else .ok (.symbol (Symbol.ofString token))

/-- A keyword, given without its colon. -/
def readKeyword (token : String)
    : Except ReadFault Value :=
  if token.isEmpty then .error .emptyKeyword else .ok (.keyword (Symbol.ofString token))

/-- A character, given by itself or by its name. -/
def readCharacter (first : Char) (rest : List Char)
    : Except ReadFault Value :=
  if rest.isEmpty then .ok (.char first)
  else
    match String.ofList (first :: rest) with
    | "newline" => .ok (.char '\n')
    | "space" => .ok (.char ' ')
    | "tab" => .ok (.char '\t')
    | "return" => .ok (.char '\r')
    | name => .error (.unknownCharacter name)

/-- The character that a letter stands for behind a backslash in a string. -/
def unescape? : Char → Option Char
  | 'n' => some '\n'
  | 't' => some '\t'
  | 'r' => some '\r'
  | '0' => some '\x00'
  | '\x22' => some '\x22'
  | '\\' => some '\\'
  | _ => none

end IncrementalLisp.Reader
