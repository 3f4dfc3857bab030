import IncrementalLisp.Text.Printable

/-! Quoted texts: between double quotes, with the quote, the backslash and some controls behind
a backslash, and with characters that cannot be shown as their code point in braces.
-/

namespace IncrementalLisp.Text

/-- The letter that stands for a character behind a backslash. -/
def escapeLetter? : Char → Option Char
  | '\x00' => some '0'
  | '\t' => some 't'
  | '\r' => some 'r'
  | '\n' => some 'n'
  | '\\' => some '\\'
  | '\x22' => some '\x22'
  | _ => none

/-- A character inside a quoted text. -/
def quoteChar (c : Char)
    : List Char :=
  match escapeLetter? c with
  | some letter => ['\\', letter]
  | none =>
      if isPrintable c then [c]
      else ['\\', 'u', '\x7b'] ++ Nat.toDigits 16 c.toNat ++ ['\x7d']

/-- A quoted text. -/
def quote (text : String)
    : String :=
  String.ofList (['\x22'] ++ text.toList.flatMap quoteChar ++ ['\x22'])

end IncrementalLisp.Text
