import Dataflow.Text.Unprinted

/-!
# Quoted text

`quotedChars` writes a text between double quotes, one character after the other, in a given way.
`escape` is such a way, in which the quoted text can be read on one line: a quote and a backslash
take a backslash, the usual control characters their letters, and characters with no visible form
their number in hexadecimal. All other characters, an apostrophe too, stand for themselves.
-/

namespace Dataflow.Text

/-- A character by its number, in hexadecimal and in braces. -/
def byNumber (c : Char) : List Char :=
  ['\\', 'u', '\x7b'] ++ Nat.toDigits 16 c.toNat ++ ['\x7d']

/-- What stands for a character between quotes. -/
def escape (c : Char) : List Char :=
  match c with
  | '"' => ['\\', '"']
  | '\\' => ['\\', '\\']
  | '\x00' => ['\\', '0']
  | '\t' => ['\\', 't']
  | '\r' => ['\\', 'r']
  | '\n' => ['\\', 'n']
  | _ => if isUnprinted c then byNumber c else [c]

/-- The text between quotes, with `q c` for each of its characters `c`. -/
def quotedChars (q : Char → List Char) (s : List Char) : List Char := '"' :: s.flatMap q ++ ['"']

/-- The text between quotes. -/
def quoted (s : String) : String := String.ofList (quotedChars escape s.toList)

end Dataflow.Text
