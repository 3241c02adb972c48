import Custody.Text.Unprintable

namespace Custody.Text

/-!
# Quoted text

Text inside reports stands between double quotes.  A backslash, a double quote and a
character without a visible form are escaped, so that a quoted text is one line and ends at
its closing quote; a single quote is not escaped.

* `escape` -- what one character is written as.
* `quoted` -- the text between quotes.
-/

/-- Escapes one character: the usual letters for tab, carriage return, line feed and NUL, the
    code point in hexadecimal for everything else that cannot be shown. -/
def escape (c : Char) : List Char :=
  match c with
  | '\t' => ['\\', 't']
  | '\r' => ['\\', 'r']
  | '\n' => ['\\', 'n']
  | '\x00' => ['\\', '0']
  | '\\' => ['\\', '\\']
  | '\"' => ['\\', '\"']
  | c =>
    if isUnprintable c then
      ['\\', 'u', '\x7b'] ++ Nat.toDigits 16 c.toNat ++ ['\x7d']
    else [c]

/-- The text between double quotes, escaped. -/
def quoted (text : String) : String :=
  String.ofList ('\"' :: text.toList.flatMap escape ++ ['\"'])

end Custody.Text
