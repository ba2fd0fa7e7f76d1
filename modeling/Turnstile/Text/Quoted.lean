import Turnstile.Text.Printable
import Turnstile.Text.Numeral

/-!
# Quoted text

Text between quotation marks, as it appears in error messages and in the display
of a cache value. The quotation mark, the backslash and the usual controls have
a short escape; every other character that is not plain is written by its code
in hexadecimal. All else stands for itself, the apostrophe included.
-/

namespace Turnstile.Text

/-- A character as it is written between quotation marks. -/
def escape (c : Char) : List Char :=
  match c with
  | '"' => ['\\', '"']
  | '\\' => ['\\', '\\']
  | '\n' => ['\\', 'n']
  | '\r' => ['\\', 'r']
  | '\t' => ['\\', 't']
  | '\x00' => ['\\', '0']
  | c =>
    if isPlain c then [c]
    else '\\' :: 'u' :: '\x7b' :: Nat.toDigits 16 c.toNat ++ ['\x7d']

/-- A text between quotation marks. -/
def quoted (s : String) : String :=
  String.ofList ('"' :: s.toList.flatMap escape ++ ['"'])

end Turnstile.Text
