import ActivationOrder.Text.Character
import ActivationOrder.Text.Unprintable

/-!
The quoted form of a text, in which messages show a text that may hold anything: quotes around it,
a backslash before quotes and backslashes, short escapes for NUL, tab and line ends, and the code
in braces for every other character that would not show.
-/

namespace ActivationOrder.Text

/-- One character inside quotes. -/
def quotedChar (c : Char) : List Char :=
  match c with
  | '"' => ['\\', '"']
  | '\\' => ['\\', '\\']
  | '\x00' => ['\\', '0']
  | '\t' => ['\\', 't']
  | '\n' => ['\\', 'n']
  | '\r' => ['\\', 'r']
  | c =>
    if isUnprintable c then ['\\', 'u', '\x7b'] ++ hexDigits c.toNat ++ ['\x7d'] else [c]

/-- The quoted form of a text. -/
def quoted (text : String) : String :=
  String.ofList ('"' :: text.toList.flatMap quotedChar ++ ['"'])

end ActivationOrder.Text
