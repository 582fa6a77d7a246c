/-
A text between double quotes, made fit for a message: backslash and double quote stand behind a backslash, the usual
controls have letters, and every other hidden character is given by its number. So the quoted text is one line, and no
two texts are quoted alike.
-/
import ZonePlan.Text.Visible
namespace ZonePlan.Text

/-- how a character stands between double quotes -/
def quotedChar (c : Char) : List Char :=
  match c with
  | '\x00' => ['\\', '0']
  | '\t' => ['\\', 't']
  | '\r' => ['\\', 'r']
  | '\n' => ['\\', 'n']
  | '\\' => ['\\', '\\']
  | '"' => ['\\', '"']
  | c => if isVisible c then [c] else ['\\', 'u', '{'] ++ Nat.toDigits 16 c.toNat ++ ['}']

/-- a text between double quotes -/
def quoted (s : String) : String :=
  String.ofList ('"' :: s.toList.flatMap quotedChar ++ ['"'])

end ZonePlan.Text
