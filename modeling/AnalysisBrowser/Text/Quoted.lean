import AnalysisBrowser.Text.Hidden

/-!
# Quoted text

A text between double quotes, for messages and for values in the tree. A quote and a backslash
take a backslash, four controls have a letter of their own, and every other hidden character is
written as its number in hexadecimal digits between braces. A single quote stands for itself.
-/
namespace AnalysisBrowser.Text

/-- A number in lower case hexadecimal digits, without leading zeros. -/
def hexDigits (n : Nat) : List Char :=
  Nat.toDigits 16 n

/-- One character as it stands inside quotes. -/
def quoteChar (c : Char) : List Char :=
  match c with
  | '"' => ['\\', '"']
  | '\\' => ['\\', '\\']
  | '\n' => ['\\', 'n']
  | '\r' => ['\\', 'r']
  | '\t' => ['\\', 't']
  | '\x00' => ['\\', '0']
  | c => if isHidden c then ['\\', 'u', '\x7b'] ++ hexDigits c.toNat ++ ['\x7d'] else [c]

/-- The text between double quotes. -/
def quoted (s : String) : String :=
  String.ofList (['"'] ++ s.toList.flatMap quoteChar ++ ['"'])

end AnalysisBrowser.Text
