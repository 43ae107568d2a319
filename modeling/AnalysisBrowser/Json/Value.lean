import AnalysisBrowser.Number.Literal

/-!
# JSON values

A value keeps its numbers as they are written and the members of an object in order. The two
written forms, compact and indented, differ in white space only.
-/
namespace AnalysisBrowser

/-- A JSON value. -/
inductive Json where
  | null
  | bool (b : Bool)
  | number (literal : Number.Literal)
  | string (s : String)
  | array (items : List Json)
  | object (members : List (String × Json))

namespace Json

/-- A natural number. -/
def count (n : Nat) : Json := .number (Number.Literal.ofNat n)

/-- A natural number of 64 bits. -/
def word (n : UInt64) : Json := count n.toNat

def list {α : Type} (form : α → Json) (items : List α) : Json := .array (items.map form)

/-- The object of the forms of keyed values. -/
def pairs {α : Type} (form : α → Json) (entries : List (String × α)) : Json :=
  .object (entries.map fun (k, a) => (k, form a))

/-- A text, or null. -/
def optionalText : Option String → Json
  | none => .null
  | some s => .string s

/-- A member that is left out where there is no value. -/
def member? {α : Type} (key : String) (form : α → Json) : Option α → List (String × Json)
  | none => []
  | some a => [(key, form a)]

/-- A hexadecimal digit in lower case. -/
def hexDigit (n : Nat) : Char := Nat.digitChar n

/-- One character inside a written string. -/
def escapeChar (c : Char) : List Char :=
  match c with
  | '"' => ['\\', '"']
  | '\\' => ['\\', '\\']
  | '\x08' => ['\\', 'b']
  | '\x0c' => ['\\', 'f']
  | '\n' => ['\\', 'n']
  | '\r' => ['\\', 'r']
  | '\t' => ['\\', 't']
  | c =>
    if c.toNat < 0x20 then
      ['\\', 'u', '0', '0', hexDigit (c.toNat / 16), hexDigit (c.toNat % 16)]
    else [c]

/-- A string as written. -/
def stringChars (s : String) : List Char :=
  '"' :: s.toList.flatMap escapeChar ++ ['"']

mutual

/-- The written form without white space. -/
def chars : Json → List Char
  | .null => ['n', 'u', 'l', 'l']
  | .bool true => ['t', 'r', 'u', 'e']
  | .bool false => ['f', 'a', 'l', 's', 'e']
  | .number l => l.chars
  | .string s => stringChars s
  | .array [] => ['[', ']']
  | .array (item :: rest) => '[' :: item.chars ++ itemChars rest
  | .object [] => ['\x7b', '\x7d']
  | .object ((key, value) :: rest) => '\x7b' :: stringChars key ++ ':' :: value.chars ++ memberChars rest

/-- The items after the first, and the bracket. -/
def itemChars : List Json → List Char
  | [] => [']']
  | item :: rest => ',' :: item.chars ++ itemChars rest

/-- The members after the first, and the brace. -/
def memberChars : List (String × Json) → List Char
  | [] => ['\x7d']
  | (key, value) :: rest => ',' :: stringChars key ++ ':' :: value.chars ++ memberChars rest

end

/-- A line break and the indentation of the next line. -/
def newLine (depth : Nat) : List Char := '\n' :: List.replicate (2 * depth) ' '

mutual

/-- The written form with one item or member on a line, at an indentation depth. -/
def prettyChars (depth : Nat) : Json → List Char
  | .null => ['n', 'u', 'l', 'l']
  | .bool true => ['t', 'r', 'u', 'e']
  | .bool false => ['f', 'a', 'l', 's', 'e']
  | .number l => l.chars
  | .string s => stringChars s
  | .array [] => ['[', ']']
  | .array (item :: rest) =>
    '[' :: newLine (depth + 1) ++ prettyChars (depth + 1) item ++ prettyItems depth rest
  | .object [] => ['\x7b', '\x7d']
  | .object ((key, value) :: rest) =>
    '\x7b' :: newLine (depth + 1) ++ stringChars key ++ ':' :: ' ' ::
      prettyChars (depth + 1) value ++ prettyMembers depth rest

/-- The items after the first, and the bracket on a line of its own. -/
def prettyItems (depth : Nat) : List Json → List Char
  | [] => newLine depth ++ [']']
  | item :: rest =>
    ',' :: newLine (depth + 1) ++ prettyChars (depth + 1) item ++ prettyItems depth rest

/-- The members after the first, and the brace on a line of its own. -/
def prettyMembers (depth : Nat) : List (String × Json) → List Char
  | [] => newLine depth ++ ['\x7d']
  | (key, value) :: rest =>
    ',' :: newLine (depth + 1) ++ stringChars key ++ ':' :: ' ' ::
      prettyChars (depth + 1) value ++ prettyMembers depth rest

end

/-- The compact text of a value. -/
def compact (j : Json) : String := String.ofList j.chars

/-- The indented text of a value. -/
def pretty (j : Json) : String := String.ofList (prettyChars 0 j)

end Json

end AnalysisBrowser
