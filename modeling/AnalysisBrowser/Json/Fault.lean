import AnalysisBrowser.Number.Shortest
import AnalysisBrowser.Number.Literal
import AnalysisBrowser.Text.Joining
import AnalysisBrowser.Text.Quoted

/-!
# What can be wrong with a JSON text

A fault is a cause and the place in the text where it became clear. A cause is either a flaw of
the text itself or a value that does not have the form its reader expects. The wording of every
cause is in `Cause.message`.
-/
namespace AnalysisBrowser.Json

/-- A place in a text: the line, counted from one, and the bytes consumed on it. -/
structure Position where
  line : Nat
  column : Nat
  deriving DecidableEq, Repr

namespace Position

/-- The place before the first character. -/
def origin : Position := ⟨1, 0⟩

/-- So many bytes further on the same line. -/
def right (p : Position) (n : Nat) : Position := ⟨p.line, p.column + n⟩

/-- The place after a character. -/
def after (p : Position) (c : Char) : Position :=
  if c = '\n' then ⟨p.line + 1, 0⟩ else p.right c.utf8Size

/-- The place after the first byte of a character. -/
def touch (p : Position) (c : Char) : Position :=
  if c = '\n' then ⟨p.line + 1, 0⟩ else p.right 1

/-- The place after the first byte of what follows, if anything does. -/
def peek (p : Position) : List Char → Position
  | [] => p
  | c :: _ => p.touch c

/-- The place after all of the characters. -/
def afterAll (p : Position) (cs : List Char) : Position := cs.foldl after p

end Position

/-- A flaw of the text itself. -/
inductive Flaw where
  | endInValue
  | endInObject
  | endInArray
  | endInString
  | expectedValue
  | expectedColon
  | expectedMemberEnd
  | expectedItemEnd
  | expectedWord
  | keyNotString
  | trailingComma
  | trailingCharacters
  | invalidNumber
  | numberOutOfRange
  | invalidEscape
  | loneSurrogate
  | unfinishedPair
  | controlCharacter
  | nestedTooDeep
  deriving DecidableEq, Repr

/-- The wording of each flaw. -/
def Flaw.message : Flaw → String
  | .endInValue => "EOF while parsing a value"
  | .endInObject => "EOF while parsing an object"
  | .endInArray => "EOF while parsing a list"
  | .endInString => "EOF while parsing a string"
  | .expectedValue => "expected value"
  | .expectedColon => "expected `:`"
  | .expectedMemberEnd => "expected `,` or `\x7d`"
  | .expectedItemEnd => "expected `,` or `]`"
  | .expectedWord => "expected ident"
  | .keyNotString => "key must be a string"
  | .trailingComma => "trailing comma"
  | .trailingCharacters => "trailing characters"
  | .invalidNumber => "invalid number"
  | .numberOutOfRange => "number out of range"
  | .invalidEscape => "invalid escape"
  | .loneSurrogate => "lone leading surrogate in hex escape"
  | .unfinishedPair => "unexpected end of hex escape"
  | .controlCharacter => "control character (\\u0000-\\u001F) found while parsing a string"
  | .nestedTooDeep => "recursion limit exceeded"

/-- What stands in the text where something else was expected. -/
inductive Found where
  | null
  | bool (b : Bool)
  | natural (n : Nat)
  | negative (n : Nat)
  | real (x : Float)
  | string (s : String)
  | sequence
  | map

/-- The wording of what was found. -/
def Found.phrase : Found → String
  | .null => "null"
  | .bool true => "boolean `true`"
  | .bool false => "boolean `false`"
  | .natural n => "integer `" ++ Number.decimal n ++ "`"
  | .negative n => "integer `-" ++ Number.decimal n ++ "`"
  | .real x => "floating point `" ++ Number.floatText .scientific x ++ "`"
  | .string s => "string " ++ Text.quoted s
  | .sequence => "sequence"
  | .map => "map"

/-- What a reader expects. -/
inductive Expectation where
  | text
  | count
  | flag
  | sequence
  | map
  | unit
  | variantName
  | record (name : String)
  | tagged (name : String)
  deriving DecidableEq, Repr

/-- The wording of what was expected. -/
def Expectation.phrase : Expectation → String
  | .text => "a string"
  | .count => "usize"
  | .flag => "a boolean"
  | .sequence => "a sequence"
  | .map => "a map"
  | .unit => "unit"
  | .variantName => "variant identifier"
  | .record name => "struct " ++ name
  | .tagged name => "internally tagged enum " ++ name

/-- Why a text cannot be read as a value of some form. -/
inductive Cause where
  | flaw (flaw : Flaw)
  | wrongKind (found : Found) (expected : Expectation)
  | wrongValue (found : Found) (expected : Expectation)
  | unknownVariant (name : String) (known : List String)
  | missingField (name : String)
  | duplicateField (name : String)
  | recordTooShort (length : Nat) (name : String) (size : Nat)
  | contentTooLong (length : Nat) (size : Nat)

/-- A name between backquotes. -/
def named (s : String) : String := "`" ++ s ++ "`"

/-- The wording of a choice between names. -/
def choicePhrase : List String → String
  | [] => "there are no variants"
  | [a] => "expected " ++ named a
  | [a, b] => "expected " ++ named a ++ " or " ++ named b
  | all => "expected one of " ++ Text.joinWith ", " (all.map named)

/-- A count of elements. -/
def elements (n : Nat) : String :=
  Number.decimal n ++ if n = 1 then " element" else " elements"

/-- The wording of each cause. -/
def Cause.message : Cause → String
  | .flaw f => f.message
  | .wrongKind found expected => "invalid type: " ++ found.phrase ++ ", expected " ++ expected.phrase
  | .wrongValue found expected =>
    "invalid value: " ++ found.phrase ++ ", expected " ++ expected.phrase
  | .unknownVariant name known => "unknown variant " ++ named name ++ ", " ++ choicePhrase known
  | .missingField name => "missing field " ++ named name
  | .duplicateField name => "duplicate field " ++ named name
  | .recordTooShort length name size =>
    "invalid length " ++ Number.decimal length ++ ", expected struct " ++ name ++ " with " ++
      elements size
  | .contentTooLong length size =>
    "invalid length " ++ Number.decimal length ++ ", expected " ++ elements size ++ " in sequence"

/-- A cause and its place, where one is known. -/
structure Fault where
  cause : Cause
  place : Option Position

/-- A flaw at a place. -/
def Flaw.at (f : Flaw) (p : Position) : Fault := ⟨.flaw f, some p⟩

/-- A cause at a place. -/
def Cause.at (c : Cause) (p : Position) : Fault := ⟨c, some p⟩

/-- The wording of a fault. -/
def Fault.message (f : Fault) : String :=
  match f.place with
  | none => f.cause.message
  | some p =>
    f.cause.message ++ " at line " ++ Number.decimal p.line ++ " column " ++
      Number.decimal p.column

end AnalysisBrowser.Json
