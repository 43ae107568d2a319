import AnalysisBrowser.Json.Value
import AnalysisBrowser.Json.Decoder
import AnalysisBrowser.Tally

/-!
# Tokens

The token stream of one analysis run and the errors of the lexical stage, with their JSON forms.
-/
namespace AnalysisBrowser

open Json (Decoder Field Schema)

/-- The kinds of tokens. -/
inductive TokenType where
  | reservedWord
  | identifier
  | number
  | operator
  | delimiter
  | syntaxError
  | endOfFile
  deriving DecidableEq, Repr

namespace TokenType

def all : List TokenType :=
  [.reservedWord, .identifier, .number, .operator, .delimiter, .syntaxError, .endOfFile]

/-- The name of a kind in JSON. -/
def name : TokenType → String
  | .reservedWord => "RESERVED_WORD"
  | .identifier => "IDENTIFIER"
  | .number => "NUMBER"
  | .operator => "OPERATOR"
  | .delimiter => "DELIMITER"
  | .syntaxError => "SYNTAX_ERROR"
  | .endOfFile => "EOF"

/-- The name of a kind for readers. -/
def label : TokenType → String
  | .reservedWord => "Reserved word"
  | .identifier => "Identifier"
  | .number => "Number"
  | .operator => "Operator"
  | .delimiter => "Delimiter"
  | .syntaxError => "Syntax error"
  | .endOfFile => "End of file"

/-- The kinds by name. -/
def variants : List (String × TokenType) := all.map fun t => (t.name, t)

theorem lookup_name (t : TokenType) : variants.lookup t.name = some t := by
  cases t <;> decide

/-- The cause when a name is no kind. -/
def ofName (name : String) : Except Json.Cause TokenType :=
  match variants.lookup name with
  | some t => .ok t
  | none => .error (.unknownVariant name (variants.map Prod.fst))

end TokenType

/-- One token. -/
structure Token where
  type : TokenType
  value : String
  line : UInt64
  position : UInt64
  deriving DecidableEq, Repr

namespace Token

def toJson (t : Token) : Json :=
  .object [("type", .string t.type.name), ("value", .string t.value), ("line", .word t.line),
    ("position", .word t.position)]

def schema : Schema Token where
  name := "Token"
  fields :=
    [ .mandatory "type" (Decoder.choice TokenType.variants) fun type t => { t with type }
    , .mandatory "value" Decoder.text fun value t => { t with value }
    , .mandatory "line" Decoder.count fun line t => { t with line }
    , .mandatory "position" Decoder.count fun position t => { t with position } ]
  blank := ⟨.endOfFile, "", 0, 0⟩

def decode : Decoder Token := schema.decode

/-- How many tokens of each kind a stream has, in order of first occurrence. -/
def countByType (tokens : List Token) : Tally TokenType := Tally.ofList (tokens.map type)

end Token

/-- An error of the lexical stage. -/
structure LexicalError where
  message : String
  line : UInt64
  position : UInt64
  deriving DecidableEq, Repr

namespace LexicalError

def toJson (e : LexicalError) : Json :=
  .object [("message", .string e.message), ("line", .word e.line), ("position", .word e.position)]

def schema : Schema LexicalError where
  name := "LexicalError"
  fields :=
    [ .mandatory "message" Decoder.text fun message e => { e with message }
    , .mandatory "line" Decoder.count fun line e => { e with line }
    , .mandatory "position" Decoder.count fun position e => { e with position } ]
  blank := ⟨"", 0, 0⟩

def decode : Decoder LexicalError := schema.decode

end LexicalError

end AnalysisBrowser
