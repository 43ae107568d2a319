import AnalysisBrowser.Model.Token
import AnalysisBrowser.Model.Finding
import AnalysisBrowser.Model.Node

/-!
# Results

Everything one analysis run produced. A result is put together once from the two payloads of the
analyzer and is never patched: contradictions in it are listed, not repaired.
-/
namespace AnalysisBrowser

open Json (Decoder Field Schema)

/-- An array that may be null. -/
def nullableList {α : Type} (decode : Decoder α) : Decoder (List α) :=
  Decoder.nullAs [] (Decoder.list decode)

/-- A node that may be null. -/
def nullableNode : Decoder Node := Decoder.nullAs Node.empty Node.decode

/-- The payload of the lexical stage. -/
structure LexicalAnalysis where
  tokens : List Token
  errors : List LexicalError
  deriving Repr

namespace LexicalAnalysis

def empty : LexicalAnalysis := ⟨[], []⟩

def toJson (a : LexicalAnalysis) : Json :=
  .object [("tokens", .list Token.toJson a.tokens), ("errors", .list LexicalError.toJson a.errors)]

def schema : Schema LexicalAnalysis where
  name := "LexicalAnalysis"
  fields :=
    [ .defaulted "tokens" (nullableList Token.decode) fun tokens a => { a with tokens }
    , .defaulted "errors" (nullableList LexicalError.decode) fun errors a => { a with errors } ]
  blank := empty

/-- Reads the payload of the lexical stage. -/
def decode : Decoder LexicalAnalysis := schema.decode

end LexicalAnalysis

/-- The payload of the later stages. -/
structure SyntaxAnalysis where
  ast : Node
  syntaxErrors : List SyntaxFinding
  semanticErrors : List SemanticFinding
  symbolTable : List Symbol
  isValid : Bool
  deriving Repr

namespace SyntaxAnalysis

def empty : SyntaxAnalysis := ⟨Node.empty, [], [], [], false⟩

def toJson (a : SyntaxAnalysis) : Json :=
  .object
    [("ast", a.ast.toJson), ("syntaxErrors", .list SyntaxFinding.toJson a.syntaxErrors),
      ("semanticErrors", .list SemanticFinding.toJson a.semanticErrors),
      ("symbolTable", .list Symbol.toJson a.symbolTable), ("isValid", .bool a.isValid)]

def schema : Schema SyntaxAnalysis where
  name := "SyntaxAnalysis"
  fields :=
    [ .defaulted "ast" nullableNode fun ast a => { a with ast }
    , .defaulted "syntaxErrors" (nullableList SyntaxFinding.decode)
        fun syntaxErrors a => { a with syntaxErrors }
    , .defaulted "semanticErrors" (nullableList SemanticFinding.decode)
        fun semanticErrors a => { a with semanticErrors }
    , .defaulted "symbolTable" (nullableList Symbol.decode)
        fun symbolTable a => { a with symbolTable }
    , .defaulted "isValid" Decoder.flag fun isValid a => { a with isValid } ]
  blank := empty

/-- Reads the payload of the later stages. -/
def decode : Decoder SyntaxAnalysis := schema.decode

end SyntaxAnalysis

/-- The artifacts of one analysis run. -/
structure ResultModel where
  tokens : List Token
  lexicalErrors : List LexicalError
  ast : Node
  syntaxErrors : List SyntaxFinding
  semanticErrors : List SemanticFinding
  symbolTable : List Symbol
  isValid : Bool
  deriving Repr

/-- A finding of severity error in a result that is marked valid. -/
structure ContractViolation where
  origin : Origin
  line : UInt64
  position : UInt64
  errorType : String
  deriving DecidableEq, Repr

namespace ContractViolation

/-- The violation that a finding of a stage makes. -/
def ofFinding (origin : Origin) (f : Finding) : ContractViolation :=
  ⟨origin, f.line, f.position, f.errorType⟩

/-- The wording of a violation. -/
def message (v : ContractViolation) : String :=
  "model marked valid but has " ++ v.origin.name ++ " error " ++ v.errorType ++ " at " ++
    Number.decimal v.line.toNat ++ ":" ++ Number.decimal v.position.toNat

def toJson (v : ContractViolation) : Json :=
  .object [("origin", .string v.origin.name), ("line", .word v.line),
    ("position", .word v.position), ("errorType", .string v.errorType)]

end ContractViolation

namespace ResultModel

def empty : ResultModel := ⟨[], [], Node.empty, [], [], [], false⟩

/-- The result made of the two payloads of one run. -/
def assemble (lexical : LexicalAnalysis) (later : SyntaxAnalysis) : ResultModel where
  tokens := lexical.tokens
  lexicalErrors := lexical.errors
  ast := later.ast
  syntaxErrors := later.syntaxErrors
  semanticErrors := later.semanticErrors
  symbolTable := later.symbolTable
  isValid := later.isValid

/-- The result of a run without a token stream. -/
def ofSyntax (later : SyntaxAnalysis) : ResultModel := assemble .empty later

def toJson (m : ResultModel) : Json :=
  .object
    [("tokens", .list Token.toJson m.tokens),
      ("lexicalErrors", .list LexicalError.toJson m.lexicalErrors), ("ast", m.ast.toJson),
      ("syntaxErrors", .list SyntaxFinding.toJson m.syntaxErrors),
      ("semanticErrors", .list SemanticFinding.toJson m.semanticErrors),
      ("symbolTable", .list Symbol.toJson m.symbolTable), ("isValid", .bool m.isValid)]

def schema : Schema ResultModel where
  name := "ResultModel"
  fields :=
    [ .defaulted "tokens" (nullableList Token.decode) fun tokens m => { m with tokens }
    , .defaulted "lexicalErrors" (nullableList LexicalError.decode)
        fun lexicalErrors m => { m with lexicalErrors }
    , .defaulted "ast" nullableNode fun ast m => { m with ast }
    , .defaulted "syntaxErrors" (nullableList SyntaxFinding.decode)
        fun syntaxErrors m => { m with syntaxErrors }
    , .defaulted "semanticErrors" (nullableList SemanticFinding.decode)
        fun semanticErrors m => { m with semanticErrors }
    , .defaulted "symbolTable" (nullableList Symbol.decode)
        fun symbolTable m => { m with symbolTable }
    , .defaulted "isValid" Decoder.flag fun isValid m => { m with isValid } ]
  blank := empty

def decode : Decoder ResultModel := schema.decode

/-- The syntax findings in their common form. -/
def syntaxFindings (m : ResultModel) : List Finding := m.syntaxErrors.map SyntaxFinding.toFinding

/-- The semantic findings in their common form. -/
def semanticFindings (m : ResultModel) : List Finding :=
  m.semanticErrors.map SemanticFinding.toFinding

/-- The findings of severity error, as violations. -/
def violationsIn (origin : Origin) (findings : List Finding) : List ContractViolation :=
  (findings.filter fun f => f.severity = some .error).map (ContractViolation.ofFinding origin)

/-- The findings that contradict the mark of validity: none where the result is marked invalid. -/
def contractViolations (m : ResultModel) : List ContractViolation :=
  if m.isValid then
    violationsIn .syntactic m.syntaxFindings ++ violationsIn .semantic m.semanticFindings
  else []

end ResultModel

end AnalysisBrowser
