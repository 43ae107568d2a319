import AnalysisBrowser.Model.Result

/-!
# Messages of the analyzer

The bodies of requests and the answers of the narrower endpoints, with their JSON forms.
-/
namespace AnalysisBrowser

open Json (Decoder Field Schema)

/-- The constructs that can be validated on their own. -/
inductive StructureType where
  | forLoop
  | function
  | variableDeclaration
  deriving DecidableEq, Repr

namespace StructureType

def all : List StructureType := [.forLoop, .function, .variableDeclaration]

/-- The name of a construct. -/
def name : StructureType → String
  | .forLoop => "for_loop"
  | .function => "function"
  | .variableDeclaration => "variable_declaration"

/-- The constructs by name. -/
def variants : List (String × StructureType) := all.map fun t => (t.name, t)

/-- The construct with a name. -/
def ofName? (name : String) : Option StructureType := variants.lookup name

/-- The wording for a name of no construct. -/
def unknownMessage (s : String) : String :=
  "unknown structure " ++ Text.quoted s ++
    ", must be 'for_loop', 'function' or 'variable_declaration'"

/-- Reads a construct. -/
def decode : Decoder StructureType := Decoder.choice variants

end StructureType

/-- The body of a request for an analysis. -/
def analysisRequest (code : String) : Json := .object [("code", .string code)]

/-- The body of a request for a validation. -/
def validationRequest (code : String) (structureType : StructureType) : Json :=
  .object [("code", .string code), ("structureType", .string structureType.name)]

/-- The result of validating one construct. -/
structure StructureValidation where
  structureType : String
  isValid : Bool
  structureErrors : List SyntaxFinding
  generalErrors : List SyntaxFinding
  ast : Node
  deriving Repr

namespace StructureValidation

def toJson (v : StructureValidation) : Json :=
  .object
    [("structureType", .string v.structureType), ("isValid", .bool v.isValid),
      ("structureErrors", .list SyntaxFinding.toJson v.structureErrors),
      ("generalErrors", .list SyntaxFinding.toJson v.generalErrors), ("ast", v.ast.toJson)]

def schema : Schema StructureValidation where
  name := "StructureValidation"
  fields :=
    [ .defaulted "structureType" Decoder.text fun structureType v => { v with structureType }
    , .defaulted "isValid" Decoder.flag fun isValid v => { v with isValid }
    , .defaulted "structureErrors" (nullableList SyntaxFinding.decode)
        fun structureErrors v => { v with structureErrors }
    , .defaulted "generalErrors" (nullableList SyntaxFinding.decode)
        fun generalErrors v => { v with generalErrors }
    , .defaulted "ast" nullableNode fun ast v => { v with ast } ]
  blank := ⟨"", false, [], [], Node.empty⟩

/-- Reads the result of a validation. -/
def decode : Decoder StructureValidation := schema.decode

end StructureValidation

/-- The summary that the analyzer sends along with a tree. -/
structure RemoteSummary where
  nodeType : String
  nodeValue : String
  childCount : UInt64
  hasErrors : Bool
  nodeTypeCounts : Json.Entries UInt64
  depth : UInt64
  deriving Repr

namespace RemoteSummary

def toJson (s : RemoteSummary) : Json :=
  .object
    [("nodeType", .string s.nodeType), ("nodeValue", .string s.nodeValue),
      ("childCount", .word s.childCount), ("hasErrors", .bool s.hasErrors),
      ("nodeTypeCounts", s.nodeTypeCounts.toJson .word),
      ("depth", .word s.depth)]

def schema : Schema RemoteSummary where
  name := "RemoteAstSummary"
  fields :=
    [ .defaulted "nodeType" Decoder.text fun nodeType s => { s with nodeType }
    , .defaulted "nodeValue" Decoder.text fun nodeValue s => { s with nodeValue }
    , .defaulted "childCount" Decoder.count fun childCount s => { s with childCount }
    , .defaulted "hasErrors" Decoder.flag fun hasErrors s => { s with hasErrors }
    , .defaulted "nodeTypeCounts" (Decoder.map Decoder.count)
        fun nodeTypeCounts s => { s with nodeTypeCounts }
    , .defaulted "depth" Decoder.count fun depth s => { s with depth } ]
  blank := ⟨"", "", 0, false, .empty, 0⟩

def decode : Decoder RemoteSummary := schema.decode

end RemoteSummary

/-- The answer of the endpoint for trees. -/
structure AstResponse where
  ast : Node
  isValid : Bool
  summary : Option RemoteSummary
  deriving Repr

namespace AstResponse

def toJson (r : AstResponse) : Json :=
  .object
    [("ast", r.ast.toJson), ("isValid", .bool r.isValid),
      ("summary", (r.summary.map RemoteSummary.toJson).getD .null)]

def schema : Schema AstResponse where
  name := "AstResponse"
  fields :=
    [ .defaulted "ast" nullableNode fun ast r => { r with ast }
    , .defaulted "isValid" Decoder.flag fun isValid r => { r with isValid }
    , .defaulted "summary" (Decoder.optional RemoteSummary.decode)
        fun summary r => { r with summary } ]
  blank := ⟨Node.empty, false, none⟩

/-- Reads the answer of the endpoint for trees. -/
def decode : Decoder AstResponse := schema.decode

end AstResponse

/-- The answer of the endpoint for symbol tables. -/
structure SymbolTableResponse where
  symbolTable : List Symbol
  symbolCount : UInt64
  semanticErrors : List SemanticFinding
  deriving Repr

namespace SymbolTableResponse

def toJson (r : SymbolTableResponse) : Json :=
  .object
    [("symbolTable", .list Symbol.toJson r.symbolTable), ("symbolCount", .word r.symbolCount),
      ("semanticErrors", .list SemanticFinding.toJson r.semanticErrors)]

def schema : Schema SymbolTableResponse where
  name := "SymbolTableResponse"
  fields :=
    [ .defaulted "symbolTable" (nullableList Symbol.decode)
        fun symbolTable r => { r with symbolTable }
    , .defaulted "symbolCount" Decoder.count fun symbolCount r => { r with symbolCount }
    , .defaulted "semanticErrors" (nullableList SemanticFinding.decode)
        fun semanticErrors r => { r with semanticErrors } ]
  blank := ⟨[], 0, []⟩

/-- Reads the answer of the endpoint for symbol tables. -/
def decode : Decoder SymbolTableResponse := schema.decode

end SymbolTableResponse

end AnalysisBrowser
