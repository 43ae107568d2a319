import AnalysisBrowser.Session
import AnalysisBrowser.Tree.Drawing

/-!
# Views as documents

The views of a session as data for other programs. A document and the page of the same view are
made from the same rows.
-/
namespace AnalysisBrowser

/-- The version that reports carry. -/
def version : String := "0.1.0"

/-- One visible row of the tree. -/
structure TreeEntry where
  path : String
  depth : Nat
  nodeType : Option String
  label : String
  value : Option String
  line : UInt64
  position : UInt64
  hasChildren : Bool
  expanded : Bool
  isLastSibling : Bool
  attributes : List (String × String)
  deriving DecidableEq, Repr

namespace TreeEntry

def ofRow (e : Expansion) (r : VisibleRow) : TreeEntry where
  path := r.path.text
  depth := r.depth
  nodeType := r.node.rawType?
  label := r.node.label
  value := r.node.displayValue?
  line := r.node.line
  position := r.node.position
  hasChildren := r.node.hasChildren
  expanded := r.node.hasChildren && e.isExpanded r.path
  isLastSibling := r.isLastSibling
  attributes := r.node.attributePairs

def toJson (t : TreeEntry) : Json :=
  .object
    ([("path", .string t.path), ("depth", .count t.depth)] ++
      Json.member? "nodeType" .string t.nodeType ++ [("label", .string t.label)] ++
      Json.member? "value" .string t.value ++
      [("line", .word t.line), ("position", .word t.position),
        ("hasChildren", .bool t.hasChildren), ("expanded", .bool t.expanded),
        ("isLastSibling", .bool t.isLastSibling)] ++
      if t.attributes.isEmpty then [] else [("attributes", .pairs .string t.attributes)])

end TreeEntry

/-- The tree as data. -/
structure TreeDocument where
  available : Bool
  summary : Option TreeSummary
  nodes : List TreeEntry
  deriving Repr

namespace TreeDocument

def ofView (view : TreeView) (e : Expansion) : TreeDocument where
  available := view.isAvailable
  summary := view.summary
  nodes := (view.visible e).map (TreeEntry.ofRow e)

def toJson (d : TreeDocument) : Json :=
  .object
    ([("available", .bool d.available)] ++ Json.member? "summary" TreeSummary.toJson d.summary ++
      [("nodes", .list TreeEntry.toJson d.nodes)])

end TreeDocument

/-- The symbol table as data. -/
structure SymbolsDocument where
  status : String
  statistics : Option SymbolStatistics
  facets : Option Facets
  symbols : List Symbol
  deriving Repr

namespace SymbolsDocument

def ofView (filter : SymbolFilter) : SymbolView → SymbolsDocument
  | .noSymbols => ⟨"no_symbols", none, none, []⟩
  | .table symbols =>
    ⟨"ok", some (.ofTable symbols), some (.ofTable symbols), filter.apply symbols⟩

def toJson (d : SymbolsDocument) : Json :=
  .object
    ([("status", .string d.status)] ++
      Json.member? "statistics" SymbolStatistics.toJson d.statistics ++
      Json.member? "facets" Facets.toJson d.facets ++ [("symbols", .list Symbol.toJson d.symbols)])

end SymbolsDocument

/-- The error report as data. -/
structure ErrorsDocument where
  status : String
  origin : String
  total : Nat
  syntaxCounts : SeverityCounts
  semanticCounts : SeverityCounts
  combined : SeverityCounts
  errors : List TaggedFinding
  syntaxTypes : Tally String
  semanticTypes : Tally String
  hints : List String
  deriving Repr

namespace ErrorsDocument

def ofReport (origin : OriginFilter) : ErrorReport → ErrorsDocument
  | .noErrors => ⟨"no_errors", origin.name, 0, .zero, .zero, .zero, [], [], [], []⟩
  | .report s =>
    ⟨"ok", origin.name, s.total, s.syntaxCounts, s.semanticCounts, s.combined, s.view origin,
      s.syntaxTypes, s.semanticTypes, s.hints⟩

def toJson (d : ErrorsDocument) : Json :=
  .object
    [("status", .string d.status), ("origin", .string d.origin), ("total", .count d.total),
      ("syntax", d.syntaxCounts.toJson), ("semantic", d.semanticCounts.toJson),
      ("combined", d.combined.toJson), ("errors", .list TaggedFinding.toJson d.errors),
      ("syntaxTypes", typeCountsJson d.syntaxTypes),
      ("semanticTypes", typeCountsJson d.semanticTypes), ("hints", .list .string d.hints)]

end ErrorsDocument

/-- The token stream as data. -/
structure TokensDocument where
  tokens : List Token
  lexicalErrors : List LexicalError
  deriving Repr

namespace TokensDocument

def ofModel (m : ResultModel) : TokensDocument := ⟨m.tokens, m.lexicalErrors⟩

def toJson (d : TokensDocument) : Json :=
  .object
    [("count", .count d.tokens.length),
      ("byType",
        .list (fun (t, n) => .object [("type", .string t.name), ("count", .count n)])
          (Token.countByType d.tokens)),
      ("tokens", .list Token.toJson d.tokens),
      ("lexicalErrors", .list LexicalError.toJson d.lexicalErrors)]

end TokensDocument

/-- Everything one run produced, as data. -/
structure AnalysisDocument where
  isValid : Bool
  contractViolations : List ContractViolation
  tokens : TokensDocument
  tree : TreeDocument
  symbols : SymbolsDocument
  errors : ErrorsDocument
  deriving Repr

namespace AnalysisDocument

def ofSession (s : Session) (filter : SymbolFilter) (origin : OriginFilter) : AnalysisDocument where
  isValid := s.model.isValid
  contractViolations := s.model.contractViolations
  tokens := .ofModel s.model
  tree := .ofView s.tree s.expansion
  symbols := .ofView filter s.symbols
  errors := .ofReport origin s.errors

def toJson (d : AnalysisDocument) : Json :=
  .object
    ([("version", .string version), ("isValid", .bool d.isValid)] ++
      (if d.contractViolations.isEmpty then []
        else [("contractViolations", .list ContractViolation.toJson d.contractViolations)]) ++
      [("tokens", d.tokens.toJson), ("tree", d.tree.toJson), ("symbols", d.symbols.toJson),
        ("errors", d.errors.toJson)])

end AnalysisDocument

def printJson (j : Json) : String := j.pretty ++ "\n"

end AnalysisBrowser
