import AnalysisBrowser.Client.Wire
import AnalysisBrowser.Text.Padding
import AnalysisBrowser.Text.Styled
import AnalysisBrowser.View.Document

/-!
# Views as pages

The views of a session for a terminal. Every page is a list of lines of painted pieces, so colour
never decides what a page says. Cells are padded before they are painted.
-/
namespace AnalysisBrowser.Page

open Text (Line Page Paint Piece padLeft padRight)
open Number (decimal)

/-- A line without anything on it. -/
def gap : Line := []

/-- A place in the source. -/
def place (line position : UInt64) : String :=
  decimal line.toNat ++ ":" ++ decimal position.toNat

/-- The ending of a noun for a number of things. -/
def plural (n : Nat) : String := if n = 1 then "" else "s"

/-- The heading of every run. -/
def header (source : String) : Page :=
  [ gap
  , [.plain "  ", .painted [.bold, .cyan] "astlens", .plain (" v" ++ version)]
  , gap
  , [.plain "  ", .painted [.dimmed] "Source: ", .plain source]
  , gap ]

/-- The mark of validity. -/
def validity (isValid : Bool) : Piece :=
  if isValid then .painted [.green] "✓ VALID" else .painted [.red] "✗ INVALID"

/-- Whether a result is valid, and what contradicts that. -/
def status (isValid : Bool) (violations : List ContractViolation) : Page :=
  [[.plain "  ", validity isValid]] ++
    violations.map (fun v =>
      [.plain "    ", .painted [.bold, .yellow] "!", .plain " ", .painted [.yellow] v.message]) ++
    [gap]

/-- What a row calls its node: the label of a known type, the raw type of an unknown one. -/
def nodeLabel (n : Node) : Piece :=
  match n.type?.map NodeType.category with
  | some .program => .painted [.bold, .white] n.label
  | some .declaration => .painted [.blue] n.label
  | some .expression => .painted [.yellow] n.label
  | some .statement => .painted [.cyan] n.label
  | some .type => .painted [.magenta] n.label
  | some .error => .painted [.bold, .red] n.label
  | none => .painted [.dimmed] (n.rawType?.getD n.label)

def treeRow (r : DrawnRow) : Line :=
  [.plain "    ", .painted [.dimmed] r.guides, .painted [.dimmed] r.connector,
    .painted [.dimmed] r.marker, .plain " ", nodeLabel r.node] ++
    (match r.node.displayValue? with
      | some value => [.plain " ", .painted [.green] (Text.quoted value)]
      | none => []) ++
    [.plain " ", .painted [.dimmed] (place r.node.line r.node.position)] ++
    r.node.attributePairs.flatMap fun (k, v) =>
      [.plain " ", .painted [.magenta] (k ++ "=" ++ Text.quoted v)]

/-- The tree, one line for each row. -/
def tree (view : TreeView) (e : Expansion) : Page :=
  [[.plain "  ", .painted [.bold] "Syntax tree"], gap] ++
    (if view.isAvailable then (view.drawn e).map treeRow
      else [[.plain "    ", .painted [.dimmed] "No syntax tree to show"]]) ++
    [gap]

/-- A named fact of the summary. -/
def fact (name value : String) : Line := [.plain ("    " ++ padRight 14 name ++ " " ++ value)]

/-- Puts a count before the first one that is smaller. -/
def insertByCount (entry : NodeType × Nat) : Tally NodeType → Tally NodeType
  | [] => [entry]
  | other :: rest =>
    if other.2 ≤ entry.2 then entry :: other :: rest else other :: insertByCount entry rest

/-- The counts from the greatest down; equal ones keep their order. -/
def sortByCount : Tally NodeType → Tally NodeType
  | [] => []
  | entry :: rest => insertByCount entry (sortByCount rest)

def treeSummary (s : TreeSummary) : Page :=
  [ [.plain "  ", .painted [.bold] "Tree summary:"]
  , fact "Root:" s.nodeType
  , fact "Children:" (decimal s.childCount)
  , fact "Nodes:" (decimal s.nodeCount)
  , fact "Max depth:" (decimal s.maxDepth)
  , fact "Position:" (place s.line s.position) ] ++
    (if s.hasErrors then [[.plain "    ", .painted [.red] "Contains syntax error nodes"]] else []) ++
    (sortByCount s.nodeTypeCounts).map (fun (t, n) =>
      [.plain ("      " ++ padRight 24 t.label ++ " " ++ padLeft 4 (decimal n))]) ++
    [gap]

/-- The counts over the whole table. -/
def statisticsLine (s : SymbolStatistics) : Line :=
  [ .plain "    ", .painted [.bold] ("total " ++ decimal s.total)
  , .plain "  ", .painted [.green] ("used " ++ decimal s.used)
  , .plain "  ", .painted [.yellow] ("unused " ++ decimal s.unused)
  , .plain "  "
  , .painted [.dimmed]
      ("variables " ++ decimal s.variableCount ++ "  functions " ++ decimal s.functionCount ++
        "  classes " ++ decimal s.classCount ++ "  interfaces " ++ decimal s.interfaceCount) ]

/-- What could be filtered by. -/
def facetsLine (f : Facets) : Line :=
  [ .plain "    "
  , .painted [.dimmed]
      ("filters available: kinds [" ++ Text.joinWith ", " (f.kinds.map SymbolKind.name) ++
        "], scopes [" ++ Text.joinWith ", " f.scopes ++ "]") ]

/-- The heading of the columns. -/
def symbolColumns : Line :=
  [ .plain "    "
  , .painted [.dimmed]
      (padRight 20 "NAME" ++ " " ++ padRight 14 "TYPE" ++ " " ++ padRight 11 "KIND" ++ " " ++
        padRight 14 "SCOPE" ++ " " ++ padRight 9 "POS" ++ " STATUS") ]

/-- One row of the symbol table. -/
def symbolRow (s : Symbol) : Line :=
  [ .plain "    ", .painted [.bold] (padRight 20 s.name)
  , .plain (" " ++ padRight 14 s.type ++ " " ++ padRight 11 s.kind.label ++ " ")
  , .painted [.blue] (padRight 14 s.scope)
  , .plain (" " ++ padRight 9 (place s.line s.position) ++ " ")
  , if s.used then .painted [.green] "used" else .painted [.yellow] "unused" ]

def attributesRow (s : Symbol) : Line :=
  [ .plain ("      " ++ padRight 18 s.name ++ " ")
  , .painted [.magenta]
      (Text.joinWith " " (s.attributePairs.map fun (k, v) => k ++ "=" ++ Text.quoted v)) ]

/-- The rows of a filtered table. -/
def symbolRows (shown : List Symbol) : Page :=
  if shown.isEmpty then
    [[.plain "    ", .painted [.dimmed] "No symbols match the current filters"], gap]
  else
    [symbolColumns] ++ shown.map symbolRow ++
      (match withAttributes shown with
        | [] => []
        | detailed =>
          [gap, [.plain "    ", .painted [.dimmed] "Attributes:"]] ++ detailed.map attributesRow) ++
      [gap]

/-- The symbol table through a filter. -/
def symbols (filter : SymbolFilter) : SymbolView → Page
  | .noSymbols =>
    [ [.plain "  ", .painted [.bold] "Symbol table"], gap
    , [.plain "    ", .painted [.dimmed] "No symbols in the table"], gap ]
  | .table all =>
    let shown := filter.apply all
    [ [.plain "  ", .painted [.bold] "Symbol table"
      , .plain (" (" ++ decimal shown.length ++ " symbol" ++ plural shown.length ++ "):")]
    , gap
    , statisticsLine (.ofTable all) ] ++
      (if filter.isActive then [facetsLine (.ofTable all)] else []) ++ [gap] ++ symbolRows shown

def severityMark : Option Severity → Piece
  | some .error => .painted [.red] "ERROR"
  | some .warning => .painted [.yellow] "WARN "
  | none => .painted [.yellow] "?    "

/-- The mark of a stage. -/
def originMark : Origin → Piece
  | .syntactic => .painted [.blue] (padRight 8 "syntax")
  | .semantic => .painted [.magenta] (padRight 8 "semantic")

/-- The indentation of what is said about a finding. -/
def margin : Piece := .plain "            "

/-- The detail of a finding. The second part shows only together with the first. -/
def detailLines : Detail → Page
  | .syntactic (some expected) found =>
    [[margin, .painted [.dimmed] "expected", .plain (" " ++ expected)] ++
      match found with
      | some f => [.plain ", ", .painted [.dimmed] "found", .plain (" " ++ f)]
      | none => []]
  | .semantic (some symbol) symbolType =>
    [[margin, .painted [.dimmed] "symbol", .plain (" " ++ symbol)] ++
      match symbolType with
      | some t => [.plain " ", .painted [.dimmed] ("(" ++ t ++ ")")]
      | none => []]
  | _ => []

/-- A finding in full. -/
def finding (t : TaggedFinding) : Page :=
  let f := t.finding
  [ [.plain "    ", severityMark f.severity, .plain " ", originMark t.origin, .plain " "
    , .painted [.dimmed] (padRight 21 f.errorType), .plain " "
    , .painted [.dimmed] (place f.line f.position)]
  , [margin, .plain f.message] ] ++ detailLines f.detail ++ [gap]

/-- Counts by type, with blanks in place of the underscores of a type. -/
def typeCounts (title : String) (types : Tally String) : Page :=
  if types.isEmpty then []
  else
    [[.plain "  ", .painted [.bold] (title ++ ":")]] ++
      types.map (fun (t, n) =>
        [.plain ("    " ++ padRight 28 (Text.replaceChar '_' ' ' t) ++ " " ++
          padLeft 3 (decimal n))]) ++
      [gap]

/-- The counts of one stream. -/
def countsLine (name : String) (c : SeverityCounts) : Line :=
  [ .plain ("    " ++ padRight 8 name ++ " "), .painted [.red] (decimal c.errors)
  , .plain " errors, ", .painted [.yellow] (decimal c.warnings), .plain " warnings" ]

def hintLines (hints : List String) : Page :=
  if hints.isEmpty then []
  else
    [[.plain "  ", .painted [.bold] "Hints:"]] ++ hints.map (fun h => [.plain ("    • " ++ h)]) ++
      [gap]

/-- The error report, for the chosen stages. -/
def errors (origin : OriginFilter) : ErrorReport → Page
  | .noErrors =>
    [ [.plain "  ", .painted [.bold] "Errors"], gap
    , [.plain "    ", .painted [.green] "✓ No syntax or semantic errors found"], gap ]
  | .report s =>
    let shown := s.view origin
    [ [.plain "  ", .painted [.bold] "Errors"
      , .plain (" (" ++ decimal s.total ++ " finding" ++ plural s.total ++ "):")]
    , gap
    , countsLine "syntax" s.syntaxCounts
    , countsLine "semantic" s.semanticCounts
    , gap ] ++
      (if origin = .all then []
        else
          [[.plain "    "
          , .painted [.dimmed]
              ("showing " ++ origin.name ++ " only (" ++ decimal shown.length ++ ")")], gap]) ++
      shown.flatMap finding ++
      typeCounts "Common syntax errors" s.syntaxTypes ++
      typeCounts "Common semantic errors" s.semanticTypes ++ hintLines s.hints

/-- One row of the token table. -/
def tokenRow (t : Token) : Line :=
  [ .plain "    ", .painted [.cyan] (padRight 16 t.type.label)
  , .plain (" " ++ padRight 20 t.value ++ " " ++ padLeft 6 (decimal t.line.toNat) ++ " " ++
      padLeft 6 (decimal t.position.toNat)) ]

/-- The errors of the lexical stage. -/
def lexicalErrors (errors : List LexicalError) : Page :=
  if errors.isEmpty then []
  else
    [[.plain "  ", .painted [.bold] "Lexical errors"
    , .plain (" (" ++ decimal errors.length ++ "):")]] ++
      errors.map (fun e =>
        [.plain "    ", .painted [.red] "ERROR", .plain " "
        , .painted [.dimmed] (place e.line e.position), .plain (" " ++ e.message)]) ++
      [gap]

/-- The token stream. -/
def tokens (d : TokensDocument) : Page :=
  (if d.tokens.isEmpty then
    [ [.plain "  ", .painted [.bold] "Tokens"], gap
    , [.plain "    ", .painted [.dimmed] "No tokens to show"], gap ]
  else
    [ [.plain "  ", .painted [.bold] "Tokens"
      , .plain (" (" ++ decimal d.tokens.length ++ " token" ++ plural d.tokens.length ++ "):")]
    , gap
    , [.plain "    "
      , .painted [.dimmed]
          (padRight 16 "TYPE" ++ " " ++ padRight 20 "VALUE" ++ " " ++ padLeft 6 "LINE" ++ " " ++
            padLeft 6 "POS")] ] ++
      d.tokens.map tokenRow ++ [gap]) ++
    lexicalErrors d.lexicalErrors

/-- The errors of one group of a validation. -/
def validationErrors (title : String) (errors : List SyntaxFinding) : Page :=
  if errors.isEmpty then []
  else
    [[.plain "  ", .painted [.bold] title, .plain (" (" ++ decimal errors.length ++ "):")]] ++
      (tag .syntactic (errors.map SyntaxFinding.toFinding)).flatMap finding

/-- The result of a validation. -/
def validation (v : StructureValidation) : Page :=
  [ [.plain "  ", .painted [.dimmed] "Structure:", .plain (" " ++ v.structureType ++ " ")
    , validity v.isValid]
  , gap ] ++
    validationErrors "Structure errors" v.structureErrors ++
    validationErrors "General errors" v.generalErrors

/-- Which services answer. -/
def health (results : List (String × Bool)) : Page :=
  results.map fun (service, healthy) =>
    [ .plain ("  " ++ padRight 10 service)
    , if healthy then .painted [.green] "UP" else .painted [.red] "DOWN" ]

/-- Everything one run produced. -/
def analysis (s : Session) (filter : SymbolFilter) (origin : OriginFilter) : Page :=
  status s.model.isValid s.model.contractViolations ++ tokens (.ofModel s.model) ++
    tree s.tree s.expansion ++ (s.tree.summary.map treeSummary).getD [] ++
    symbols filter s.symbols ++ errors origin s.errors

end AnalysisBrowser.Page
