import AnalysisBrowser.Run.Loading
import AnalysisBrowser.Run.Shown
import AnalysisBrowser.Run.Template

/-!
# Commands

One program for each command. Whether a run is in order depends on the result alone, never on how
it is shown: an analysis on its validity, findings on there being none and on validity, tokens on
the lexical errors, a validation on its own verdict, and health on both services.
-/
namespace AnalysisBrowser

/-- Everything about a result. -/
def runAnalyze (source : Source) (overrides : Overrides) (expandAll : Bool) : Run Report := do
  let (config, format) ← prepare overrides
  let model ← loadModel config.analyzer source
  let session ← openSession model config.view.expandDepth
  let session := if expandAll then session.expandAll else session
  let shown := Shown.inFormat format source.label
    (Page.analysis session .everything .all)
    (AnalysisDocument.ofSession session .everything .all).toJson
  return ⟨shown, model.isValid⟩

/-- A session with its whole tree expanded or collapsed. -/
def Session.bulk (s : Session) : Bulk → Session
  | .none => s
  | .expandAll => s.expandAll
  | .collapseAll => s.collapseAll

/-- Flips one node after another. A path that leads nowhere is passed over. -/
def toggleAll (s : Session) : List NodePath → Program Session
  | [] => .done s
  | p :: rest => do
    match p.resolve s.model.ast with
    | none => do
      Program.note .warn .cli ("no node at path " ++ p.text ++ ", ignoring")
      toggleAll s rest
    | some _ => do
      Program.note .info .cli
        (p.text ++ if s.expansion.toggled p then " expanded" else " collapsed")
      toggleAll (s.toggle p) rest

def treePage (s : Session) (summary : Bool) : Text.Page :=
  Page.tree s.tree s.expansion ++
    if summary then (s.tree.summary.map Page.treeSummary).getD [] else []

/-- The tree of a result. -/
def runTree (source : Source) (overrides : Overrides) (options : TreeOptions) : Run Report := do
  let (config, format) ← prepare overrides
  let model ← loadModel config.analyzer source
  let session ← openSession model (options.depth.getD config.view.expandDepth)
  let session ← toggleAll (session.bulk options.bulk) options.toggles
  let shown := Shown.inFormat format source.label (treePage session options.summary)
    (TreeDocument.ofView session.tree session.expansion).toJson
  return ⟨shown, true⟩

/-- The symbol table of a result. -/
def runSymbols (source : Source) (overrides : Overrides) (filter : SymbolFilter) : Run Report := do
  let (config, format) ← prepare overrides
  let model ← loadModel config.analyzer source
  let session ← openSession model config.view.expandDepth
  let shown := Shown.inFormat format source.label (Page.symbols filter session.symbols)
    (SymbolsDocument.ofView filter session.symbols).toJson
  return ⟨shown, true⟩

/-- Whether a report holds nothing. -/
def ErrorReport.isClear : ErrorReport → Bool
  | .noErrors => true
  | .report _ => false

/-- The findings of a result. -/
def runErrors (source : Source) (overrides : Overrides) (origin : OriginFilter) : Run Report := do
  let (config, format) ← prepare overrides
  let model ← loadModel config.analyzer source
  let session ← openSession model config.view.expandDepth
  let shown := Shown.inFormat format source.label (Page.errors origin session.errors)
    (ErrorsDocument.ofReport origin session.errors).toJson
  return ⟨shown, session.errors.isClear && model.isValid⟩

/-- The token stream of a result. -/
def runTokens (source : Source) (overrides : Overrides) : Run Report := do
  let (config, format) ← prepare overrides
  let model ← loadModel config.analyzer source
  let tokens := TokensDocument.ofModel model
  let shown := Shown.inFormat format source.label (Page.tokens tokens) tokens.toJson
  return ⟨shown, model.lexicalErrors.isEmpty⟩

/-- The validation of source code as one construct. -/
def runValidate (path : String) (structureType : StructureType) (overrides : Overrides) :
    Run Report := do
  let (config, format) ← prepare overrides
  let code ← readSource path
  let client : Client := config.analyzer
  let validation ← askAnalyzer client (client.validate code structureType)
  let shown := Shown.inFormat format path (Page.validation validation) validation.toJson
  return ⟨shown, validation.isValid⟩

def runHealth (overrides : Overrides) : Run Report := do
  let (config, format) ← prepare overrides
  let client : Client := config.analyzer
  let (lexical, later) ← client.health
  let shown := Shown.inFormat format client.baseUrl
    (Page.health [(Service.lexical.name, lexical), (Service.syntactic.name, later)])
    (.object
      [("baseUrl", .string client.baseUrl), ("lexical", .bool lexical), ("syntax", .bool later)])
  return ⟨shown, lexical && later⟩

/-- Makes a directory, unless it is there already. -/
def ensureDirectory (path : String) : Program (Except FileError Unit) := do
  match ← Program.query (.makeDirectory path) with
  | .ok () => return .ok ()
  | .error e =>
    if ← Program.query (.isDirectory path) then return .ok ()
    return .error e

/-- Makes a directory and those above it that are missing. The components come innermost first. -/
def makeDirectories (absolute : Bool) : List String → Program (Except FileError Unit)
  | [] => .done (.ok ())
  | name :: above => do
    let path := Location.ofComponents absolute (above.reverse ++ [name])
    match ← Program.query (.makeDirectory path) with
    | .ok () => return .ok ()
    | .error .notFound =>
      match ← makeDirectories absolute above with
      | .ok () => ensureDirectory path
      | .error e => return .error e
    | .error e =>
      if ← Program.query (.isDirectory path) then return .ok ()
      return .error e

/-- Makes the directories above a path, unless the working directory is the only one. -/
def makeAbove (path : String) : Program (Except FileError Unit) :=
  let above := (Location.components path).reverse.tail
  if above = ["."] then .done (.ok ())
  else makeDirectories (Location.isAbsolute path) above

/-- Where a new configuration goes. -/
def initPath : InitTarget → Run String
  | .path output => pure output
  | .user => do
    match ← Program.query .userConfig with
    | some path => return path
    | none => Run.fail .noUserConfig

/-- What is said about a new configuration. -/
def createdPage (path : String) : Text.Page :=
  [ [.plain ("Created " ++ path)]
  , []
  , [.plain "Next steps:"]
  , [.plain ("  1. Set analyzer.base_url in " ++ path)]
  , [.plain "  2. Run: astlens health"] ]

/-- A new configuration, where nothing is yet. -/
def runInit (target : InitTarget) : Run Report := do
  let path ← initPath target
  if ← Program.query (.isPresent path) then Run.fail (.occupied path)
  Run.ofExcept .directoryRefused (← makeAbove path)
  Run.ofExcept .writeRefused
    (← Program.query (.write path (Text.toUtf8 configTemplate)))
  return ⟨.page (createdPage path), true⟩

def Command.run : Command → Run Report
  | .analyze source overrides expandAll => runAnalyze source overrides expandAll
  | .tree source overrides options => runTree source overrides options
  | .symbols source overrides filter => runSymbols source overrides filter
  | .errors source overrides origin => runErrors source overrides origin
  | .tokens source overrides => runTokens source overrides
  | .validate path structureType overrides => runValidate path structureType overrides
  | .health overrides => runHealth overrides
  | .init target => runInit target

end AnalysisBrowser
