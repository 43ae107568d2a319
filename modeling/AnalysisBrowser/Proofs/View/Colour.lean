import AnalysisBrowser.Client.Calls
import AnalysisBrowser.Proofs.View.Plain

/-!
# Colour adds nothing but paint

A page of plain texts is rendered with colour as without, but for the painting sequences. A session
hands the texts of its result on to its views, and none of them has a text from anywhere else but
the fixed words, so a plain result has plain pages.
-/
namespace AnalysisBrowser

open Text (AllPlain Plain pageTexts)

theorem plain_of_mem_contractViolations {m : ResultModel} (plain : AllPlain m.texts)
    {v : ContractViolation} (mem : v ∈ m.contractViolations) : Plain v.errorType := by
  simp only [ResultModel.texts, Text.allPlain_append, Text.allPlain_flatMap] at plain
  obtain ⟨⟨⟨_, syntactic⟩, semantic⟩, _⟩ := plain
  have text {findings : List Finding} {origin : Origin}
      (all : ∀ f ∈ findings, AllPlain f.texts)
      (mem : v ∈ ResultModel.violationsIn origin findings) : Plain v.errorType := by
    obtain ⟨f, kept, rfl⟩ := List.mem_map.mp mem
    refine all f (List.mem_of_mem_filter kept) f.errorType ?_
    simp [Finding.texts]
  unfold ResultModel.contractViolations at mem
  split at mem
  · rcases List.mem_append.mp mem with mem | mem
    · exact text syntactic mem
    · exact text semantic mem
  · cases mem

theorem allPlain_hintsFor (syntactic semantic : List Finding) :
    AllPlain (hintsFor syntactic semantic) := by
  have table : ∀ entry ∈ semanticHints, Plain entry.2 := by
    unfold semanticHints
    simp (disch := (rw [String.toList_ofList]; decide)) [Text.plain_of_notMem]
  have general : Plain syntaxHint := by
    apply Text.plain_ofList
    decide
  unfold hintsFor
  refine Text.allPlain_append.mpr ⟨?_, Text.allPlain_map.mpr ?_⟩
  · split
    · exact Text.allPlain_nil
    · simpa using general
  · intro entry mem
    exact table entry (List.mem_of_mem_filter mem)

theorem allPlain_ofModel {m : ResultModel} (plain : AllPlain m.texts) :
    AllPlain (ErrorReport.ofModel m).texts := by
  simp only [ResultModel.texts, Text.allPlain_append, Text.allPlain_flatMap] at plain
  obtain ⟨⟨⟨_, syntactic⟩, semantic⟩, _⟩ := plain
  have types {findings : List Finding} (all : ∀ f ∈ findings, AllPlain f.texts) :
      AllPlain ((commonTypes findings).map Prod.fst) := by
    rw [commonTypes_eq_ofList]
    refine Text.allPlain_map.mpr fun entry mem => ?_
    obtain ⟨f, found, same⟩ := List.mem_map.mp (Tally.mem_of_mem_ofList mem)
    refine all f found entry.1 ?_
    simp [Finding.texts, same]
  have merged (t : TaggedFinding) (mem : t ∈ mergeFindings m.syntaxFindings m.semanticFindings) :
      AllPlain t.finding.texts := by
    have either := (map_finding_mergeFindings m.syntaxFindings m.semanticFindings).subset
      (List.mem_map_of_mem mem)
    rcases List.mem_append.mp either with found | found
    · exact syntactic t.finding found
    · exact semantic t.finding found
  unfold ErrorReport.ofModel ErrorReport.build
  split
  · exact Text.allPlain_nil
  · simp only [ErrorReport.texts, Text.allPlain_append, Text.allPlain_flatMap]
    exact ⟨⟨⟨merged, types syntactic⟩, types semantic⟩, allPlain_hintsFor _ _⟩

/-- What a session hands on to its pages is plain. -/
structure Session.HasPlainParts (s : Session) : Prop where
  violations : ∀ v ∈ s.model.contractViolations, Plain v.errorType
  tokens : AllPlain (TokensDocument.ofModel s.model).texts
  tree : AllPlain s.tree.texts
  summary : ∀ summary, s.tree.summary = some summary → Plain summary.nodeType
  symbols : AllPlain s.symbols.texts
  errors : AllPlain s.errors.texts

theorem Session.hasPlainParts {s : Session} (plain : AllPlain s.model.texts) : s.HasPlainParts := by
  have parts := plain
  simp only [ResultModel.texts, Text.allPlain_append] at parts
  obtain ⟨⟨⟨⟨⟨tokens, lexical⟩, ast⟩, _⟩, _⟩, table⟩ := parts
  constructor
  · exact fun v mem => plain_of_mem_contractViolations plain mem
  · exact Text.allPlain_append.mpr ⟨tokens, lexical⟩
  · unfold tree TreeView.ofNode
    split
    · exact ast
    · exact Text.allPlain_nil
  · intro summary found
    unfold tree TreeView.ofNode at found
    split at found
    · obtain ⟨name, raw, rfl⟩ := Option.map_eq_some_iff.mp found
      have sent := (Option.filter_eq_some_iff.mp raw).1
      have here : NodePath.follow [] s.model.ast = some s.model.ast := rfl
      have own := Node.allPlain_of_follow ast here
      refine own name ?_
      simp [Node.ownTexts, sent]
    · cases found
  · unfold symbols SymbolView.ofTable
    split
    · exact Text.allPlain_nil
    · rename_i same
      rwa [same] at table
  · exact allPlain_ofModel plain

theorem Page.allPlain_analysis {s : Session} (filter : SymbolFilter) (origin : OriginFilter)
    (plain : AllPlain s.model.texts) : AllPlain (pageTexts (analysis s filter origin)) := by
  have parts := Session.hasPlainParts plain
  have summary : AllPlain (pageTexts ((s.tree.summary.map treeSummary).getD [])) := by
    cases found : s.tree.summary with
    | none => exact Text.allPlain_nil
    | some summary => exact allPlain_treeSummary (parts.summary summary found)
  unfold analysis
  simp only [Text.pageTexts_append, Text.allPlain_append]
  refine ⟨⟨⟨⟨⟨?_, ?_⟩, ?_⟩, summary⟩, ?_⟩, ?_⟩
  · exact allPlain_status parts.violations
  · exact allPlain_tokens parts.tokens
  · exact allPlain_tree s.expansion parts.tree
  · exact allPlain_symbols filter parts.symbols
  · exact allPlain_errors origin parts.errors

/-- With colour the page is printed as without, but for painting sequences. -/
def Text.PaintedOnly (p : Text.Page) : Prop :=
  stripped (renderPage true p) = renderPage false p

/-- Colour adds nothing but painting sequences to the ten pages, whatever plain texts they show. The
parts of a session are as plain as its result. -/
theorem pages_paintedOnly :
    (∀ source, Plain source → Text.PaintedOnly (Page.header source)) ∧
    (∀ isValid violations, (∀ v ∈ violations, Plain v.errorType) →
      Text.PaintedOnly (Page.status isValid violations)) ∧
    (∀ s : Session, AllPlain s.model.texts → s.HasPlainParts ∧
      ∀ filter origin, Text.PaintedOnly (Page.analysis s filter origin)) ∧
    (∀ (view : TreeView) e, AllPlain view.texts → Text.PaintedOnly (Page.tree view e)) ∧
    (∀ s : TreeSummary, Plain s.nodeType → Text.PaintedOnly (Page.treeSummary s)) ∧
    (∀ filter (view : SymbolView), AllPlain view.texts →
      Text.PaintedOnly (Page.symbols filter view)) ∧
    (∀ origin (report : ErrorReport), AllPlain report.texts →
      Text.PaintedOnly (Page.errors origin report)) ∧
    (∀ d : TokensDocument, AllPlain d.texts → Text.PaintedOnly (Page.tokens d)) ∧
    (∀ v : StructureValidation, AllPlain v.texts → Text.PaintedOnly (Page.validation v)) ∧
    (∀ results : List (Service × Bool),
      Text.PaintedOnly (Page.health (results.map fun (service, up) => (service.name, up)))) := by
  have painted {p : Text.Page} (plain : AllPlain (pageTexts p)) : Text.PaintedOnly p :=
    Text.stripped_renderPage plain
  refine ⟨?_, ?_, ?_, ?_, ?_, ?_, ?_, ?_, ?_, ?_⟩
  · exact fun source plain => painted (Page.allPlain_header plain)
  · exact fun isValid violations plain => painted (Page.allPlain_status plain)
  · intro s plain
    exact ⟨s.hasPlainParts plain, fun filter origin =>
      painted (Page.allPlain_analysis filter origin plain)⟩
  · exact fun view e plain => painted (Page.allPlain_tree e plain)
  · exact fun s plain => painted (Page.allPlain_treeSummary plain)
  · exact fun filter view plain => painted (Page.allPlain_symbols filter plain)
  · exact fun origin report plain => painted (Page.allPlain_errors origin plain)
  · exact fun d plain => painted (Page.allPlain_tokens plain)
  · exact fun v plain => painted (Page.allPlain_validation plain)
  · intro results
    refine painted (Page.allPlain_health fun result mem => ?_)
    obtain ⟨⟨service, up⟩, _, rfl⟩ := List.mem_map.mp mem
    have name : Plain service.name := by cases service <;> decide
    exact name

/-- A result with a text of every kind, some of them empty or with characters that quotes hide. -/
def wordyResult : ResultModel where
  tokens := [⟨.identifier, "a\tb", 1, 1⟩]
  lexicalErrors := [⟨"stray [0m", 1, 4⟩]
  ast :=
    { Node.ofType .program 1 1 with
      children :=
        [{ Node.empty with
          typeName := some "MACRO", value := some "\"", attributes := some (.insert "k" "" .empty) }] }
  syntaxErrors := [⟨"missing", 2, 1, "MISSING_END", some ";", some "", some .error⟩]
  semanticErrors := [⟨"unused", 2, 3, "UNUSED", some "b", some "int", none⟩]
  symbolTable := [⟨"b", "int", .variable, 1, 1, "", false, some (.insert "" "\n" .empty)⟩]
  isValid := true

/-- A validation that found a fault of each sort. -/
def faultyBody : StructureValidation where
  structureType := "FUNCTION"
  isValid := false
  structureErrors := [⟨"no body", 1, 9, "MISSING_BODY", some "BEGIN", some "", some .error⟩]
  generalErrors := [⟨"stray", 2, 1, "", none, none, none⟩]
  ast := .empty

theorem pages_paintedOnly_wordyResult :
    let s := Session.start wordyResult 1
    Plain "main.src" ∧ Text.PaintedOnly (Page.header "main.src") ∧
    AllPlain wordyResult.texts ∧
      Text.PaintedOnly (Page.analysis s .everything (.only .semantic)) ∧
      Text.PaintedOnly (Page.status true wordyResult.contractViolations) ∧
      Text.PaintedOnly (Page.tree s.tree s.expansion) ∧
      (∃ summary, s.tree.summary = some summary ∧ Text.PaintedOnly (Page.treeSummary summary)) ∧
      Text.PaintedOnly (Page.symbols .everything s.symbols) ∧
      Text.PaintedOnly (Page.errors .all s.errors) ∧
      Text.PaintedOnly (Page.tokens (.ofModel wordyResult)) ∧
    AllPlain faultyBody.texts ∧ Text.PaintedOnly (Page.validation faultyBody) := by
  intro s
  have label : Plain "main.src" := by decide
  have plain : AllPlain wordyResult.texts := by decide
  have body : AllPlain faultyBody.texts := by decide
  obtain ⟨header, status, analysis, tree, treeSummary, symbols, errors, tokens, validation, _⟩ :=
    pages_paintedOnly
  have ⟨parts, page⟩ := analysis s plain
  have summary : ∃ summary, s.tree.summary = some summary ∧
      Text.PaintedOnly (Page.treeSummary summary) :=
    ⟨_, rfl, treeSummary _ (parts.summary _ rfl)⟩
  exact ⟨label, header _ label, plain, page .everything (.only .semantic),
    status true _ parts.violations, tree _ _ parts.tree, summary, symbols _ _ parts.symbols,
    errors _ _ parts.errors, tokens _ parts.tokens, body, validation _ body⟩

end AnalysisBrowser
