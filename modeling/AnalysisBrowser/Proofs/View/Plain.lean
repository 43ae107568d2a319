import AnalysisBrowser.Proofs.Diagnostics.Accounts
import AnalysisBrowser.Proofs.Symbols.Facets
import AnalysisBrowser.Proofs.View.Texts

/-!
# Pages of plain texts

Every page is made of fixed words, numbers and the texts of what it shows. If those texts have no
escape characters, neither has the page. One lemma says so for each page, and one for each kind of
line on it. A fixed word is looked through character by character.
-/
namespace AnalysisBrowser

open Text (AllPlain Plain Shown lineTexts pageTexts plain_of_notMem plain_of_shown shown_append)

namespace Page

theorem shown_place (line position : UInt64) : Shown (place line position) := by
  have colon : Shown ":" := by decide
  have first := Text.shown_decimal line.toNat
  have second := Text.shown_decimal position.toNat
  rw [place, shown_append, shown_append]
  exact ⟨⟨first, colon⟩, second⟩

theorem plain_place (line position : UInt64) : Plain (place line position) :=
  plain_of_shown (shown_place line position)

theorem plain_plural (n : Nat) : Plain (plural n) := by
  unfold plural
  split <;> decide

theorem plain_validity (isValid : Bool) : Plain (validity isValid).text := by
  cases isValid <;> decide

theorem plain_originName (origin : Origin) : Plain origin.name := by
  cases origin <;> decide

theorem allPlain_header {source : String} (plain : Plain source) :
    AllPlain (pageTexts (header source)) := by
  unfold header gap version
  simp (disch := (rw [String.toList_ofList]; decide)) [plain_of_notMem, plain]

theorem plain_message {v : ContractViolation} (plain : Plain v.errorType) : Plain v.message := by
  unfold ContractViolation.message
  simp (disch := (rw [String.toList_ofList]; decide)) [plain_of_notMem, plain_originName, plain]

theorem allPlain_status {isValid : Bool} {violations : List ContractViolation}
    (plain : ∀ v ∈ violations, Plain v.errorType) :
    AllPlain (pageTexts (status isValid violations)) := by
  have messages (v : ContractViolation) (mem : v ∈ violations) := plain_message (plain v mem)
  unfold status gap
  simpa (disch := (rw [String.toList_ofList]; decide))
    [plain_of_notMem, plain_validity] using messages

theorem shown_typeLabel (t : NodeType) : Shown t.label := by
  cases t <;> (apply Text.shown_ofList.mpr; decide)

theorem plain_typeLabel (t : NodeType) : Plain t.label := plain_of_shown (shown_typeLabel t)

theorem shown_label (n : Node) : Shown n.label := by
  unfold Node.label
  split
  · exact shown_typeLabel _
  · decide

theorem plain_label (n : Node) : Plain n.label := plain_of_shown (shown_label n)

theorem plain_nodeLabel {n : Node} (plain : AllPlain n.ownTexts) : Plain (nodeLabel n).text := by
  unfold nodeLabel
  split
  iterate 6 exact plain_label n
  cases raw : n.rawType? with
  | none => exact plain_label n
  | some name =>
    have sent := (Option.filter_eq_some_iff.mp raw).1
    refine plain name ?_
    simp [Node.ownTexts, sent]

theorem plain_key {attributes : Option Attributes} (plain : AllPlain (Attributes.texts attributes))
    {k v : String} (mem : (k, v) ∈ (attributes.getD .empty).toList) : Plain k := by
  refine plain k (List.mem_flatMap.mpr ⟨(k, v), mem, ?_⟩)
  simp

theorem shown_guidesOf (lasts : List Bool) : Shown (DrawnRow.guidesOf lasts) := by
  have each (isLast : Bool) : Shown (DrawnRow.guide isLast) := by cases isLast <;> decide
  rw [Shown, DrawnRow.guidesOf, String.toList_join, List.any_flatMap, List.any_map,
    List.any_eq_false]
  exact fun isLast _ => Bool.eq_false_iff.mp (each isLast)

theorem shown_connectorOf (isLast : Bool) : Shown (DrawnRow.connectorOf isLast) := by
  cases isLast <;> decide

theorem shown_markerOf (e : Expansion) (r : VisibleRow) : Shown (DrawnRow.markerOf e r) := by
  unfold DrawnRow.markerOf
  split
  · decide
  · split <;> decide

/-- Drawing puts shown texts beside the first row and goes on with the others. -/
theorem exists_draw_cons (e : Expansion) (lasts : List Bool) (r : VisibleRow)
    (rest : List VisibleRow) :
    ∃ guides connector above, Shown guides ∧ Shown connector ∧
      DrawnRow.draw e lasts (r :: rest) =
        ⟨guides, connector, DrawnRow.markerOf e r, r.node, r.path⟩ ::
          DrawnRow.draw e above rest := by
  rw [DrawnRow.draw]
  split
  · exact ⟨"", "", [], by decide, by decide, rfl⟩
  · exact ⟨_, _, _, shown_guidesOf _, shown_connectorOf r.isLastSibling, rfl⟩

/-- What is drawn beside a node shows, and the node is that of a row. -/
theorem shown_of_mem_draw {e : Expansion} {lasts : List Bool} {rows : List VisibleRow}
    {d : DrawnRow} (mem : d ∈ DrawnRow.draw e lasts rows) :
    (Shown d.guides ∧ Shown d.connector ∧ Shown d.marker) ∧ ∃ r ∈ rows, d.node = r.node := by
  -- The levels above change from row to row, so the claim is made for any of them.
  induction rows generalizing lasts with
  | nil => cases mem
  | cons r rest ih =>
    obtain ⟨guides, connector, above, shownGuides, shownConnector, drawn⟩ :=
      exists_draw_cons e lasts r rest
    rw [drawn] at mem
    rcases List.mem_cons.mp mem with rfl | mem
    · exact ⟨⟨shownGuides, shownConnector, shown_markerOf e r⟩, r, List.mem_cons_self, rfl⟩
    · obtain ⟨shown, row, mem, same⟩ := ih mem
      exact ⟨shown, row, List.mem_cons_of_mem r mem, same⟩

theorem allPlain_treeRow {d : DrawnRow} (guides : Plain d.guides) (connector : Plain d.connector)
    (marker : Plain d.marker) (node : AllPlain d.node.ownTexts) :
    AllPlain (lineTexts (treeRow d)) := by
  have keys (k v : String) (mem : (k, v) ∈ d.node.attributePairs) : Plain k :=
    plain_key (fun s text => node s (by simp [Node.ownTexts, text])) mem
  have label := plain_nodeLabel node
  unfold treeRow
  cases d.node.displayValue? <;>
    simpa (disch := (rw [String.toList_ofList]; decide))
      [plain_of_notMem, plain_place, guides, connector, marker, label] using keys

end Page

/-- The texts of the tree that a view shows. -/
def TreeView.texts : TreeView → List String
  | .unavailable => []
  | .available root => root.texts

theorem TreeView.allPlain_of_mem_visible {view : TreeView} {e : Expansion} {r : VisibleRow}
    (plain : AllPlain view.texts) (mem : r ∈ view.visible e) : AllPlain r.node.ownTexts := by
  cases view with
  | unavailable => cases mem
  | available root =>
    have row : r ∈ preOrder e .root true root := by
      rw [← visibleSubtree_eq_preOrder]
      exact mem
    obtain ⟨is, leads⟩ := mem_preOrder.mp row
    exact Node.allPlain_of_follow plain (follow_of_rowAt leads)

namespace Page

theorem allPlain_tree {view : TreeView} (e : Expansion) (plain : AllPlain view.texts) :
    AllPlain (pageTexts (tree view e)) := by
  have rows (d : DrawnRow) (mem : d ∈ view.drawn e) : AllPlain (lineTexts (treeRow d)) := by
    obtain ⟨⟨guides, connector, marker⟩, r, row, same⟩ := shown_of_mem_draw mem
    refine allPlain_treeRow (plain_of_shown guides) (plain_of_shown connector)
      (plain_of_shown marker) ?_
    rw [same]
    exact TreeView.allPlain_of_mem_visible plain row
  unfold tree gap
  split
  · simpa (disch := (rw [String.toList_ofList]; decide)) [plain_of_notMem] using rows
  · simp (disch := (rw [String.toList_ofList]; decide)) [plain_of_notMem]

theorem allPlain_treeSummary {s : TreeSummary} (plain : Plain s.nodeType) :
    AllPlain (pageTexts (treeSummary s)) := by
  have contains : AllPlain (pageTexts (if s.hasErrors then
      [[.plain "    ", .painted [.red] "Contains syntax error nodes"]] else [])) := by
    split <;> decide
  unfold treeSummary fact gap
  simpa (disch := (rw [String.toList_ofList]; decide))
    [plain_of_notMem, plain_place, plain_typeLabel, plain] using contains

theorem plain_kindName (k : SymbolKind) : Plain k.name := by
  cases k <;> decide

theorem plain_kindLabel (k : SymbolKind) : Plain k.label := by
  cases k <;> decide

theorem allPlain_statisticsLine (s : SymbolStatistics) :
    AllPlain (lineTexts (statisticsLine s)) := by
  unfold statisticsLine
  simp (disch := (rw [String.toList_ofList]; decide)) [plain_of_notMem]

theorem allPlain_facetsLine {f : Facets} (plain : AllPlain f.scopes) :
    AllPlain (lineTexts (facetsLine f)) := by
  have kinds : Plain (Text.joinWith ", " (f.kinds.map SymbolKind.name)) := by
    refine Text.plain_joinWith (by decide) (Text.allPlain_map.mpr fun k _ => ?_)
    exact plain_kindName k
  have scopes : Plain (Text.joinWith ", " f.scopes) := Text.plain_joinWith (by decide) plain
  unfold facetsLine
  simp (disch := (rw [String.toList_ofList]; decide)) [plain_of_notMem, kinds, scopes]

theorem allPlain_symbolRow {s : Symbol} (plain : AllPlain s.texts) :
    AllPlain (lineTexts (symbolRow s)) := by
  have used : Plain (if s.used then .painted [.green] "used" else .painted [.yellow] "unused" :
      Text.Piece).text := by
    split <;> decide
  simp only [Symbol.texts, Text.allPlain_append, Text.allPlain_cons] at plain
  unfold symbolRow
  simpa (disch := (rw [String.toList_ofList]; decide))
    [plain_of_notMem, plain_place, plain_kindLabel, plain] using used

theorem allPlain_attributesRow {s : Symbol} (plain : AllPlain s.texts) :
    AllPlain (lineTexts (attributesRow s)) := by
  simp only [Symbol.texts, Text.allPlain_append, Text.allPlain_cons] at plain
  have pairs : AllPlain (s.attributePairs.map fun entry =>
      entry.1 ++ "=" ++ Text.quoted entry.2) := by
    refine Text.allPlain_map.mpr fun entry mem => ?_
    have key : Plain entry.1 := plain_key plain.2 mem
    simp (disch := (rw [String.toList_ofList]; decide)) [plain_of_notMem, key]
  have joined := Text.plain_joinWith (show Plain " " by decide) pairs
  unfold attributesRow
  simpa (disch := (rw [String.toList_ofList]; decide)) [plain_of_notMem, plain] using joined

theorem allPlain_symbolRows {shown : List Symbol} (plain : ∀ s ∈ shown, AllPlain s.texts) :
    AllPlain (pageTexts (symbolRows shown)) := by
  have columns : AllPlain (lineTexts symbolColumns) := by
    unfold symbolColumns
    simp (disch := (rw [String.toList_ofList]; decide)) [plain_of_notMem]
  have rows (s : Symbol) (mem : s ∈ shown) := allPlain_symbolRow (plain s mem)
  have details (s : Symbol) (mem : s ∈ withAttributes shown) :=
    allPlain_attributesRow (plain s (List.mem_of_mem_filter mem))
  unfold symbolRows gap
  split
  · simp (disch := (rw [String.toList_ofList]; decide)) [plain_of_notMem]
  · split
    · simpa [columns] using rows
    · simpa (disch := (rw [String.toList_ofList]; decide))
        [plain_of_notMem, columns] using And.intro rows details

end Page

/-- The texts of the symbol table that a view shows. -/
def SymbolView.texts : SymbolView → List String
  | .noSymbols => []
  | .table all => all.flatMap Symbol.texts

namespace Page

theorem allPlain_symbols (filter : SymbolFilter) {view : SymbolView} (plain : AllPlain view.texts) :
    AllPlain (pageTexts (symbols filter view)) := by
  cases view with
  | noSymbols =>
    unfold symbols gap
    simp (disch := (rw [String.toList_ofList]; decide)) [plain_of_notMem]
  | table all =>
    have each := Text.allPlain_flatMap.mp plain
    have shown (s : Symbol) (mem : s ∈ filter.apply all) : AllPlain s.texts :=
      each s (List.mem_of_mem_filter mem)
    have rows := allPlain_symbolRows shown
    have facets : AllPlain (pageTexts
        (if filter.isActive then [facetsLine (.ofTable all)] else [])) := by
      split
      · rw [Text.pageTexts_cons, Text.pageTexts_nil, List.append_nil]
        refine allPlain_facetsLine fun scope mem => ?_
        obtain ⟨s, row, same⟩ := List.mem_map.mp (mem_firstOccurrences.mp mem)
        exact each s row scope (by simp [Symbol.texts, same])
      · exact Text.allPlain_nil
    unfold symbols gap
    simpa (disch := (rw [String.toList_ofList]; decide))
      [plain_of_notMem, plain_plural, allPlain_statisticsLine] using And.intro facets rows

theorem plain_severityMark (severity : Option Severity) : Plain (severityMark severity).text := by
  rcases severity with _ | _ | _ <;> decide

theorem plain_originMark (origin : Origin) : Plain (originMark origin).text := by
  cases origin <;> decide

theorem allPlain_detailLines {d : Detail} (plain : AllPlain d.texts) :
    AllPlain (pageTexts (detailLines d)) := by
  cases d with
  | syntactic expected found =>
    obtain ⟨first, second⟩ := Text.allPlain_append.mp plain
    simp only [Text.allPlain_toList] at first second
    cases expected with
    | none => exact Text.allPlain_nil
    | some expected =>
      have expectation := first expected rfl
      cases found with
      | none =>
        simp (disch := (rw [String.toList_ofList]; decide))
          [detailLines, margin, plain_of_notMem, expectation]
      | some found =>
        have finding := second found rfl
        simp (disch := (rw [String.toList_ofList]; decide))
          [detailLines, margin, plain_of_notMem, expectation, finding]
  | semantic symbol symbolType =>
    obtain ⟨first, second⟩ := Text.allPlain_append.mp plain
    simp only [Text.allPlain_toList] at first second
    cases symbol with
    | none => exact Text.allPlain_nil
    | some symbol =>
      have name := first symbol rfl
      cases symbolType with
      | none =>
        simp (disch := (rw [String.toList_ofList]; decide))
          [detailLines, margin, plain_of_notMem, name]
      | some symbolType =>
        have type := second symbolType rfl
        simp (disch := (rw [String.toList_ofList]; decide))
          [detailLines, margin, plain_of_notMem, name, type]

theorem allPlain_finding {t : TaggedFinding} (plain : AllPlain t.finding.texts) :
    AllPlain (pageTexts (finding t)) := by
  simp only [Finding.texts, Text.allPlain_append, Text.allPlain_cons] at plain
  have detail := allPlain_detailLines plain.2
  unfold finding margin gap
  simp (disch := (rw [String.toList_ofList]; decide))
    [plain_of_notMem, plain_severityMark, plain_originMark, plain_place, plain, detail]

theorem allPlain_typeCounts {title : String} {types : Tally String} (plain : Plain title)
    (names : ∀ entry ∈ types, Plain entry.1) : AllPlain (pageTexts (typeCounts title types)) := by
  have words (entry : String × Nat) (mem : entry ∈ types) :
      Plain (Text.replaceChar '_' ' ' entry.1) :=
    Text.plain_replaceChar (by decide) (names entry mem)
  unfold typeCounts gap
  split
  · simp
  · simpa (disch := (rw [String.toList_ofList]; decide)) [plain_of_notMem, plain] using words

theorem allPlain_countsLine {name : String} (c : SeverityCounts) (plain : Plain name) :
    AllPlain (lineTexts (countsLine name c)) := by
  unfold countsLine
  simp (disch := (rw [String.toList_ofList]; decide)) [plain_of_notMem, plain]

theorem allPlain_hintLines {hints : List String} (plain : AllPlain hints) :
    AllPlain (pageTexts (hintLines hints)) := by
  have each (hint : String) (mem : hint ∈ hints) : Plain hint := plain hint mem
  unfold hintLines gap
  split
  · simp
  · simpa (disch := (rw [String.toList_ofList]; decide)) [plain_of_notMem] using each

end Page

/-- The texts of a report. -/
def ErrorReport.texts : ErrorReport → List String
  | .noErrors => []
  | .report s =>
    s.merged.flatMap (fun t => t.finding.texts) ++ s.syntaxTypes.map Prod.fst ++
      s.semanticTypes.map Prod.fst ++ s.hints

namespace Page

theorem allPlain_errors (origin : OriginFilter) {report : ErrorReport}
    (plain : AllPlain report.texts) : AllPlain (pageTexts (errors origin report)) := by
  cases report with
  | noErrors =>
    unfold errors gap
    simp (disch := (rw [String.toList_ofList]; decide)) [plain_of_notMem]
  | report s =>
    simp only [ErrorReport.texts, Text.allPlain_append, Text.allPlain_flatMap,
      Text.allPlain_map] at plain
    obtain ⟨⟨⟨merged, syntactic⟩, semantic⟩, hints⟩ := plain
    have findings (t : TaggedFinding) (mem : t ∈ s.view origin) :=
      allPlain_finding (merged t (List.mem_of_mem_filter mem))
    have name : Plain origin.name := by
      cases origin with
      | all => decide
      | only stage => exact plain_originName stage
    have narrowed : AllPlain (pageTexts (if origin = .all then [] else
        [[.plain "    ", .painted [.dimmed]
          ("showing " ++ origin.name ++ " only (" ++ Number.decimal (s.view origin).length ++ ")")],
          gap])) := by
      split
      · simp
      · simp (disch := (rw [String.toList_ofList]; decide)) [plain_of_notMem, gap, name]
    have first := allPlain_countsLine s.syntaxCounts (show Plain "syntax" by decide)
    have second := allPlain_countsLine s.semanticCounts (show Plain "semantic" by decide)
    have syntaxTypes := allPlain_typeCounts (show Plain "Common syntax errors" by decide) syntactic
    have semanticTypes :=
      allPlain_typeCounts (show Plain "Common semantic errors" by decide) semantic
    have hintList := allPlain_hintLines hints
    unfold errors
    simp only [Text.pageTexts_append, Text.allPlain_append, Text.pageTexts_flatMap,
      Text.allPlain_flatMap]
    refine ⟨⟨⟨⟨⟨?_, narrowed⟩, findings⟩, syntaxTypes⟩, semanticTypes⟩, hintList⟩
    unfold gap
    simp (disch := (rw [String.toList_ofList]; decide))
      [plain_of_notMem, plain_plural, first, second]

theorem plain_tokenLabel (t : TokenType) : Plain t.label := by
  cases t <;> (apply Text.plain_ofList; decide)

theorem allPlain_lexicalErrors {found : List LexicalError}
    (plain : ∀ e ∈ found, Plain e.message) : AllPlain (pageTexts (lexicalErrors found)) := by
  unfold lexicalErrors gap
  split
  · simp
  · simpa (disch := (rw [String.toList_ofList]; decide)) [plain_of_notMem, plain_place] using plain

end Page

def TokensDocument.texts (d : TokensDocument) : List String :=
  d.tokens.flatMap Token.texts ++ d.lexicalErrors.flatMap LexicalError.texts

namespace Page

theorem allPlain_tokens {d : TokensDocument} (plain : AllPlain d.texts) :
    AllPlain (pageTexts (tokens d)) := by
  simp only [TokensDocument.texts, Token.texts, LexicalError.texts, Text.allPlain_append,
    Text.allPlain_flatMap, Text.allPlain_cons] at plain
  have rows (t : Token) (mem : t ∈ d.tokens) : AllPlain (lineTexts (tokenRow t)) := by
    have value := plain.1 t mem
    unfold tokenRow
    simp (disch := (rw [String.toList_ofList]; decide)) [plain_of_notMem, plain_tokenLabel, value]
  have lexical := allPlain_lexicalErrors fun e mem => (plain.2 e mem).1
  unfold tokens gap
  rw [Text.pageTexts_append, Text.allPlain_append]
  refine ⟨?_, lexical⟩
  split
  · decide
  · simpa (disch := (rw [String.toList_ofList]; decide)) [plain_of_notMem, plain_plural] using rows

theorem allPlain_validationErrors {title : String} {found : List SyntaxFinding}
    (plain : Plain title) (texts : ∀ e ∈ found, AllPlain e.toFinding.texts) :
    AllPlain (pageTexts (validationErrors title found)) := by
  have findings (t : TaggedFinding)
      (mem : t ∈ tag .syntactic (found.map SyntaxFinding.toFinding)) :
      AllPlain (pageTexts (finding t)) := by
    obtain ⟨f, listed, rfl⟩ := List.mem_map.mp mem
    obtain ⟨e, sent, rfl⟩ := List.mem_map.mp listed
    exact allPlain_finding (texts e sent)
  unfold validationErrors
  split
  · simp
  · simpa (disch := (rw [String.toList_ofList]; decide)) [plain_of_notMem, plain] using findings

theorem allPlain_validation {v : StructureValidation} (plain : AllPlain v.texts) :
    AllPlain (pageTexts (validation v)) := by
  simp only [StructureValidation.texts, Text.allPlain_append, Text.allPlain_cons,
    Text.allPlain_flatMap, List.mem_append] at plain
  obtain ⟨⟨⟨structureType, _⟩, findings⟩, _⟩ := plain
  have first := allPlain_validationErrors (show Plain "Structure errors" by decide)
    fun e mem => findings e (.inl mem)
  have second := allPlain_validationErrors (show Plain "General errors" by decide)
    fun e mem => findings e (.inr mem)
  unfold validation gap
  simp (disch := (rw [String.toList_ofList]; decide))
    [plain_of_notMem, plain_validity, structureType, first, second]

theorem allPlain_health {results : List (String × Bool)}
    (plain : ∀ result ∈ results, Plain result.1) : AllPlain (pageTexts (health results)) := by
  have verdict (up : Bool) :
      Plain (if up then .painted [.green] "UP" else .painted [.red] "DOWN" : Text.Piece).text := by
    cases up <;> decide
  unfold health
  simpa (disch := (rw [String.toList_ofList]; decide)) [plain_of_notMem, verdict] using plain

end Page

end AnalysisBrowser
