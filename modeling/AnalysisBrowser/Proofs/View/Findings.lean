import AnalysisBrowser.Proofs.View.Plain

/-!
# Findings on pages

An error report and a validation print a block of lines for each finding that they show. Whatever
texts a finding brings along, its block holds the message, the type and the place. The parts of its
detail are there too, each behind its name, but the second part stands only beside the first: where
the first part is absent the block is that of a finding without any detail.
-/
namespace AnalysisBrowser

open Text (Line Page Paint Piece Plain padRight renderPage)

namespace Text

/-- Pieces that stand side by side on a line stand so on the rendered page. -/
theorem infix_renderPage (colored : Bool) {pieces line : Line} {page : Page} (mem : line ∈ page)
    (part : pieces <:+: line) :
    pieces.flatMap (Piece.chars colored) <:+: (renderPage colored page).toList := by
  obtain ⟨above, below, rfl⟩ := List.append_of_mem mem
  obtain ⟨left, right, rfl⟩ := part
  refine ⟨above.flatMap (lineChars colored) ++ left.flatMap (Piece.chars colored),
    right.flatMap (Piece.chars colored) ++ '\n' :: below.flatMap (lineChars colored), ?_⟩
  rw [renderPage, String.toList_ofList]
  simp only [List.flatMap_append, List.flatMap_cons, lineChars, List.append_assoc,
    List.singleton_append]

theorem infix_chars (colored : Bool) {piece : Piece} {line : Line} {page : Page}
    (mem : line ∈ page) (on : piece ∈ line) :
    piece.chars colored <:+: (renderPage colored page).toList := by
  obtain ⟨left, right, rfl⟩ := List.append_of_mem on
  have part : [piece] <:+: left ++ piece :: right := ⟨left, right, by simp⟩
  have shown := infix_renderPage colored mem part
  rwa [List.flatMap_singleton] at shown

/-- The characters of a text within paint, which goes on again behind every reset in the text. -/
def inPaint (colored : Bool) (paints : List Paint) (text : String) : List Char :=
  if colored then reopenAfterReset (opening paints) text.toList else text.toList

theorem inPaint_of_plain (colored : Bool) (paints : List Paint) {text : String}
    (plain : Plain text) : inPaint colored paints text = text.toList := by
  unfold inPaint
  split
  · exact reopenAfterReset_of_plain _ plain
  · rfl

/-- A character that is not within a reset parts a text in two that are painted on their own. -/
theorem reopenAfterReset_append (again : List Char) {c : Char} (apart : c ∉ ['[', '0', 'm'])
    (text rest : List Char) :
    reopenAfterReset again (text ++ c :: rest) =
      reopenAfterReset again text ++ reopenAfterReset again (c :: rest) := by
  fun_induction reopenAfterReset again text with
  | case1 text ih => simp [reopenAfterReset, ih]
  | case2 d text noReset ih =>
    have later : ∀ behind, d = '\x1b' → text ++ c :: rest = '[' :: '0' :: 'm' :: behind → False := by
      intro behind first same
      match text, noReset with
      | [], _ => simp_all
      | [_], _ => simp_all
      | [_, _], _ => simp_all
      | _ :: _ :: _ :: text, noReset =>
        simp only [List.cons_append, List.cons.injEq] at same
        obtain ⟨rfl, rfl, rfl, -⟩ := same
        exact noReset text first rfl
    rw [List.cons_append, reopenAfterReset, ih, List.cons_append]
    exact later
  | case3 => rfl

theorem infix_chars_painted (colored : Bool) (paints : List Paint) (text : String) :
    inPaint colored paints text <:+: (Piece.painted paints text).chars colored := by
  cases colored with
  | false => exact List.infix_refl _
  | true => exact ⟨opening paints, reset, rfl⟩

/-- The text of a painted cell, without the spaces that widen it. -/
theorem infix_chars_padRight (colored : Bool) (paints : List Paint) (width : Nat) (text : String) :
    inPaint colored paints text <:+: (Piece.painted paints (padRight width text)).chars colored := by
  refine List.IsInfix.trans ?_ (infix_chars_painted colored paints _)
  cases colored with
  | false => exact (String.toList_append ▸ List.prefix_append _ _).isInfix
  | true =>
    change reopenAfterReset _ text.toList <:+: reopenAfterReset _ (padRight width text).toList
    rw [padRight, String.toList_append, spaces, String.toList_ofList]
    cases width - text.length with
    | zero => exact (List.append_nil text.toList).symm ▸ List.infix_refl _
    | succ n =>
      rw [List.replicate_succ, reopenAfterReset_append _ (by decide)]
      exact (List.prefix_append _ _).isInfix

end Text

namespace Detail

/-- What the parser expected. -/
def expected? : Detail → Option String
  | .syntactic expected _ => expected
  | .semantic _ _ => none

/-- What the parser found. -/
def found? : Detail → Option String
  | .syntactic _ found => found
  | .semantic _ _ => none

/-- The name that a check is about. -/
def symbol? : Detail → Option String
  | .syntactic _ _ => none
  | .semantic symbol _ => symbol

/-- The type of that name. -/
def symbolType? : Detail → Option String
  | .syntactic _ _ => none
  | .semantic _ symbolType => symbolType

/-- Whether the second part is there without the first. -/
def secondOnly : Detail → Bool
  | .syntactic none (some _) => true
  | .semantic none (some _) => true
  | _ => false

end Detail

/-- The finding without its detail. -/
def TaggedFinding.bare (t : TaggedFinding) : TaggedFinding :=
  { t with finding := { t.finding with detail := .syntactic none none } }

namespace Page

/-- The lines of a finding as they are printed. -/
def block (colored : Bool) (t : TaggedFinding) : String := renderPage colored (finding t)

/-- A text behind its painted name. -/
def named (colored : Bool) (name text : String) : List Char :=
  [Piece.painted [.dimmed] name, .plain (" " ++ text)].flatMap (Piece.chars colored)

/-- A print in which the common part of a finding stands. -/
structure ShowsCommon (colored : Bool) (print : String) (f : Finding) : Prop where
  message : f.message.toList <:+: print.toList
  errorType : Text.inPaint colored [.dimmed] f.errorType <:+: print.toList
  place : (place f.line f.position).toList <:+: print.toList

/-- A print in which every part of a detail stands: three behind their names, and the type of a
symbol in parentheses. -/
structure ShowsDetail (colored : Bool) (print : String) (d : Detail) : Prop where
  expected : ∀ s, d.expected? = some s → named colored "expected" s <:+: print.toList
  found : ∀ s, d.found? = some s → named colored "found" s <:+: print.toList
  symbol : ∀ s, d.symbol? = some s → named colored "symbol" s <:+: print.toList
  symbolType : ∀ s, d.symbolType? = some s →
    Text.inPaint colored [.dimmed] ("(" ++ s ++ ")") <:+: print.toList

theorem showsCommon_block (colored : Bool) (t : TaggedFinding) :
    ShowsCommon colored (block colored t) t.finding := by
  have first : [.plain "    ", severityMark t.finding.severity, .plain " ", originMark t.origin,
      .plain " ", .painted [.dimmed] (padRight 21 t.finding.errorType), .plain " ",
      .painted [.dimmed] (place t.finding.line t.finding.position)] ∈ finding t :=
    List.mem_cons_self
  have second : [margin, .plain t.finding.message] ∈ finding t :=
    List.mem_cons_of_mem _ List.mem_cons_self
  constructor
  · have shown : (Piece.plain t.finding.message).chars colored <:+: (block colored t).toList :=
      Text.infix_chars colored second (List.mem_cons_of_mem _ List.mem_cons_self)
    exact shown
  · have cell := Text.infix_chars_padRight colored [.dimmed] 21 t.finding.errorType
    exact cell.trans (Text.infix_chars colored first (by simp))
  · have cell := Text.infix_chars_painted colored [.dimmed] (place t.finding.line t.finding.position)
    rw [Text.inPaint_of_plain _ _ (plain_place _ _)] at cell
    exact cell.trans (Text.infix_chars colored first (by simp))

/-- What stands on a line of the detail stands in the block. -/
theorem infix_block (colored : Bool) {t : TaggedFinding} {d : Detail} {line pieces : Line}
    (detail : t.finding.detail = d) (mem : line ∈ detailLines d) (part : pieces <:+: line) :
    pieces.flatMap (Piece.chars colored) <:+: (block colored t).toList := by
  rw [← detail] at mem
  exact Text.infix_renderPage colored (List.mem_append_left _ (List.mem_append_right _ mem)) part

theorem showsDetail_block (colored : Bool) {t : TaggedFinding}
    (both : t.finding.detail.secondOnly = false) :
    ShowsDetail colored (block colored t) t.finding.detail := by
  -- Each part is found on the line of the detail; the second ones need the first one beside them.
  cases detail : t.finding.detail with
  | syntactic expected found =>
    rw [detail] at both
    refine ⟨?_, ?_, nofun, nofun⟩
    · rintro s rfl
      exact infix_block colored detail List.mem_cons_self ⟨[margin], _, rfl⟩
    · rintro s rfl
      cases expected with
      | none => cases both
      | some first =>
        exact infix_block colored detail List.mem_cons_self
          ⟨[margin, .painted [.dimmed] "expected", .plain (" " ++ first), .plain ", "], [], rfl⟩
  | semantic symbol symbolType =>
    rw [detail] at both
    refine ⟨nofun, nofun, ?_, ?_⟩
    · rintro s rfl
      exact infix_block colored detail List.mem_cons_self ⟨[margin], _, rfl⟩
    · rintro s rfl
      cases symbol with
      | none => cases both
      | some name =>
        have type := Text.infix_chars_painted colored [.dimmed] ("(" ++ s ++ ")")
        have part : [Piece.painted [.dimmed] ("(" ++ s ++ ")")] <:+:
            [margin, .painted [.dimmed] "symbol", .plain (" " ++ name), .plain " ",
              .painted [.dimmed] ("(" ++ s ++ ")")] :=
          ⟨[margin, .painted [.dimmed] "symbol", .plain (" " ++ name), .plain " "], [], rfl⟩
        have shown := infix_block colored detail List.mem_cons_self part
        rw [List.flatMap_singleton] at shown
        exact type.trans shown

theorem block_of_secondOnly (colored : Bool) {t : TaggedFinding}
    (alone : t.finding.detail.secondOnly = true) : block colored t = block colored t.bare := by
  have lines : detailLines t.finding.detail = [] := by
    cases detail : t.finding.detail with
    | syntactic expected found => cases expected <;> simp_all [Detail.secondOnly, detailLines]
    | semantic symbol symbolType => cases symbol <;> simp_all [Detail.secondOnly, detailLines]
  simp only [block, finding, lines]
  rfl

theorem renderPage_findings (colored : Bool) (ts : List TaggedFinding) :
    renderPage colored (ts.flatMap finding) = String.join (ts.map (block colored)) := by
  refine String.toList_injective ?_
  simp only [renderPage, String.toList_ofList, String.toList_join, List.flatMap_assoc,
    List.flatMap_map, block]

/-- A page that prints the blocks of some findings one after another. -/
def PrintsBlocks (colored : Bool) (page : Page) (ts : List TaggedFinding) : Prop :=
  ∃ before after, renderPage colored page =
    before ++ String.join (ts.map (block colored)) ++ after

theorem printsBlocks_of_infix {colored : Bool} {page : Page} {ts : List TaggedFinding}
    (part : ts.flatMap finding <:+: page) : PrintsBlocks colored page ts := by
  obtain ⟨above, below, rfl⟩ := part
  refine ⟨renderPage colored above, renderPage colored below, ?_⟩
  rw [Text.renderPage_append, Text.renderPage_append, renderPage_findings]

end Page

/-- The findings of a report that a choice of stages lets through. -/
def ErrorReport.shown (origin : OriginFilter) : ErrorReport → List TaggedFinding
  | .noErrors => []
  | .report s => s.view origin

namespace Page

theorem printsBlocks_errors (colored : Bool) (report : ErrorReport) (origin : OriginFilter) :
    PrintsBlocks colored (errors origin report) (report.shown origin) := by
  refine printsBlocks_of_infix ?_
  cases report with
  | noErrors => exact List.nil_infix
  | report s =>
    -- Behind the blocks come the counts of both streams and the hints.
    refine List.IsInfix.trans ?_ (List.prefix_append _ (hintLines s.hints)).isInfix
    refine List.IsInfix.trans ?_ (List.prefix_append _ _).isInfix
    exact List.infix_append _ _ _

/-- The findings of a group of a validation, which are those of the parser. -/
def validationFindings (errors : List SyntaxFinding) : List TaggedFinding :=
  tag .syntactic (errors.map SyntaxFinding.toFinding)

theorem infix_validationErrors (title : String) (errors : List SyntaxFinding) :
    (validationFindings errors).flatMap finding <:+: validationErrors title errors := by
  unfold validationErrors
  split
  · rename_i none
    rw [List.isEmpty_iff.mp none]
    exact List.infix_refl []
  · exact (List.suffix_append _ _).isInfix

theorem printsBlocks_validation (colored : Bool) (v : StructureValidation) :
    PrintsBlocks colored (validation v) (validationFindings v.structureErrors) ∧
      PrintsBlocks colored (validation v) (validationFindings v.generalErrors) := by
  have bodies := infix_validationErrors "Structure errors" v.structureErrors
  have general := infix_validationErrors "General errors" v.generalErrors
  constructor
  · exact printsBlocks_of_infix (bodies.trans (List.infix_append _ _ _))
  · exact printsBlocks_of_infix (general.trans (List.suffix_append _ _).isInfix)

/-- Reports and validations print a block for every finding that they show. The block of a finding
holds its message, its type and its place, and all parts of its detail as long as the second part
does not stand without the first. Where it does, the block is that of the finding without detail. -/
theorem pages_show_findings (colored : Bool) :
    (∀ (report : ErrorReport) (origin : OriginFilter),
      PrintsBlocks colored (errors origin report) (report.shown origin)) ∧
    (∀ v : StructureValidation,
      PrintsBlocks colored (validation v) (validationFindings v.structureErrors) ∧
      PrintsBlocks colored (validation v) (validationFindings v.generalErrors)) ∧
    ∀ t : TaggedFinding, ShowsCommon colored (block colored t) t.finding ∧
      (t.finding.detail.secondOnly = false →
        ShowsDetail colored (block colored t) t.finding.detail) ∧
      (t.finding.detail.secondOnly = true → block colored t = block colored t.bare) := by
  refine ⟨printsBlocks_errors colored, printsBlocks_validation colored, fun t => ?_⟩
  exact ⟨showsCommon_block colored t, showsDetail_block colored, block_of_secondOnly colored⟩

/-- A brace that the parser found where it expected nothing in particular. -/
def strayBrace : SyntaxFinding :=
  ⟨"unexpected '\x7d'", 3, 1, "UNEXPECTED_TOKEN", none, some "\x7d", some .error⟩

/-- A name that has a type already. -/
def takenName : SemanticFinding :=
  ⟨"declared twice", 4, 5, "REDECLARATION", some "x", some "int", none⟩

theorem pages_show_findings_strayBrace :
    let report := ErrorReport.build [strayBrace.toFinding] [takenName.toFinding]
    let brace : TaggedFinding := ⟨.syntactic, strayBrace.toFinding⟩
    let name : TaggedFinding := ⟨.semantic, takenName.toFinding⟩
    report.shown .all = [brace, name] ∧ PrintsBlocks false (errors .all report) [brace, name] ∧
      takenName.toFinding.detail.secondOnly = false ∧
      ShowsDetail false (block false name) takenName.toFinding.detail ∧
      strayBrace.toFinding.detail.secondOnly = true ∧ block false brace = block false brace.bare := by
  intro report brace name
  obtain ⟨reports, -, findings⟩ := pages_show_findings false
  have shown : report.shown .all = [brace, name] := rfl
  have blocks := reports report .all
  rw [shown] at blocks
  exact ⟨shown, blocks, rfl, (findings name).2.1 rfl, rfl, (findings brace).2.2 rfl⟩

theorem block_strayBrace : block false ⟨.syntactic, strayBrace.toFinding⟩ =
    "    ERROR syntax   UNEXPECTED_TOKEN      3:1\n            unexpected '\x7d'\n\n" := by
  rfl

/-- What the parser found is not in the print of a report, if nothing was expected. -/
theorem exists_finding_hidden :
    ∃ t ∈ (ErrorReport.build [strayBrace.toFinding] []).shown .all,
      t.finding.detail.found? = some "\x7d" ∧
      block false t =
        "    ERROR syntax   UNEXPECTED_TOKEN      3:1\n            unexpected '\x7d'\n\n" ∧
      ¬ShowsDetail false (block false t) t.finding.detail := by
  refine ⟨⟨.syntactic, strayBrace.toFinding⟩, List.mem_singleton_self _, rfl, block_strayBrace, ?_⟩
  intro shows
  -- The name of the part begins with a letter that the block does not hold.
  have mem : 'f' ∈ named false "found" "\x7d" := List.mem_append_left _ (by decide)
  have inside := (shows.found "\x7d" rfl).subset mem
  rw [block_strayBrace, String.toList_ofList] at inside
  exact absurd inside (by decide)

end Page

end AnalysisBrowser
