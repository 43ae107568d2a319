import AnalysisBrowser.Proofs.Text.Parts
import AnalysisBrowser.Proofs.Tree.Agreement
import AnalysisBrowser.Proofs.View.Plain

/-!
# The lines of a printed tree

A page is printed line by line, but a line that holds a break takes several lines of the print. What
a row of a tree says is quoted, counted or drawn, and so without breaks, but for two things that are
printed as they were sent: the name of a type that is not known and the keys of attributes. A print
has one line for each row exactly when these hold no break.
-/
namespace AnalysisBrowser

namespace Text

/-- The lines of a text. Behind a break at the end there is an empty one. -/
def linesOf (s : String) : List (List Char) := splitAt '\n' s.toList

/-- The characters of a line without paint and without the break that ends it. -/
def lineText (line : Line) : List Char := line.flatMap (Piece.chars false)

theorem linesOf_renderPage (page : Page) :
    linesOf (renderPage false page) =
      (page.flatMap fun line => splitAt '\n' (lineText line)) ++ [[]] := by
  rw [linesOf, renderPage, String.toList_ofList]
  induction page with
  | nil => rfl
  | cons line page ih =>
    rw [List.flatMap_cons, lineChars, List.append_assoc, List.singleton_append,
      splitAt_append_cons, ih, List.flatMap_cons, List.append_assoc]
    rfl

@[simp] theorem lineText_nil : lineText [] = [] := rfl

@[simp] theorem lineText_cons (piece : Piece) (line : Line) :
    lineText (piece :: line) = piece.text.toList ++ lineText line := by
  cases piece <;> rfl

@[simp] theorem lineText_append (l k : Line) : lineText (l ++ k) = lineText l ++ lineText k :=
  List.flatMap_append

@[simp] theorem lineText_flatMap {α : Type} (f : α → Line) (items : List α) :
    lineText (items.flatMap f) = items.flatMap fun a => lineText (f a) :=
  List.flatMap_assoc

end Text

open Text (Shown isHidden lineText linesOf renderPage splitAt)

/-- The texts that the row of a node says as they were sent: the name of a type that is not known
and the keys of the attributes. -/
def Node.bareTexts (n : Node) : List String :=
  (if n.type?.isSome then [] else n.rawType?.toList) ++ n.attributePairs.map Prod.fst

/-- What is drawn on a row before the name of its node. -/
def DrawnRow.lead (d : DrawnRow) : String := "    " ++ d.guides ++ d.connector ++ d.marker

namespace Page

/-- The lines that a row takes. -/
def rowLines (d : DrawnRow) : List (List Char) := splitAt '\n' (lineText (treeRow d))

/-- A print with the title of a tree, then one line for each row, which begins as that row does, and
nothing else but an empty line after the title and one at the end, with its break. -/
def PrintsRows (rows : List DrawnRow) (print : String) : Prop :=
  ∃ lines, List.Forall₂ (fun d line => d.lead.toList <+: line) rows lines ∧
    linesOf print = "  Syntax tree".toList :: [] :: (lines ++ [[], []])

theorem lead_prefix_treeRow (d : DrawnRow) : d.lead.toList <+: lineText (treeRow d) := by
  simp only [DrawnRow.lead, treeRow, String.toList_append, Text.lineText_append, Text.lineText_cons,
    List.append_assoc, Text.text_plain, Text.text_painted]
  repeat rw [List.prefix_append_right_inj]
  exact List.prefix_append _ _

theorem shown_lead_iff {d : DrawnRow} :
    Shown d.lead ↔ Shown d.guides ∧ Shown d.connector ∧ Shown d.marker := by
  have margin : Shown "    " := by decide
  simp only [DrawnRow.lead, Text.shown_append, margin, true_and, and_assoc]

theorem nodeLabel_text (n : Node) :
    (nodeLabel n).text = if n.type?.isSome then n.label else n.rawType?.getD n.label := by
  unfold nodeLabel
  cases n.type? with
  | none => rfl
  | some t =>
    rw [Option.map_some]
    cases t.category <;> rfl

theorem count_nodeLabel {c : Char} (hidden : isHidden c = true) (n : Node) :
    (nodeLabel n).text.toList.count c =
      ((if n.type?.isSome then [] else n.rawType?.toList).map fun s => s.toList.count c).sum := by
  have label := (shown_label n).count_eq_zero hidden
  rw [nodeLabel_text]
  split
  · exact label
  · cases n.rawType? with
    | none => exact label
    | some name => rfl

/-- What a row says is fixed, counted or quoted, but for the bare texts. -/
theorem count_treeRow {d : DrawnRow} {c : Char} (hidden : isHidden c = true)
    (lead : Shown d.lead) :
    (lineText (treeRow d)).count c = (d.node.bareTexts.map fun s => s.toList.count c).sum := by
  have zero {s : String} (shown : Shown s) : s.toList.count c = 0 := shown.count_eq_zero hidden
  have space := zero (show Shown " " by decide)
  have margin := zero (show Shown "    " by decide)
  have equals := zero (show Shown "=" by decide)
  have quoted (s : String) := zero (Text.shown_quoted s)
  have place := zero (shown_place d.node.line d.node.position)
  have label := count_nodeLabel hidden d.node
  have drawn : d.guides.toList.count c = 0 ∧ d.connector.toList.count c = 0 ∧
      d.marker.toList.count c = 0 := (shown_lead_iff.mp lead).imp zero (And.imp zero zero)
  unfold treeRow Node.bareTexts
  cases d.node.displayValue? <;>
    simp only [Text.lineText_append, Text.lineText_flatMap, Text.lineText_cons, Text.lineText_nil,
      Text.text_plain, Text.text_painted, String.toList_append, List.count_append,
      List.count_flatMap, List.count_nil, Function.comp_def, List.map_append, List.map_map,
      List.sum_append, space, margin, equals, quoted, place, label, drawn, Nat.zero_add,
      Nat.add_zero]

/-- A row takes one line and one more for each break in a text that it says as it was sent. The
first of the lines begins with all that is drawn. -/
theorem exists_rowLines {d : DrawnRow} (lead : Shown d.lead) :
    ∃ first more, rowLines d = first :: more ∧ d.lead.toList <+: first ∧
      more.length = (d.node.bareTexts.map fun s => s.toList.count '\n').sum := by
  have hidden : isHidden '\n' = true := by decide
  have whole := lead.notMem hidden
  obtain ⟨rest, text⟩ := lead_prefix_treeRow d
  obtain ⟨first, more, lines, leads⟩ := Text.exists_splitAt_append whole rest
  rw [text] at lines
  have length := Text.length_splitAt '\n' (lineText (treeRow d))
  rw [lines, count_treeRow hidden lead, List.length_cons] at length
  exact ⟨first, more, lines, leads, Nat.succ_injective length⟩

theorem linesOf_tree (root : Node) (e : Expansion) :
    linesOf (renderPage false (tree (.available root) e)) =
      "  Syntax tree".toList :: [] ::
        (((TreeView.available root).drawn e).flatMap rowLines ++ [[], []]) := by
  have title : splitAt '\n' (lineText [.plain "  ", .painted [.bold] "Syntax tree"]) =
      ["  Syntax tree".toList] := by decide
  have empty : splitAt '\n' (lineText gap) = [[]] := rfl
  rw [Text.linesOf_renderPage, tree, TreeView.isAvailable, if_pos rfl]
  simp only [List.flatMap_append, List.flatMap_cons, List.flatMap_nil, List.flatMap_map, title,
    empty, List.cons_append, List.nil_append, List.append_assoc]
  rfl

theorem length_flatMap_rowLines (rows : List DrawnRow) :
    (rows.flatMap rowLines).length =
      rows.length + (rows.map fun d => (lineText (treeRow d)).count '\n').sum := by
  induction rows with
  | nil => rfl
  | cons d rest ih =>
    rw [List.flatMap_cons, List.length_append, ih, rowLines, Text.length_splitAt, List.length_cons,
      List.map_cons, List.sum_cons]
    omega

/-- Each line begins as its row does if each row takes only one. -/
theorem forall₂_rowLines {rows : List DrawnRow}
    (whole : ∀ d ∈ rows, '\n' ∉ lineText (treeRow d)) :
    List.Forall₂ (fun d line => d.lead.toList <+: line) rows (rows.flatMap rowLines) := by
  induction rows with
  | nil => exact .nil
  | cons d rest ih =>
    have others := ih fun r mem => whole r (List.mem_cons_of_mem d mem)
    rw [List.flatMap_cons, rowLines, Text.splitAt_of_notMem (whole d List.mem_cons_self)]
    exact .cons (lead_prefix_treeRow d) others

theorem printsRows_iff {rows : List DrawnRow} {print : String}
    (lines : linesOf print = "  Syntax tree".toList :: [] :: (rows.flatMap rowLines ++ [[], []])) :
    PrintsRows rows print ↔ ∀ d ∈ rows, '\n' ∉ lineText (treeRow d) := by
  constructor
  · rintro ⟨found, begins, same⟩
    have same : found = rows.flatMap rowLines := by
      rw [lines] at same
      exact (List.append_cancel_right (List.cons.inj (List.cons.inj same).2).2).symm
    have length := begins.length_eq
    rw [same, length_flatMap_rowLines] at length
    have none : (rows.map fun d => (lineText (treeRow d)).count '\n').sum = 0 := by omega
    rw [List.sum_eq_zero_iff_forall_eq_nat, List.forall_mem_map] at none
    exact fun d mem => List.count_eq_zero.mp (none d mem)
  · intro whole
    exact ⟨_, forall₂_rowLines whole, lines⟩

/-- What a row says holds a break exactly when a text does that it says as it was sent. -/
theorem notMem_treeRow_iff {d : DrawnRow} (lead : Shown d.lead) :
    '\n' ∉ lineText (treeRow d) ↔ ∀ s ∈ d.node.bareTexts, '\n' ∉ s.toList := by
  have hidden : isHidden '\n' = true := by decide
  rw [← List.count_eq_zero, count_treeRow hidden lead, List.sum_eq_zero_iff_forall_eq_nat,
    List.forall_mem_map]
  simp only [List.count_eq_zero]

/-- The visible rows of a tree are printed in their order. Each takes a line and one more for each
break in the name of an unknown type or in the key of an attribute, and the first of its lines
begins as drawn. So there is one line for each row exactly when no such text holds a break. -/
theorem tree_prints_rows (root : Node) (e : Expansion) :
    let rows := (TreeView.available root).drawn e
    let print := renderPage false (tree (.available root) e)
    List.Forall₂ (DrawnRow.Shows e) rows ((TreeView.available root).visible e) ∧
      linesOf print = "  Syntax tree".toList :: [] :: (rows.flatMap rowLines ++ [[], []]) ∧
      (∀ d ∈ rows, ∃ first more, rowLines d = first :: more ∧ d.lead.toList <+: first ∧
        more.length = (d.node.bareTexts.map fun s => s.toList.count '\n').sum) ∧
      (PrintsRows rows print ↔ ∀ d ∈ rows, ∀ s ∈ d.node.bareTexts, '\n' ∉ s.toList) := by
  intro rows print
  have lead (d : DrawnRow) (mem : d ∈ rows) : Shown d.lead :=
    shown_lead_iff.mpr (shown_of_mem_draw mem).1
  have lines := linesOf_tree root e
  have shows := DrawnRow.forall₂_draw e [] ((TreeView.available root).visible e)
  refine ⟨shows, lines, fun d mem => exists_rowLines (lead d mem), ?_⟩
  rw [printsRows_iff lines]
  exact forall₂_congr fun d mem => notMem_treeRow_iff (lead d mem)

theorem drawn_of_leaf {root : Node} (leaf : root.children = []) (e : Expansion) :
    (TreeView.available root).drawn e = [⟨"", "", " ", root, .root⟩] := by
  have marker : DrawnRow.markerOf e ⟨root, 0, .root, true⟩ = " " := by
    rw [DrawnRow.markerOf, Node.hasChildren, leaf]
    rfl
  have rows : preOrder e .root true root = [⟨root, 0, .root, true⟩] := by
    rw [preOrder_eq, leaf, preOrderSiblings, ite_self]
    rfl
  rw [TreeView.drawn, TreeView.visible, visibleSubtree_eq_preOrder, rows, DrawnRow.draw, if_pos rfl,
    marker, DrawnRow.draw]

/-- A program whose value and whose attribute are two lines each. -/
def brokenValues : Node :=
  ({ Node.ofType .program 1 1 with value := some "a\nb" }).withAttribute "k" "c\nd"

/-- Breaks in values do not show: the program takes one line. -/
theorem tree_prints_rows_brokenValues :
    let view := TreeView.available brokenValues
    (view.drawn (.ofDepth 1)).length = 1 ∧
      PrintsRows (view.drawn (.ofDepth 1)) (renderPage false (tree view (.ofDepth 1))) := by
  intro view
  have rows : view.drawn (.ofDepth 1) = [⟨"", "", " ", brokenValues, .root⟩] :=
    drawn_of_leaf rfl _
  have bare : ∀ s ∈ brokenValues.bareTexts, '\n' ∉ s.toList := by decide
  obtain ⟨-, -, -, prints⟩ := tree_prints_rows brokenValues (.ofDepth 1)
  refine ⟨congrArg List.length rows, prints.mpr ?_⟩
  rw [rows, List.forall_mem_singleton]
  exact bare

/-- A program with an attribute whose key is two lines. -/
def brokenKey : Node := (Node.ofType .program 1 1).withAttribute "a\nb" "c"

/-- A break in a key shows: the program takes two lines. -/
theorem not_printsRows_brokenKey :
    let view := TreeView.available brokenKey
    ¬PrintsRows (view.drawn (.ofDepth 1)) (renderPage false (tree view (.ofDepth 1))) := by
  intro view
  have rows : view.drawn (.ofDepth 1) = [⟨"", "", " ", brokenKey, .root⟩] :=
    drawn_of_leaf rfl _
  have lead : Shown (DrawnRow.lead ⟨"", "", " ", brokenKey, .root⟩) := by decide
  have broken : "a\nb" ∈ brokenKey.bareTexts := by decide
  rw [printsRows_iff (linesOf_tree brokenKey _), rows, List.forall_mem_singleton,
    notMem_treeRow_iff lead]
  intro whole
  exact whole "a\nb" broken (by decide)

end Page

end AnalysisBrowser
