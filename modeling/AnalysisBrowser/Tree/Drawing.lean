import AnalysisBrowser.Tree.View

/-!
# Drawing a tree

Every row of a tree below the root is joined to its parent by a connector. To the left of it stand
the guides of the ancestors: a line where an ancestor has a sibling further down, blanks where it
is the last one. While the rows are drawn in order it is enough to know, for each level above,
whether the latest row there was a last sibling.
-/
namespace AnalysisBrowser

/-- A row of a tree with its lines resolved. -/
structure DrawnRow where
  guides : String
  connector : String
  marker : String
  node : Node
  path : NodePath

namespace DrawnRow

/-- The guide of one level above. -/
def guide (isLast : Bool) : String := if isLast then "   " else "│  "

/-- The guides of the levels above, outermost first. -/
def guidesOf (lasts : List Bool) : String := String.join (lasts.map guide)

/-- The connector of a row below the root. -/
def connectorOf (isLast : Bool) : String := if isLast then "└─ " else "├─ "

/-- The marker of a row: open, closed, or none for a leaf. -/
def markerOf (e : Expansion) (r : VisibleRow) : String :=
  if !r.node.hasChildren then " " else if e.isExpanded r.path then "▼" else "▶"

/-- Draws rows in order; `lasts` says of each level above whether its latest row was a last
sibling. -/
def draw (e : Expansion) : List Bool → List VisibleRow → List DrawnRow
  | _, [] => []
  | lasts, r :: rest =>
    if r.depth = 0 then
      ⟨"", "", markerOf e r, r.node, r.path⟩ :: draw e [] rest
    else
      let above := lasts.take (r.depth - 1)
      ⟨guidesOf above, connectorOf r.isLastSibling, markerOf e r, r.node, r.path⟩ ::
        draw e (above ++ [r.isLastSibling]) rest

end DrawnRow

/-- The drawn rows of a view. -/
def TreeView.drawn (view : TreeView) (e : Expansion) : List DrawnRow :=
  DrawnRow.draw e [] (view.visible e)

end AnalysisBrowser
