import AnalysisBrowser.View.Page

/-!
# What views read of an expansion

Two expansions with other flags and another depth may still expand the same paths. The rows of a
tree, its drawing, its page and its document are then the same, since all of them ask an expansion
for nothing but whether a path is expanded.
-/
namespace AnalysisBrowser

variable {e f : Expansion}

theorem opened_congr (same : e.isExpanded = f.isExpanded) (r : VisibleRow) :
    r.opened e = r.opened f := by
  unfold VisibleRow.opened
  rw [same]

theorem walk_congr (same : e.isExpanded = f.isExpanded) (stack : List VisibleRow) :
    walk e stack = walk f stack := by
  fun_induction walk e stack with
  | case1 => rw [walk]
  | case2 r rest ih => rw [walk, ih, opened_congr same]

theorem visible_congr (same : e.isExpanded = f.isExpanded) (view : TreeView) :
    view.visible e = view.visible f := by
  cases view with
  | unavailable => rfl
  | available root => exact walk_congr same _

theorem markerOf_congr (same : e.isExpanded = f.isExpanded) (r : VisibleRow) :
    DrawnRow.markerOf e r = DrawnRow.markerOf f r := by
  unfold DrawnRow.markerOf
  rw [same]

theorem draw_congr (same : e.isExpanded = f.isExpanded) (lasts : List Bool)
    (rows : List VisibleRow) : DrawnRow.draw e lasts rows = DrawnRow.draw f lasts rows := by
  induction rows generalizing lasts with
  | nil => rfl
  | cons r rest ih =>
    unfold DrawnRow.draw
    simp only [markerOf_congr same, ih]

theorem drawn_congr (same : e.isExpanded = f.isExpanded) (view : TreeView) :
    view.drawn e = view.drawn f := by
  unfold TreeView.drawn
  rw [visible_congr same, draw_congr same]

theorem treePage_congr (same : e.isExpanded = f.isExpanded) (view : TreeView) :
    Page.tree view e = Page.tree view f := by
  unfold Page.tree
  rw [drawn_congr same]

theorem ofRow_congr (same : e.isExpanded = f.isExpanded) :
    TreeEntry.ofRow e = TreeEntry.ofRow f := by
  funext r
  unfold TreeEntry.ofRow
  rw [same]

theorem treeDocument_congr (same : e.isExpanded = f.isExpanded) (view : TreeView) :
    TreeDocument.ofView view e = TreeDocument.ofView view f := by
  unfold TreeDocument.ofView
  rw [visible_congr same, ofRow_congr same]

end AnalysisBrowser
