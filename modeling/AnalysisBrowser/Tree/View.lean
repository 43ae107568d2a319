import AnalysisBrowser.Tree.Summary
import AnalysisBrowser.Tree.Visible

/-!
# Tree views

A tree as it is shown. A root without a type stands for no tree at all: such a view has no rows and
no summary, whatever children the root has.
-/
namespace AnalysisBrowser

/-- A tree to show, or none. -/
inductive TreeView where
  | unavailable
  | available (root : Node)

namespace TreeView

/-- The view of a root. -/
def ofNode (ast : Node) : TreeView := if ast.isAvailable then .available ast else .unavailable

def isAvailable : TreeView → Bool
  | .unavailable => false
  | .available _ => true

/-- The rows that show under an expansion. -/
def visible (e : Expansion) : TreeView → List VisibleRow
  | .unavailable => []
  | .available root => visibleSubtree root .root e

/-- The summary of the whole tree. -/
def summary : TreeView → Option TreeSummary
  | .unavailable => none
  | .available root => TreeSummary.of? root

end TreeView

end AnalysisBrowser
