import AnalysisBrowser.Tree.Expansion

/-!
# Visible rows

The rows of a tree that show under an expansion, in the order in which they are drawn. The walk
keeps the rows still to come on a stack: it takes the topmost one, and if that is expanded its
children go on top.
-/
namespace AnalysisBrowser

/-- A node as a row of the drawn tree. -/
structure VisibleRow where
  node : Node
  depth : Nat
  path : NodePath
  /-- Whether the node is the last child of its parent; the first row of a walk counts as last. -/
  isLastSibling : Bool

namespace VisibleRow

def start (n : Node) (p : NodePath) : VisibleRow := ⟨n, p.depth, p, true⟩

/-- The rows of siblings, the first of them the `index`-th child of the node at `parent`. -/
def siblings (parent : NodePath) (depth index : Nat) : List Node → List VisibleRow
  | [] => []
  | n :: rest =>
    ⟨n, depth, parent.child index, rest.isEmpty⟩ :: siblings parent depth (index + 1) rest

/-- The rows of the children of a row. -/
def children (r : VisibleRow) : List VisibleRow :=
  siblings r.path (r.depth + 1) 0 r.node.children

/-- The rows that come directly below a row. -/
def opened (e : Expansion) (r : VisibleRow) : List VisibleRow :=
  if e.isExpanded r.path then r.children else []

/-- The number of nodes in the subtrees of a stack of rows. -/
def sizeAll (rows : List VisibleRow) : Nat := Node.sizeAll (rows.map node)

theorem map_node_siblings (parent : NodePath) (depth index : Nat) (ns : List Node) :
    (siblings parent depth index ns).map node = ns := by
  induction ns generalizing index with
  | nil => rfl
  | cons n rest ih => simp [siblings, ih]

end VisibleRow

theorem VisibleRow.sizeAll_opened_lt (e : Expansion) (r : VisibleRow) (rest : List VisibleRow) :
    VisibleRow.sizeAll (r.opened e ++ rest) < VisibleRow.sizeAll (r :: rest) := by
  have bound : Node.sizeAll ((r.opened e).map VisibleRow.node) ≤ Node.sizeAll r.node.children := by
    unfold VisibleRow.opened
    split
    · exact Nat.le_of_eq (by rw [VisibleRow.children, VisibleRow.map_node_siblings])
    · exact Nat.zero_le _
  have size := Node.size_eq r.node
  simp only [VisibleRow.sizeAll, List.map_append, List.map_cons, Node.sizeAll_append, Node.sizeAll]
  omega

/-- The rows that come out of a stack. -/
def walk (e : Expansion) : List VisibleRow → List VisibleRow
  | [] => []
  | r :: rest => r :: walk e (r.opened e ++ rest)
termination_by stack => VisibleRow.sizeAll stack
decreasing_by exact VisibleRow.sizeAll_opened_lt e r rest

/-- The rows of the subtree of a node that stands at a path. -/
def visibleSubtree (n : Node) (p : NodePath) (e : Expansion) : List VisibleRow :=
  walk e [.start n p]

end AnalysisBrowser
