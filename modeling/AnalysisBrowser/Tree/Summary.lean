import AnalysisBrowser.Tree.Path
import AnalysisBrowser.Tally

/-!
# Summaries

What a whole tree holds, whatever part of it shows. All nodes are counted in one walk, which keeps
those still to come on a stack. Nodes whose type is not known are counted, but in no group.
-/
namespace AnalysisBrowser

/-- What a walk over a tree has counted. -/
structure Survey where
  nodeCount : Nat
  /-- The depth of the deepest node; the root has depth zero. -/
  maxDepth : Nat
  /-- The nodes of each known type, in order of first occurrence. -/
  nodeTypeCounts : Tally NodeType
  hasErrors : Bool

namespace Survey

/-- Nothing is counted yet. -/
def blank : Survey := ⟨0, 0, [], false⟩

/-- Counts a node at its depth. -/
def add (s : Survey) (n : Node) (depth : Nat) : Survey :=
  let deepest := max s.maxDepth depth
  match n.type? with
  | some t =>
    ⟨s.nodeCount + 1, deepest, s.nodeTypeCounts.add t, s.hasErrors || t.isError⟩
  | none => ⟨s.nodeCount + 1, deepest, s.nodeTypeCounts, s.hasErrors⟩

/-- Siblings with their depth. -/
def atDepth (depth : Nat) (ns : List Node) : List (Node × Nat) := ns.map fun n => (n, depth)

theorem map_fst_atDepth (depth : Nat) (ns : List Node) : (atDepth depth ns).map Prod.fst = ns := by
  simp [atDepth, Function.comp_def]

/-- Counts every node that is reached from a stack: the topmost node is counted, and its children
go on top, the first one topmost. -/
def gather : Survey → List (Node × Nat) → Survey
  | s, [] => s
  | s, (n, depth) :: rest =>
    gather (s.add n depth) (atDepth (depth + 1) n.children ++ rest)
termination_by _ stack => Node.sizeAll (stack.map Prod.fst)
decreasing_by
  simp only [List.map_append, map_fst_atDepth, List.map_cons, Node.sizeAll_append, Node.sizeAll,
    Node.size_eq n]
  omega

/-- Counts the nodes of a tree. -/
def ofTree (root : Node) : Survey := gather blank [(root, 0)]

end Survey

/-- Facts about the root and statistics of the whole tree. -/
structure TreeSummary where
  /-- The type of the root as sent. -/
  nodeType : String
  value : Option String
  /-- The number of children of the root. -/
  childCount : Nat
  line : UInt64
  position : UInt64
  nodeCount : Nat
  /-- The depth of the deepest node; the root has depth zero. -/
  maxDepth : Nat
  /-- The nodes of each known type, in order of first occurrence. -/
  nodeTypeCounts : Tally NodeType
  hasErrors : Bool
  deriving Repr

namespace TreeSummary

def of? (root : Node) : Option TreeSummary :=
  root.rawType?.map fun nodeType =>
    let whole := Survey.ofTree root
    { nodeType
      value := root.displayValue?
      childCount := root.children.length
      line := root.line
      position := root.position
      nodeCount := whole.nodeCount
      maxDepth := whole.maxDepth
      nodeTypeCounts := whole.nodeTypeCounts
      hasErrors := whole.hasErrors }

/-- The number of nodes of a known type. -/
def countOf (s : TreeSummary) (t : NodeType) : Nat := s.nodeTypeCounts.count t

def toJson (s : TreeSummary) : Json :=
  .object
    [("nodeType", .string s.nodeType), ("value", .optionalText s.value),
      ("childCount", .count s.childCount), ("line", .word s.line), ("position", .word s.position),
      ("nodeCount", .count s.nodeCount), ("maxDepth", .count s.maxDepth),
      ("nodeTypeCounts",
        .list (fun (t, n) => .object [("nodeType", .string t.name), ("count", .count n)])
          s.nodeTypeCounts),
      ("hasErrors", .bool s.hasErrors)]

end TreeSummary

end AnalysisBrowser
