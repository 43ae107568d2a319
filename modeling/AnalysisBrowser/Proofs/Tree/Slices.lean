import AnalysisBrowser.Proofs.Tree.Blocks

/-!
# Walks from inner nodes

A walk from an inner node asks for the same flags as the walk over the whole tree, by paths from the
root. So its rows are a slice of the rows of the whole tree, where the node is shown. Only its first
row may differ: the node counts as a last sibling there. Where the node is hidden its rows are still
those of the paths that go on from it through expanded nodes.
-/
namespace AnalysisBrowser

variable {e : Expansion} {root n : Node} {p : NodePath} {r s : VisibleRow}

/-- Where the row of a node and those below it stand among the rows of the tree. -/
theorem exists_slice (row : r ∈ (TreeView.available root).visible e) :
    ∃ before after,
      (TreeView.available root).visible e = before ++ (r :: r.below e) ++ after ∧
      (∀ s ∈ r :: r.below e, r.path.indices <+: s.path.indices) ∧
      ∀ s ∈ before ++ after, ¬r.path.indices <+: s.path.indices := by
  obtain ⟨before, after, split⟩ := exists_visible_split row
  have rows : (TreeView.available root).visible e = before ++ (r :: r.below e) ++ after := by
    rw [split e fun _ _ => rfl, List.append_assoc, List.cons_append]
  have slice := preOrder_of_row (e := e) (depth_of_rowAt (mem_visible.mp row)) r.isLastSibling
  have beside : (before ++ after).Sublist ((TreeView.available root).visible e) := by
    rw [rows]
    exact (List.sublist_append_left before (r :: r.below e)).append_right after
  -- No row stands twice in the list, so none is both in the slice and beside it.
  have apart : (r :: r.below e).Disjoint (before ++ after) := by
    have distinct : ((TreeView.available root).visible e).Nodup :=
      (listsPaths_visible root e).once.of_map
    have moved : ((r :: r.below e) ++ before ++ after).Perm (before ++ (r :: r.below e) ++ after) :=
      List.perm_append_comm.append_right after
    rw [rows, ← moved.nodup_iff, List.append_assoc] at distinct
    exact List.disjoint_of_nodup_append distinct
  refine ⟨before, after, rows, fun s mem => ?_, fun s mem front => ?_⟩
  · rw [← slice] at mem
    exact ((mem_preOrder_of_row row).mp mem).2
  · have inside := (mem_preOrder_of_row row).mpr ⟨beside.subset mem, front⟩
    rw [slice] at inside
    exact apart inside mem

/-- A walk from the node at a path lists the paths that go on from there through expanded nodes. If
the node has a row, the walk yields the rows at and below it, which stand together in the rows of the
whole tree and are all of those whose path goes on from there; only, its first row counts as last. -/
theorem subtreeWalk_is_slice (root n : Node) (p : NodePath) (e : Expansion)
    (reached : p.resolve root = some n) :
    ListsPaths root p (fun q => p.indices <+: q.indices ∧ ∀ m : NodePath,
        p.indices <+: m.indices → m.indices <+: q.indices → m ≠ q → e.isExpanded m = true)
      (visibleSubtree n p e) ∧
    ∀ r ∈ (TreeView.available root).visible e, r.path = p →
      ∃ before below after,
        (TreeView.available root).visible e = before ++ (r :: below) ++ after ∧
        visibleSubtree n p e = { r with isLastSibling := true } :: below ∧
        (∀ s ∈ r :: below, p.indices <+: s.path.indices) ∧
        ∀ s ∈ before ++ after, ¬p.indices <+: s.path.indices := by
  rw [visibleSubtree_eq_preOrder]
  refine ⟨listsPaths_preOrder reached, ?_⟩
  rintro r row rfl
  have lists := listsPaths_visible root e
  obtain rfl : n = r.node := Option.some.inj (reached.symm.trans (lists.node r row))
  obtain ⟨before, after, rows, inside, beside⟩ := exists_slice row
  have walked := preOrder_of_row (e := e) (lists.depth r row) true
  exact ⟨before, r.below e, after, rows, walked, inside, beside⟩

/-- The first of two statements in a state that shows its expression. -/
theorem subtreeWalk_is_slice_twoStatements :
    let e := Expansion.ofDepth 2
    let statement := { Node.ofType .statement 1 1 with children := [Node.ofType .expression 1 3] }
    NodePath.resolve ⟨[0]⟩ twoStatements = some statement ∧
      ∃ r ∈ (TreeView.available twoStatements).visible e, r.path = ⟨[0]⟩ ∧
        r.isLastSibling = false ∧
        ∃ before below after,
          (TreeView.available twoStatements).visible e = before ++ (r :: below) ++ after ∧
          visibleSubtree statement ⟨[0]⟩ e = { r with isLastSibling := true } :: below := by
  intro e statement
  have reached : NodePath.resolve ⟨[0]⟩ twoStatements = some statement := rfl
  let r : VisibleRow := ⟨statement, 1, ⟨[0]⟩, false⟩
  have row : r ∈ (TreeView.available twoStatements).visible e := mem_visible.mpr rfl
  obtain ⟨-, slices⟩ := subtreeWalk_is_slice twoStatements statement ⟨[0]⟩ e reached
  obtain ⟨before, below, after, rows, walk, -⟩ := slices r row rfl
  exact ⟨reached, r, row, rfl, rfl, before, below, after, rows, walk⟩

end AnalysisBrowser
