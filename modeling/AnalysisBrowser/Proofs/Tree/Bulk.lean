import AnalysisBrowser.Proofs.Tree.Growth

/-!
# Whole trees at once

To expand a tree as a whole gives every path that leads to a node the same flag, whatever flags were
there before, and leaves all other paths alone. The rows are then those of all nodes. Where the root
is closed they are the row of the root. An expansion without flags shows the nodes down to its depth.
-/
namespace AnalysisBrowser

variable {root : Node} {e : Expansion} {p : NodePath}

theorem listsPaths_expandAll (root : Node) (e : Expansion) :
    ListsPaths root .root (fun _ => True) ((TreeView.available root).visible (e.expandAll root)) :=
  (listsPaths_visible root (e.expandAll root)).congr fun _ reached =>
    iff_of_true (reveals_expandAll reached) trivial

/-- Under a closed root nothing shows. -/
theorem visible_of_closed (closed : e.isExpanded .root = false) :
    (TreeView.available root).visible e = [.start root .root] := by
  have opened : (VisibleRow.start root .root).opened e = [] := by
    rw [VisibleRow.opened, if_neg]
    exact Bool.eq_false_iff.mp closed
  rw [TreeView.visible, visibleSubtree, walk, opened, List.nil_append, walk]

theorem isExpanded_setAll_of_none {b : Bool} (nowhere : p.resolve root = none) :
    (e.setAll root b).isExpanded p = e.isExpanded p := by
  rw [Expansion.isExpanded_setAll, nowhere]
  rfl

theorem isExpanded_ofDepth (n : Nat) (p : NodePath) :
    (Expansion.ofDepth n).isExpanded p = decide (p.depth < n) := rfl

/-- Without flags the paths down to the depth are revealed. -/
theorem reveals_ofDepth_iff {n : Nat} : (Expansion.ofDepth n).Reveals p ↔ p.depth ≤ n := by
  rw [reveals_iff_take]
  simp only [isExpanded_ofDepth, NodePath.depth, List.length_take, decide_eq_true_iff]
  constructor
  · intro above
    -- The path right above the last step is the longest one that has to be expanded.
    by_contra deeper
    have longest := above (p.indices.length - 1) (by omega)
    omega
  · intro bound k shorter
    omega

theorem visible_ofDepth_eq_filter (root : Node) (e : Expansion) (n : Nat) :
    (TreeView.available root).visible (.ofDepth n) =
      ((TreeView.available root).visible (e.expandAll root)).filter fun r => r.depth ≤ n := by
  have whole := listsPaths_expandAll root e
  have shallow := whole.filter fun p => p.depth ≤ n
  have same : ∀ r ∈ (TreeView.available root).visible (e.expandAll root),
      decide (r.path.depth ≤ n) = decide (r.depth ≤ n) := fun r mem => by rw [whole.depth r mem]
  rw [← List.filter_congr same]
  refine (listsPaths_visible root (.ofDepth n)).unique shallow fun p _ => ?_
  rw [reveals_ofDepth_iff, true_and]

/-- What shows after a tree was expanded or collapsed as a whole, from any state before, and in a
state without flags. The paths that lead to no node keep what they had. -/
theorem bulk_expansion_shows (root : Node) (e : Expansion) :
    let rows := fun f => (TreeView.available root).visible f
    ListsPaths root .root (fun _ => True) (rows (e.expandAll root)) ∧
    (rows (e.expandAll root)).map (fun r => (r.node, r.depth)) = root.withDepths 0 ∧
    rows (e.collapseAll root) = [.start root .root] ∧
    (∀ p : NodePath, p.resolve root = none →
      (e.expandAll root).isExpanded p = e.isExpanded p ∧
      (e.collapseAll root).isExpanded p = e.isExpanded p) ∧
    (∀ n, ListsPaths root .root (fun p => p.depth ≤ n) (rows (.ofDepth n)) ∧
      rows (.ofDepth n) = (rows (e.expandAll root)).filter fun r => r.depth ≤ n) ∧
    rows (.ofDepth 0) = [.start root .root] := by
  have collapsed : (e.collapseAll root).isExpanded .root = false :=
    Expansion.isExpanded_setAll e root false .root
  refine ⟨listsPaths_expandAll root e, map_visible_expandAll root e, visible_of_closed collapsed,
    fun p nowhere => ?_, fun n => ⟨?_, visible_ofDepth_eq_filter root e n⟩, ?_⟩
  · exact ⟨isExpanded_setAll_of_none nowhere, isExpanded_setAll_of_none nowhere⟩
  · exact (listsPaths_visible root (.ofDepth n)).congr fun p _ => reveals_ofDepth_iff
  · exact visible_of_closed rfl

/-- Two statements in a state with a flag below the tree and a closed first statement. -/
theorem bulk_expansion_shows_twoStatements :
    let e := ((Expansion.ofDepth 2).set ⟨[0]⟩ false).set ⟨[1, 5]⟩ true
    let rows := fun f => (TreeView.available twoStatements).visible f
    NodePath.resolve ⟨[1, 5]⟩ twoStatements = none ∧
      (e.expandAll twoStatements).isExpanded ⟨[1, 5]⟩ = true ∧
      (e.collapseAll twoStatements).isExpanded ⟨[1, 5]⟩ = true ∧
      (rows (e.expandAll twoStatements)).map (fun r => (r.node, r.depth)) =
        twoStatements.withDepths 0 ∧
      rows (e.collapseAll twoStatements) = [.start twoStatements .root] ∧
      rows (.ofDepth 1) = (rows (e.expandAll twoStatements)).filter fun r => r.depth ≤ 1 := by
  intro e rows
  obtain ⟨-, whole, collapsed, others, shallow, -⟩ := bulk_expansion_shows twoStatements e
  have nowhere : NodePath.resolve ⟨[1, 5]⟩ twoStatements = none := rfl
  have kept := others ⟨[1, 5]⟩ nowhere
  have flag : e.isExpanded ⟨[1, 5]⟩ = true := by decide
  exact ⟨nowhere, kept.1.trans flag, kept.2.trans flag, whole, collapsed, (shallow 1).2⟩

end AnalysisBrowser
