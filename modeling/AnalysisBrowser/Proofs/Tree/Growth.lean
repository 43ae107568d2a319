import AnalysisBrowser.Proofs.Tree.Listing
import AnalysisBrowser.Proofs.Tree.Totals

/-!
# Rows under wider expansions

An expansion is wider than another if it expands every path that the other expands. It reveals more
paths then, so the rows of the other are among its own, in the same order. The widest expansion of a
tree shows every node, which bounds the number of rows under any of them.
-/
namespace AnalysisBrowser

variable {root : Node} {e f : Expansion} {p : NodePath}

/-- A narrower expansion shows those rows of a wider one whose paths it reveals. -/
theorem visible_eq_filter (view : TreeView)
    (wider : ∀ q, e.isExpanded q = true → f.isExpanded q = true) :
    view.visible e = (view.visible f).filter fun r => e.Reveals r.path := by
  cases view with
  | unavailable => rfl
  | available root =>
    have chosen := (listsPaths_visible root f).filter e.Reveals
    refine (listsPaths_visible root e).unique chosen fun p _ => ?_
    exact ⟨fun revealed => ⟨revealed.mono wider, revealed⟩, And.right⟩

theorem visible_sublist (view : TreeView)
    (wider : ∀ q, e.isExpanded q = true → f.isExpanded q = true) :
    (view.visible e).Sublist (view.visible f) := by
  rw [visible_eq_filter view wider]
  exact List.filter_sublist

/-- Every path of a tree is revealed once the tree was expanded as a whole. -/
theorem reveals_expandAll (reached : (p.resolve root).isSome = true) :
    (e.expandAll root).Reveals p :=
  fun _ below => isExpanded_expandAll (isSome_resolve_above below.1 reached)

theorem isExpanded_deeper {n : Nat} (deeper : e.expandDepth ≤ n)
    (expanded : e.isExpanded p = true) :
    ({ e with expandDepth := n } : Expansion).isExpanded p = true := by
  have flags : ({ e with expandDepth := n } : Expansion).flag? p = e.flag? p := rfl
  rw [Expansion.isExpanded] at expanded ⊢
  rw [flags]
  cases flag : e.flag? p with
  | some b => rwa [flag] at expanded
  | none =>
    rw [flag, Option.getD_none, decide_eq_true_iff] at expanded
    rw [Option.getD_none, decide_eq_true_iff]
    exact expanded.trans_le deeper

theorem isExpanded_set_true {q : NodePath} (expanded : e.isExpanded q = true) :
    (e.set p true).isExpanded q = true := by
  rw [Expansion.isExpanded_set]
  split
  · rfl
  · exact expanded

/-- No expansion shows more rows than a tree has nodes. -/
theorem length_visible_le (root : Node) (e : Expansion) :
    ((TreeView.available root).visible e).length ≤ root.size := by
  have lists := listsPaths_visible root e
  have whole := listsPaths_visible root (e.expandAll root)
  have rows := lists.sublist whole fun p reached _ => reveals_expandAll reached
  rw [← length_visible_expandAll root e]
  exact rows.length_le

/-- A wider expansion shows the rows of a narrower one and others between them. The rows of the
narrower one are those whose paths it reveals, and at one path both have the same row. So neither a
greater depth nor a flag that opens a node hides a row, and there are never more rows than nodes. -/
theorem wider_expansion_shows_more (ast : Node) (e : Expansion) :
    let rows := fun f => (TreeView.ofNode ast).visible f
    (∀ f : Expansion, (∀ q, e.isExpanded q = true → f.isExpanded q = true) →
      (rows e).Sublist (rows f) ∧ rows e = (rows f).filter (fun r => e.Reveals r.path) ∧
      ∀ r ∈ rows e, ∀ s ∈ rows f, r.path = s.path →
        r.node = s.node ∧ r.depth = s.depth ∧ r.isLastSibling = s.isLastSibling) ∧
    (∀ n, e.expandDepth ≤ n → (rows e).Sublist (rows { e with expandDepth := n })) ∧
    (∀ p, (rows e).Sublist (rows (e.set p true))) ∧
    ∀ s, (TreeView.ofNode ast).summary = some s → (rows e).length ≤ s.nodeCount := by
  let view := TreeView.ofNode ast
  refine ⟨fun f wider => ?_, fun n deeper => ?_, fun p => ?_, fun s found => ?_⟩
  · refine ⟨visible_sublist view wider, visible_eq_filter view wider, fun r mem s mem' same => ?_⟩
    obtain rfl := row_unique mem mem' same
    exact ⟨rfl, rfl, rfl⟩
  · exact visible_sublist view fun q => isExpanded_deeper deeper
  · exact visible_sublist view fun q => isExpanded_set_true
  · rcases ofNode_eq ast with ⟨-, unavailable⟩ | ⟨-, available⟩
    · rw [unavailable] at found
      cases found
    · rw [available] at found ⊢
      have count : s.nodeCount = ast.size :=
        (countsRows_of? found e).nodes.trans (length_visible_expandAll ast e)
      rw [count]
      exact length_visible_le ast e

/-- A program of two statements whose first one is opened, in a state that hides its expression. -/
theorem wider_expansion_shows_more_twoStatements :
    let e := Expansion.ofDepth 1
    let f := e.set ⟨[0]⟩ true
    let rows := fun f => (TreeView.ofNode twoStatements).visible f
    e.isExpanded ⟨[0]⟩ = false ∧ (∀ q, e.isExpanded q = true → f.isExpanded q = true) ∧
      (rows e).Sublist (rows f) ∧ rows e = (rows f).filter (fun r => e.Reveals r.path) ∧
      (∃ r ∈ rows e, ∃ s ∈ rows f, r.path = ⟨[0]⟩ ∧ s.path = ⟨[0]⟩ ∧
        r.node = s.node ∧ r.depth = s.depth ∧ r.isLastSibling = s.isLastSibling) ∧
      e.expandDepth ≤ 2 ∧ (rows e).Sublist (rows { e with expandDepth := 2 }) ∧
      ∃ s, (TreeView.ofNode twoStatements).summary = some s ∧ s.nodeCount = 4 ∧
        (rows e).length ≤ 4 := by
  intro e f rows
  obtain ⟨grows, deepens, -, counts⟩ := wider_expansion_shows_more twoStatements e
  have wider : ∀ q, e.isExpanded q = true → f.isExpanded q = true := fun q => isExpanded_set_true
  obtain ⟨sublist, filter, common⟩ := grows f wider
  have shows (g : Expansion) (revealed : g.Reveals ⟨[0]⟩) : ∃ r ∈ rows g, r.path = ⟨[0]⟩ :=
    ((listsPaths_visible twoStatements g).shown ⟨[0]⟩).mpr ⟨rfl, revealed⟩
  obtain ⟨r, mem, path⟩ := shows e (by decide)
  obtain ⟨s, mem', path'⟩ := shows f (by decide)
  have same := common r mem s mem' (path.trans path'.symm)
  have summary : (TreeView.ofNode twoStatements).summary = some _ :=
    (of?_eq_byRecursion? twoStatements).trans rfl
  exact ⟨by decide, wider, sublist, filter, ⟨r, mem, s, mem', path, path', same⟩, by decide,
    deepens 2 (by decide), _, summary, rfl, counts _ summary⟩

end AnalysisBrowser
