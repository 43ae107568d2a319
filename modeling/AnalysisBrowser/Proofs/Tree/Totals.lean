import AnalysisBrowser.Proofs.Tally
import AnalysisBrowser.Proofs.Tree.Agreement
import AnalysisBrowser.Proofs.Tree.Cells
import AnalysisBrowser.Proofs.Tree.Height

/-!
# The summary of a tree

A summary is counted in one walk with a stack of its own. Here the nodes that it meets are those of
a recursion over the tree, parents first, so its numbers are those of the recursion. The walk over a
tree that is expanded throughout meets the same nodes in the same order, and each of them at a path
of its own. With that the numbers are also those of the paths that lead to a node.
-/
namespace AnalysisBrowser

mutual

/-- The nodes of a tree with their depths, parents first. -/
def Node.withDepths (depth : Nat) : Node → List (Node × Nat)
  | ⟨typeName, value, line, position, children, attributes⟩ =>
    (⟨typeName, value, line, position, children, attributes⟩, depth) ::
      Node.withDepthsAll (depth + 1) children

/-- The nodes of several trees with their depths. -/
def Node.withDepthsAll (depth : Nat) : List Node → List (Node × Nat)
  | [] => []
  | n :: rest => n.withDepths depth ++ Node.withDepthsAll depth rest

end

/-- The known types among the nodes of a tree, parents first. -/
def Node.types (root : Node) : List NodeType := (root.withDepths 0).filterMap fun entry => entry.1.type?

/-- The summary of a tree by recursion over the tree. -/
def TreeSummary.byRecursion? (root : Node) : Option TreeSummary :=
  root.rawType?.map fun nodeType =>
    { nodeType
      value := root.displayValue?
      childCount := root.children.length
      line := root.line
      position := root.position
      nodeCount := root.size
      maxDepth := root.height
      nodeTypeCounts := (firstOccurrences root.types).map fun t => (t, root.types.count t)
      hasErrors := decide (NodeType.syntaxError ∈ root.types) }

theorem withDepths_eq (depth : Nat) (n : Node) :
    n.withDepths depth = (n, depth) :: Node.withDepthsAll (depth + 1) n.children := by
  cases n
  rw [Node.withDepths]

theorem flatMap_atDepth (depth : Nat) (ns : List Node) :
    (Survey.atDepth depth ns).flatMap (fun entry => entry.1.withDepths entry.2) =
      Node.withDepthsAll depth ns := by
  induction ns with
  | nil => rfl
  | cons n rest ih =>
    rw [Survey.atDepth, List.map_cons, List.flatMap_cons, ← Survey.atDepth, ih, Node.withDepthsAll]

/-- The walk counts the nodes of the trees on its stack, one tree after another. -/
theorem gather_eq_foldl (s : Survey) (stack : List (Node × Nat)) :
    s.gather stack = (stack.flatMap fun entry => entry.1.withDepths entry.2).foldl
      (fun s entry => s.add entry.1 entry.2) s := by
  induction s, stack using Survey.gather.induct with
  | case1 s => rw [Survey.gather, List.flatMap_nil, List.foldl_nil]
  | case2 s n depth rest ih =>
    rw [Survey.gather, ih, List.flatMap_append, flatMap_atDepth, List.flatMap_cons, withDepths_eq,
      List.cons_append, List.foldl_cons]

/-- What has been counted after some nodes, from any start. -/
theorem foldl_add (s : Survey) (entries : List (Node × Nat)) :
    entries.foldl (fun s entry => s.add entry.1 entry.2) s =
      ⟨s.nodeCount + entries.length, (entries.map Prod.snd).foldl max s.maxDepth,
        (entries.filterMap fun entry => entry.1.type?).foldl Tally.add s.nodeTypeCounts,
        s.hasErrors || (entries.filterMap fun entry => entry.1.type?).any NodeType.isError⟩ := by
  induction entries generalizing s with
  | nil => simp
  | cons entry rest ih =>
    obtain ⟨n, depth⟩ := entry
    rw [List.foldl_cons, ih, Survey.add]
    have count : s.nodeCount + 1 + rest.length = s.nodeCount + (rest.length + 1) := by omega
    cases known : n.type? with
    | none => simp [known, count]
    | some t => simp [known, count, Bool.or_assoc]

theorem ofTree_eq (root : Node) :
    Survey.ofTree root =
      ⟨(root.withDepths 0).length, ((root.withDepths 0).map Prod.snd).foldl max 0,
        Tally.ofList root.types, root.types.any NodeType.isError⟩ := by
  rw [Survey.ofTree, gather_eq_foldl, List.flatMap_singleton, foldl_add]
  simp only [Survey.blank, Nat.zero_add, Bool.false_or]
  rfl

variable {e : Expansion}

theorem map_preOrderSiblings {parent : NodePath} {index : Nat} {ns : List Node}
    (each : ∀ i c, ns[i]? = some c → ∀ isLast,
      (preOrder e (parent.child (index + i)) isLast c).map (fun r => (r.node, r.depth)) =
        c.withDepths (parent.depth + 1)) :
    (preOrderSiblings e parent index ns).map (fun r => (r.node, r.depth)) =
      Node.withDepthsAll (parent.depth + 1) ns := by
  induction ns generalizing index with
  | nil => rfl
  | cons n rest ih =>
    have first := each 0 n rfl rest.isEmpty
    rw [Nat.add_zero] at first
    have later := ih fun i c found isLast => by
      have behind := each (i + 1) c found isLast
      rwa [Nat.add_comm i 1, ← Nat.add_assoc] at behind
    rw [preOrderSiblings, List.map_append, first, later, Node.withDepthsAll]

/-- Where every node of a tree is expanded, its rows are all of its nodes, parents first. -/
theorem map_preOrder_of_expanded {p : NodePath} {isLast : Bool} {n : Node}
    (expanded : ∀ is, (NodePath.follow is n).isSome = true → e.isExpanded ⟨p.indices ++ is⟩ = true) :
    (preOrder e p isLast n).map (fun r => (r.node, r.depth)) = n.withDepths p.depth := by
  induction n using Node.induct generalizing p isLast with
  | node n ih =>
    have here : e.isExpanded p = true := by
      have top := expanded [] rfl
      rwa [List.append_nil] at top
    rw [preOrder_eq, if_pos here, List.map_cons, withDepths_eq]
    refine congrArg _ (map_preOrderSiblings fun i c found isLast => ?_)
    rw [Nat.zero_add, ← NodePath.depth_child p i]
    refine ih c (List.mem_of_getElem? found) fun is reached => ?_
    have below := expanded (i :: is) ((isSome_follow_cons found).trans reached)
    rwa [NodePath.child, List.append_assoc, List.singleton_append]

theorem isExpanded_expandAll {root : Node} {p : NodePath} (reached : (p.resolve root).isSome = true) :
    (e.expandAll root).isExpanded p = true := by
  rw [Expansion.expandAll, Expansion.isExpanded_setAll, if_pos reached]

/-- The rows of a tree that was expanded as a whole are all of its nodes, parents first. -/
theorem map_visible_expandAll (root : Node) (e : Expansion) :
    ((TreeView.available root).visible (e.expandAll root)).map (fun r => (r.node, r.depth)) =
      root.withDepths 0 := by
  rw [TreeView.visible, visibleSubtree_eq_preOrder]
  exact map_preOrder_of_expanded fun is reached => isExpanded_expandAll reached

theorem types_eq_filterMap (root : Node) (e : Expansion) :
    root.types = ((TreeView.available root).visible (e.expandAll root)).filterMap
      fun r => r.node.type? := by
  rw [Node.types, ← map_visible_expandAll root e, List.filterMap_map]
  rfl

theorem isSome_resolve_above {root : Node} {p q : NodePath} (front : q.indices <+: p.indices)
    (reached : (p.resolve root).isSome = true) : (q.resolve root).isSome = true := by
  obtain ⟨is, path⟩ := front
  rw [NodePath.resolve, ← path, NodePath.follow_append] at reached
  cases found : NodePath.follow q.indices root with
  | none =>
    rw [found] at reached
    cases reached
  | some n => rw [NodePath.resolve, found, Option.isSome_some]

/-- Each path that leads to a node has a row once the tree was expanded as a whole. -/
theorem exists_row_expandAll_iff {root : Node} {p : NodePath} :
    (∃ r ∈ (TreeView.available root).visible (e.expandAll root), r.path = p) ↔
      (p.resolve root).isSome = true := by
  rw [(listsExpanded_visible root (e.expandAll root)).shown]
  refine and_iff_left_of_imp fun reached q front _ => ?_
  exact isExpanded_expandAll (isSome_resolve_above front reached)

theorem length_withDepthsAll {depth : Nat} {ns : List Node}
    (each : ∀ c ∈ ns, (c.withDepths depth).length = c.size) :
    (Node.withDepthsAll depth ns).length = Node.sizeAll ns := by
  induction ns with
  | nil => rfl
  | cons n rest ih =>
    rw [Node.withDepthsAll, List.length_append, each n List.mem_cons_self,
      ih fun c mem => each c (List.mem_cons_of_mem n mem), Node.sizeAll]

theorem length_withDepths (depth : Nat) (n : Node) : (n.withDepths depth).length = n.size := by
  induction n using Node.induct generalizing depth with
  | node n ih =>
    rw [withDepths_eq, List.length_cons, length_withDepthsAll fun c mem => ih c mem (depth + 1),
      Node.size_eq, Nat.add_comm]

theorem length_visible_expandAll (root : Node) (e : Expansion) :
    ((TreeView.available root).visible (e.expandAll root)).length = root.size := by
  rw [← length_withDepths 0 root, ← map_visible_expandAll root e, List.length_map]

theorem foldl_max_le_iff {xs : List Nat} {start k : Nat} :
    xs.foldl max start ≤ k ↔ start ≤ k ∧ ∀ x ∈ xs, x ≤ k := by
  induction xs generalizing start with
  | nil => simp
  | cons x xs ih => rw [List.foldl_cons, ih, Nat.max_le, List.forall_mem_cons, and_assoc]

/-- The greatest depth that the walk meets is the height of the tree. -/
theorem foldl_max_withDepths (root : Node) :
    ((root.withDepths 0).map Prod.snd).foldl max 0 = root.height := by
  have lists := listsExpanded_visible root (Expansion.expandAll (.ofDepth 0) root)
  refine eq_of_forall_ge_iff fun k => ?_
  rw [foldl_max_le_iff, and_iff_right (Nat.zero_le k), height_le_iff,
    ← map_visible_expandAll root (.ofDepth 0), List.map_map, List.forall_mem_map]
  constructor
  · intro bound p reached
    obtain ⟨r, mem, rfl⟩ := exists_row_expandAll_iff.mpr reached
    exact lists.depth r mem ▸ bound r mem
  · intro bound r mem
    have reached := exists_row_expandAll_iff.mp ⟨r, mem, rfl⟩
    exact (lists.depth r mem).trans_le (bound r.path reached)

theorem any_isError (types : List NodeType) :
    types.any NodeType.isError = decide (NodeType.syntaxError ∈ types) := by
  rw [Bool.eq_iff_iff, List.any_eq_true, decide_eq_true_iff]
  simp [NodeType.isError]

theorem of?_eq_byRecursion? (root : Node) :
    TreeSummary.of? root = TreeSummary.byRecursion? root := by
  simp only [TreeSummary.of?, TreeSummary.byRecursion?, ofTree_eq, length_withDepths,
    foldl_max_withDepths, Tally.ofList_eq, any_isError]

/-- A summary whose numbers are those of some rows. -/
structure TreeSummary.CountsRows (s : TreeSummary) (rows : List VisibleRow) : Prop where
  nodes : s.nodeCount = rows.length
  distinct : (s.nodeTypeCounts.map Prod.fst).Nodup
  occurs : ∀ t, t ∈ s.nodeTypeCounts.map Prod.fst ↔ ∃ r ∈ rows, r.node.type? = some t
  ordered : (s.nodeTypeCounts.map Prod.fst).Pairwise fun t u =>
    (rows.filterMap fun r => r.node.type?).idxOf t < (rows.filterMap fun r => r.node.type?).idxOf u
  counts : ∀ entry ∈ s.nodeTypeCounts, entry.2 = rows.countP fun r => r.node.type? = some entry.1
  total : (s.nodeTypeCounts.map Prod.snd).sum = rows.countP fun r => r.node.type?.isSome

theorem count_types (root : Node) (e : Expansion) (t : NodeType) :
    root.types.count t = ((TreeView.available root).visible (e.expandAll root)).countP
      fun r => r.node.type? = some t := by
  rw [types_eq_filterMap root e, List.count, List.countP_filterMap]
  refine List.countP_congr fun r _ => ?_
  cases r.node.type? with
  | none => simp
  | some u => simp

theorem countOf_eq {root : Node} {s : TreeSummary} (found : TreeSummary.of? root = some s)
    (t : NodeType) : s.countOf t = root.types.count t := by
  obtain ⟨nodeType, -, rfl⟩ := Option.map_eq_some_iff.mp found
  rw [TreeSummary.countOf, ofTree_eq]
  exact Tally.count_ofList root.types t

theorem countsRows_of? {root : Node} {s : TreeSummary} (found : TreeSummary.of? root = some s)
    (e : Expansion) :
    s.CountsRows ((TreeView.available root).visible (e.expandAll root)) := by
  have typed := types_eq_filterMap root e
  rw [of?_eq_byRecursion?] at found
  obtain ⟨nodeType, -, rfl⟩ := Option.map_eq_some_iff.mp found
  have keys : ((firstOccurrences root.types).map fun t => (t, root.types.count t)).map Prod.fst =
      firstOccurrences root.types := by
    simp [Function.comp_def]
  constructor
  · exact (length_visible_expandAll root e).symm
  · rw [keys]
    exact nodup_firstOccurrences root.types
  · intro t
    rw [keys, mem_firstOccurrences, typed, List.mem_filterMap]
  · rw [keys, ← typed]
    exact pairwise_firstOccurrences root.types
  · intro entry mem
    obtain ⟨t, -, rfl⟩ := List.mem_map.mp mem
    exact count_types root e t
  · have total := Tally.total_ofList root.types
    rw [Tally.total_eq_sum, Tally.ofList_eq] at total
    rw [← List.length_filterMap_eq_countP, ← typed]
    exact total

/-- A summary whose numbers are those of the paths that lead to a node. -/
structure TreeSummary.CountsPaths (s : TreeSummary) (root : Node) (paths : Finset NodePath) :
    Prop where
  nodes : s.nodeCount = paths.card
  deepest : ∃ p ∈ paths, p.depth = s.maxDepth
  bounded : ∀ p ∈ paths, p.depth ≤ s.maxDepth
  types : ∀ t, s.countOf t = (paths.filter fun p => (p.resolve root).bind Node.type? = some t).card
  total : (s.nodeTypeCounts.map Prod.snd).sum =
    (paths.filter fun p => ((p.resolve root).bind Node.type?).isSome = true).card

theorem exists_depth_eq_height (root : Node) :
    ∃ p : NodePath, (p.resolve root).isSome = true ∧ p.depth = root.height := by
  by_contra missed
  rw [not_exists] at missed
  have bounded := height_le_iff.mp (Nat.le_refl root.height)
  -- If no path were as long as the tree is high, the height would be smaller by one.
  have below : root.height ≤ root.height - 1 := by
    refine height_le_iff.mpr fun p reached => ?_
    have short := bounded p reached
    have other : p.depth ≠ root.height := fun same => missed p ⟨reached, same⟩
    omega
  have top : root.height = 0 := by omega
  exact missed .root ⟨rfl, top.symm⟩

theorem card_filter_paths {root : Node} {rows : List VisibleRow} (lists : ListsExpanded root e rows)
    (P : Option NodeType → Bool) :
    ((rows.map VisibleRow.path).toFinset.filter
        fun p => P ((p.resolve root).bind Node.type?) = true).card =
      rows.countP fun r => P r.node.type? := by
  have same : ∀ r ∈ rows, (P ((r.path.resolve root).bind Node.type?) = true ↔
      P r.node.type? = true) := fun r mem => by rw [lists.node r mem, Option.bind_some]
  rw [← List.toFinset_filter, List.toFinset_card_of_nodup (lists.once.filter _),
    ← List.countP_eq_length_filter, List.countP_map]
  exact List.countP_congr same

theorem countsPaths_of? {root : Node} {s : TreeSummary} (found : TreeSummary.of? root = some s) :
    ∃ paths : Finset NodePath,
      (∀ p, p ∈ paths ↔ (p.resolve root).isSome = true) ∧ s.CountsPaths root paths := by
  let e := Expansion.ofDepth 0
  have lists := listsExpanded_visible root (e.expandAll root)
  have rows := countsRows_of? found e
  have height : s.maxDepth = root.height := by
    rw [of?_eq_byRecursion?] at found
    obtain ⟨nodeType, -, rfl⟩ := Option.map_eq_some_iff.mp found
    rfl
  have member (p : NodePath) :
      p ∈ (((TreeView.available root).visible (e.expandAll root)).map VisibleRow.path).toFinset ↔
        (p.resolve root).isSome = true := by
    rw [List.mem_toFinset, List.mem_map, exists_row_expandAll_iff]
  refine ⟨_, member, ?_, ?_, ?_, fun t => ?_, ?_⟩
  · rw [List.toFinset_card_of_nodup lists.once, List.length_map]
    exact rows.nodes
  · obtain ⟨p, reached, deep⟩ := exists_depth_eq_height root
    exact ⟨p, (member p).mpr reached, deep.trans height.symm⟩
  · intro p mem
    rw [height]
    exact height_le_iff.mp (Nat.le_refl _) p ((member p).mp mem)
  · rw [countOf_eq found, count_types root e t]
    have card := card_filter_paths lists fun type => decide (type = some t)
    simpa only [decide_eq_true_eq] using card.symm
  · rw [rows.total]
    exact (card_filter_paths lists Option.isSome).symm

/-- A tree has a summary exactly when its root has a type, and this is the summary by recursion. Its
numbers are those of the paths that lead to a node, and those of the rows after the whole tree was
expanded, in whatever state it was. There are syntax errors exactly when their type is counted. -/
theorem summary_counts_tree (root : Node) :
    ((TreeSummary.of? root).isSome = true ↔ root.rawType? ≠ none) ∧
    TreeSummary.of? root = TreeSummary.byRecursion? root ∧
    (TreeView.ofNode root).summary = TreeSummary.of? root ∧
    ∀ s, TreeSummary.of? root = some s →
      (∃ paths : Finset NodePath,
        (∀ p, p ∈ paths ↔ (p.resolve root).isSome = true) ∧ s.CountsPaths root paths) ∧
      (∀ e : Expansion, s.CountsRows ((TreeView.ofNode root).visible (e.expandAll root))) ∧
      (s.hasErrors = true ↔ 0 < s.countOf .syntaxError) := by
  refine ⟨?_, of?_eq_byRecursion? root, ?_, fun s found => ⟨countsPaths_of? found, ?_, ?_⟩⟩
  · rw [TreeSummary.of?, Option.isSome_map, Option.isSome_iff_ne_none]
  · rcases ofNode_eq root with ⟨untyped, view⟩ | ⟨-, view⟩
    · rw [view, TreeSummary.of?, untyped]
      rfl
    · rw [view]
      rfl
  · rcases ofNode_eq root with ⟨untyped, -⟩ | ⟨-, view⟩
    · rw [TreeSummary.of?, untyped] at found
      cases found
    · rw [view]
      exact countsRows_of? found
  · rw [countOf_eq found, List.count_pos_iff]
    rw [of?_eq_byRecursion?] at found
    obtain ⟨nodeType, -, rfl⟩ := Option.map_eq_some_iff.mp found
    exact decide_eq_true_iff

/-- A root whose type is not known, over two statements and a place that did not parse. -/
def brokenModule : Node :=
  { Node.empty with
    typeName := some "MODULE"
    children :=
      [{ Node.ofType .statement 1 1 with children := [Node.ofType .syntaxError 1 3] },
        Node.ofType .statement 2 1] }

theorem summary_counts_tree_brokenModule :
    ∃ s, TreeSummary.of? brokenModule = some s ∧ s.nodeCount = 4 ∧ s.maxDepth = 2 ∧
      s.nodeTypeCounts = [(.statement, 2), (.syntaxError, 1)] ∧
      (∃ paths : Finset NodePath,
        (∀ p, p ∈ paths ↔ (p.resolve brokenModule).isSome = true) ∧
          s.CountsPaths brokenModule paths) ∧
      (∀ e : Expansion,
        s.CountsRows ((TreeView.ofNode brokenModule).visible (e.expandAll brokenModule))) ∧
      (s.hasErrors = true ↔ 0 < s.countOf .syntaxError) := by
  obtain ⟨-, recursive, -, counts⟩ := summary_counts_tree brokenModule
  exact ⟨_, recursive.trans rfl, rfl, rfl, rfl, counts _ (recursive.trans rfl)⟩

end AnalysisBrowser
