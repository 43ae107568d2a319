import AnalysisBrowser.Tree.View

/-!
# The visible rows in pre-order

The walk over a tree takes rows from a stack. Here its rows are those of a recursion over the tree:
a node comes first, then, if its path is expanded, the rows of its children one after another. The
row that a sequence of child indices leads to is found without going through the others, and the
two meet in `mem_preOrder`: a row is among those of the recursion exactly when some indices lead to
it. The order is that of the index sequences, which settles that no path has two rows.
-/
namespace AnalysisBrowser

mutual

/-- The rows of a node and of what shows below it, parents first. -/
def preOrder (e : Expansion) (p : NodePath) (isLast : Bool) : Node → List VisibleRow
  | ⟨typeName, value, line, position, children, attributes⟩ =>
    ⟨⟨typeName, value, line, position, children, attributes⟩, p.depth, p, isLast⟩ ::
      if e.isExpanded p then preOrderSiblings e p 0 children else []

/-- The rows of siblings, the first of them the `index`-th child of the node at `parent`. -/
def preOrderSiblings (e : Expansion) (parent : NodePath) (index : Nat) :
    List Node → List VisibleRow
  | [] => []
  | n :: rest =>
    preOrder e (parent.child index) rest.isEmpty n ++ preOrderSiblings e parent (index + 1) rest

end

/-- The row that child indices lead to from a node, if every node on the way is expanded. -/
def rowAt (e : Expansion) (p : NodePath) (isLast : Bool) (n : Node) : List Nat → Option VisibleRow
  | [] => some ⟨n, p.depth, p, isLast⟩
  | i :: rest =>
    if e.isExpanded p then
      n.children[i]?.bind fun c => rowAt e (p.child i) (i + 1 == n.children.length) c rest
    else none

section

variable {e : Expansion} {p : NodePath} {isLast : Bool} {n : Node} {r : VisibleRow}

theorem preOrder_eq (e : Expansion) (p : NodePath) (isLast : Bool) (n : Node) :
    preOrder e p isLast n =
      ⟨n, p.depth, p, isLast⟩ :: if e.isExpanded p then preOrderSiblings e p 0 n.children else [] := by
  cases n
  rw [preOrder]

theorem flatMap_siblings (e : Expansion) (parent : NodePath) (depth index : Nat) (ns : List Node) :
    (VisibleRow.siblings parent depth index ns).flatMap
        (fun r => preOrder e r.path r.isLastSibling r.node) = preOrderSiblings e parent index ns := by
  induction ns generalizing index with
  | nil => rfl
  | cons n rest ih => simp only [VisibleRow.siblings, List.flatMap_cons, ih, preOrderSiblings]

theorem depth_siblings {parent : NodePath} {index : Nat} {ns : List Node}
    (h : r ∈ VisibleRow.siblings parent (parent.depth + 1) index ns) : r.depth = r.path.depth := by
  induction ns generalizing index with
  | nil => cases h
  | cons n rest ih =>
    obtain rfl | h := List.mem_cons.mp h
    · exact (NodePath.depth_child parent index).symm
    · exact ih h

theorem depth_opened (h : r.depth = r.path.depth) :
    ∀ s ∈ r.opened e, s.depth = s.path.depth := by
  intro s mem
  unfold VisibleRow.opened VisibleRow.children at mem
  split at mem
  · rw [h] at mem
    exact depth_siblings mem
  · cases mem

/-- The rows that come out of a stack are the pre-orders of the rows on it, one after another. -/
theorem walk_eq_flatMap (e : Expansion) (stack : List VisibleRow)
    (h : ∀ r ∈ stack, r.depth = r.path.depth) :
    walk e stack = stack.flatMap fun r => preOrder e r.path r.isLastSibling r.node := by
  induction stack using walk.induct e with
  | case1 => rw [walk, List.flatMap_nil]
  | case2 r rest ih =>
    have depth := h r List.mem_cons_self
    have deeper : ∀ s ∈ r.opened e ++ rest, s.depth = s.path.depth := by
      intro s mem
      obtain mem | mem := List.mem_append.mp mem
      · exact depth_opened depth s mem
      · exact h s (List.mem_cons_of_mem _ mem)
    rw [walk, ih deeper, List.flatMap_append, List.flatMap_cons, preOrder_eq, ← depth,
      List.cons_append]
    congr 2
    unfold VisibleRow.opened VisibleRow.children
    split
    · exact flatMap_siblings e r.path (r.depth + 1) 0 r.node.children
    · rfl

theorem walk_singleton (e : Expansion) (p : NodePath) (isLast : Bool) (n : Node) :
    walk e [⟨n, p.depth, p, isLast⟩] = preOrder e p isLast n := by
  have start : ∀ r ∈ [(⟨n, p.depth, p, isLast⟩ : VisibleRow)], r.depth = r.path.depth := by
    intro r mem
    obtain rfl := List.mem_singleton.mp mem
    rfl
  rw [walk_eq_flatMap e _ start]
  exact List.flatMap_singleton _ _

theorem visibleSubtree_eq_preOrder (n : Node) (p : NodePath) (e : Expansion) :
    visibleSubtree n p e = preOrder e p true n :=
  walk_singleton e p true n

theorem mem_preOrderSiblings {parent : NodePath} {index : Nat} {ns : List Node} :
    r ∈ preOrderSiblings e parent index ns ↔ ∃ i c, ns[i]? = some c ∧
      r ∈ preOrder e (parent.child (index + i)) (i + 1 == ns.length) c := by
  induction ns generalizing index with
  | nil => simp [preOrderSiblings]
  | cons n rest ih =>
    rw [preOrderSiblings, List.mem_append, ih]
    constructor
    · rintro (mem | ⟨i, c, found, mem⟩)
      · refine ⟨0, n, rfl, ?_⟩
        cases rest <;> simpa using mem
      · refine ⟨i + 1, c, found, ?_⟩
        simpa [Nat.add_assoc, Nat.add_comm 1 i] using mem
    · rintro ⟨i, c, found, mem⟩
      cases i with
      | zero =>
        obtain rfl : n = c := by simpa using found
        refine .inl ?_
        cases rest <;> simpa using mem
      | succ i =>
        refine .inr ⟨i, c, found, ?_⟩
        simpa [Nat.add_assoc, Nat.add_comm 1 i] using mem

/-- A row is in the pre-order exactly when some child indices lead to it. -/
theorem mem_preOrder : r ∈ preOrder e p isLast n ↔ ∃ is, rowAt e p isLast n is = some r := by
  induction n using Node.induct generalizing p isLast with
  | node n ih =>
    rw [preOrder_eq, List.mem_cons]
    constructor
    · rintro (rfl | mem)
      · exact ⟨[], rfl⟩
      · split at mem
        next open' =>
          obtain ⟨i, c, found, mem⟩ := mem_preOrderSiblings.mp mem
          obtain ⟨is, row⟩ := (ih c (List.mem_of_getElem? found)).mp mem
          refine ⟨i :: is, ?_⟩
          simpa [rowAt, open', found] using row
        next => cases mem
    · rintro ⟨is, row⟩
      cases is with
      | nil => exact .inl (Option.some.inj row).symm
      | cons i is =>
        simp only [rowAt] at row
        split at row
        next open' =>
          obtain ⟨c, found, row⟩ := Option.bind_eq_some_iff.mp row
          rw [if_pos open']
          refine .inr (mem_preOrderSiblings.mpr ⟨i, c, found, ?_⟩)
          rw [Nat.zero_add]
          exact (ih c (List.mem_of_getElem? found)).mpr ⟨is, row⟩
        next => cases row

theorem rowAt_cons {i : Nat} {is : List Nat} :
    rowAt e p isLast n (i :: is) = some r ↔ e.isExpanded p = true ∧ ∃ c, n.children[i]? = some c ∧
      rowAt e (p.child i) (i + 1 == n.children.length) c is = some r := by
  simp only [rowAt]
  split
  next open' => simp [open', Option.bind_eq_some_iff]
  next closed => simp [closed]

theorem path_of_rowAt {is : List Nat} (h : rowAt e p isLast n is = some r) :
    r.path.indices = p.indices ++ is := by
  induction is generalizing p isLast n with
  | nil =>
    obtain rfl := Option.some.inj h
    exact (List.append_nil _).symm
  | cons i is ih =>
    obtain ⟨_, c, _, row⟩ := rowAt_cons.mp h
    rw [ih row, NodePath.child, List.append_assoc, List.singleton_append]

theorem depth_of_rowAt {is : List Nat} (h : rowAt e p isLast n is = some r) :
    r.depth = r.path.depth := by
  induction is generalizing p isLast n with
  | nil =>
    obtain rfl := Option.some.inj h
    rfl
  | cons i is ih =>
    obtain ⟨_, c, _, row⟩ := rowAt_cons.mp h
    exact ih row

theorem follow_of_rowAt {is : List Nat} (h : rowAt e p isLast n is = some r) :
    NodePath.follow is n = some r.node := by
  induction is generalizing p isLast n with
  | nil =>
    obtain rfl := Option.some.inj h
    rfl
  | cons i is ih =>
    obtain ⟨_, c, found, row⟩ := rowAt_cons.mp h
    simp only [NodePath.follow, found, Option.bind_some, ih row]

/-- Indices lead to a row when they lead to a node and every path above it is expanded. -/
theorem isSome_rowAt {is : List Nat} :
    (rowAt e p isLast n is).isSome = true ↔ (NodePath.follow is n).isSome = true ∧
      ∀ js, js <+: is → js ≠ is → e.isExpanded ⟨p.indices ++ js⟩ = true := by
  induction is generalizing p isLast n with
  | nil =>
    refine ⟨fun _ => ⟨rfl, fun js above proper => ?_⟩, fun _ => rfl⟩
    exact absurd (List.prefix_nil.mp above) proper
  | cons i is ih =>
    simp only [Option.isSome_iff_exists, rowAt_cons]
    constructor
    · rintro ⟨r, open', c, found, row⟩
      obtain ⟨reached, above⟩ := ih.mp (Option.isSome_iff_exists.mpr ⟨r, row⟩)
      refine ⟨?_, fun js front proper => ?_⟩
      · simpa [NodePath.follow, found, Option.isSome_iff_exists] using reached
      · cases js with
        | nil => rwa [List.append_nil]
        | cons j js =>
          obtain ⟨rfl, inside⟩ := List.cons_prefix_cons.mp front
          have inner := above js inside fun same => proper (same ▸ rfl)
          rwa [NodePath.child, List.append_assoc, List.singleton_append] at inner
    · rintro ⟨⟨m, reached⟩, above⟩
      obtain ⟨c, found, reached⟩ := Option.bind_eq_some_iff.mp reached
      have row : (rowAt e (p.child i) (i + 1 == n.children.length) c is).isSome = true := by
        refine ih.mpr ⟨Option.isSome_iff_exists.mpr ⟨m, reached⟩, fun js front proper => ?_⟩
        have inner := above (i :: js) (List.cons_prefix_cons.mpr ⟨rfl, front⟩)
          fun same => proper (List.cons.inj same).2
        rwa [NodePath.child, List.append_assoc, List.singleton_append]
      obtain ⟨r, row⟩ := Option.isSome_iff_exists.mp row
      refine ⟨r, ?_, c, found, row⟩
      have here := above [] (List.nil_prefix) (List.cons_ne_nil i is).symm
      rwa [List.append_nil] at here

/-- Below the start, a row is last exactly when its last index is that of the last child. -/
theorem isLast_of_rowAt {is : List Nat} {i : Nat} (h : rowAt e p isLast n (is ++ [i]) = some r) :
    ∃ parent, NodePath.follow is n = some parent ∧
      r.isLastSibling = (i + 1 == parent.children.length) := by
  induction is generalizing p isLast n with
  | nil =>
    obtain ⟨_, c, _, row⟩ := rowAt_cons.mp h
    obtain rfl := Option.some.inj row
    exact ⟨n, rfl, rfl⟩
  | cons j is ih =>
    obtain ⟨_, c, found, row⟩ := rowAt_cons.mp h
    obtain ⟨parent, reached, last⟩ := ih row
    exact ⟨parent, by simp only [NodePath.follow, found, Option.bind_some, reached], last⟩

theorem path_of_mem_preOrderSiblings {parent : NodePath} {index : Nat} {ns : List Node}
    (h : r ∈ preOrderSiblings e parent index ns) :
    ∃ i is, index ≤ i ∧ r.path.indices = parent.indices ++ i :: is := by
  obtain ⟨i, c, _, mem⟩ := mem_preOrderSiblings.mp h
  obtain ⟨is, row⟩ := mem_preOrder.mp mem
  refine ⟨index + i, is, Nat.le_add_right _ _, ?_⟩
  rw [path_of_rowAt row, NodePath.child, List.append_assoc, List.singleton_append]

theorem pairwise_preOrderSiblings {parent : NodePath} {index : Nat} {ns : List Node}
    (h : ∀ c ∈ ns, ∀ q last,
      (preOrder e q last c).Pairwise fun a b => a.path.indices < b.path.indices) :
    (preOrderSiblings e parent index ns).Pairwise fun a b => a.path.indices < b.path.indices := by
  induction ns generalizing index with
  | nil => exact .nil
  | cons n rest ih =>
    rw [preOrderSiblings, List.pairwise_append]
    refine ⟨h n List.mem_cons_self _ _, ih fun c mem => h c (List.mem_cons_of_mem _ mem), ?_⟩
    intro a first b later
    obtain ⟨is, row⟩ := mem_preOrder.mp first
    obtain ⟨j, js, above, path⟩ := path_of_mem_preOrderSiblings later
    rw [path_of_rowAt row, path, NodePath.child, List.append_assoc, List.singleton_append]
    exact List.append_left_lt (List.cons_lt_cons_iff.mpr (.inl above))

theorem pairwise_preOrder (e : Expansion) (p : NodePath) (isLast : Bool) (n : Node) :
    (preOrder e p isLast n).Pairwise fun a b => a.path.indices < b.path.indices := by
  induction n using Node.induct generalizing p isLast with
  | node n ih =>
    rw [preOrder_eq, List.pairwise_cons]
    refine ⟨fun r mem => ?_, ?_⟩
    · split at mem
      · obtain ⟨i, is, _, path⟩ := path_of_mem_preOrderSiblings mem
        have longer : p.indices ++ [] < p.indices ++ i :: is :=
          List.append_left_lt (List.nil_lt_cons i is)
        rw [path]
        rwa [List.append_nil] at longer
      · cases mem
    · split
      · exact pairwise_preOrderSiblings fun c mem q last => ih c mem q last
      · exact .nil

end

/-- A path is that of the root or of the last child of some node. -/
def NodePath.IsLast (root : Node) (p : NodePath) : Prop :=
  p = .root ∨ ∃ (q : NodePath) (i : Nat) (parent : Node),
    p = q.child i ∧ q.resolve root = some parent ∧ i + 1 = parent.children.length

/-- Rows that list the expanded part of a tree: which paths have one, in which order, and what each
of them says. -/
structure ListsExpanded (root : Node) (e : Expansion) (rows : List VisibleRow) : Prop where
  /-- A path has a row when it leads to a node and every path above it is expanded. -/
  shown : ∀ p : NodePath, (∃ r ∈ rows, r.path = p) ↔ (p.resolve root).isSome = true ∧
    ∀ q : NodePath, q.indices <+: p.indices → q ≠ p → e.isExpanded q = true
  once : (rows.map VisibleRow.path).Nodup
  ordered : rows.Pairwise fun a b => a.path.indices < b.path.indices
  node : ∀ r ∈ rows, r.path.resolve root = some r.node
  depth : ∀ r ∈ rows, r.depth = r.path.depth
  last : ∀ r ∈ rows, r.isLastSibling = true ↔ r.path.IsLast root

/-- Rows that list the paths of a tree with a property, for a walk that starts at the node of some
path. The row of that node counts as last. -/
structure ListsPaths (root : Node) (start : NodePath) (P : NodePath → Prop)
    (rows : List VisibleRow) : Prop where
  shown : ∀ p : NodePath, (∃ r ∈ rows, r.path = p) ↔ (p.resolve root).isSome = true ∧ P p
  once : (rows.map VisibleRow.path).Nodup
  ordered : rows.Pairwise fun a b => a.path.indices < b.path.indices
  node : ∀ r ∈ rows, r.path.resolve root = some r.node
  depth : ∀ r ∈ rows, r.depth = r.path.depth
  last : ∀ r ∈ rows, r.isLastSibling = true ↔ r.path = start ∨ r.path.IsLast root

theorem nodup_paths {rows : List VisibleRow}
    (h : rows.Pairwise fun a b => a.path.indices < b.path.indices) :
    (rows.map VisibleRow.path).Nodup := by
  refine List.pairwise_map.mpr (h.imp fun {a b} before same => ?_)
  rw [same] at before
  exact List.lt_irrefl _ before

theorem resolve_append {root n : Node} {p : NodePath} (reached : p.resolve root = some n)
    (is : List Nat) : NodePath.resolve ⟨p.indices ++ is⟩ root = NodePath.follow is n := by
  have above : NodePath.follow p.indices root = some n := reached
  rw [NodePath.resolve, NodePath.follow_append, above, Option.bind_some]

theorem isLast_of_mem_preOrder {e : Expansion} {root n : Node} {p : NodePath} {r : VisibleRow}
    (reached : p.resolve root = some n) (h : r ∈ preOrder e p true n) :
    r.isLastSibling = true ↔ r.path = p ∨ r.path.IsLast root := by
  obtain ⟨is, row⟩ := mem_preOrder.mp h
  rcases List.eq_nil_or_concat is with rfl | ⟨js, i, rfl⟩
  · obtain rfl := Option.some.inj row
    exact iff_of_true rfl (.inl rfl)
  · rw [List.concat_eq_append] at row
    obtain ⟨parent, found, last⟩ := isLast_of_rowAt row
    have indices : r.path.indices = p.indices ++ (js ++ [i]) := path_of_rowAt row
    have path : r.path = NodePath.child ⟨p.indices ++ js⟩ i :=
      congrArg NodePath.mk (indices.trans (List.append_assoc _ _ _).symm)
    have above : NodePath.resolve ⟨p.indices ++ js⟩ root = some parent :=
      (resolve_append reached js).trans found
    rw [last, beq_iff_eq]
    constructor
    · intro final
      exact .inr (.inr ⟨_, i, parent, path, above, final⟩)
    · rintro (start | top | ⟨q, j, other, below, reached', final⟩)
      · rw [start] at indices
        simp at indices
      · exact absurd (path.symm.trans top) (NodePath.child_ne_root _ i)
      · obtain ⟨rfl, rfl⟩ := NodePath.child_inj.mp (path.symm.trans below)
        obtain rfl : parent = other := Option.some.inj (above.symm.trans reached')
        exact final

theorem exists_mem_preOrder_iff {e : Expansion} {p q : NodePath} {isLast : Bool} {n : Node} :
    (∃ r ∈ preOrder e p isLast n, r.path = q) ↔
      ∃ is, p.indices ++ is = q.indices ∧ (rowAt e p isLast n is).isSome = true := by
  constructor
  · rintro ⟨r, mem, rfl⟩
    obtain ⟨is, row⟩ := mem_preOrder.mp mem
    exact ⟨is, (path_of_rowAt row).symm, Option.isSome_iff_exists.mpr ⟨r, row⟩⟩
  · rintro ⟨is, path, row⟩
    obtain ⟨r, row⟩ := Option.isSome_iff_exists.mp row
    exact ⟨r, mem_preOrder.mpr ⟨is, row⟩, congrArg NodePath.mk ((path_of_rowAt row).trans path)⟩

/-- The pre-order of a node that stands at a path lists the paths that go on from there, as far as
the nodes on the way are expanded. -/
theorem listsPaths_preOrder {e : Expansion} {root n : Node} {p : NodePath}
    (reached : p.resolve root = some n) :
    ListsPaths root p (fun q => p.indices <+: q.indices ∧ ∀ m : NodePath,
      p.indices <+: m.indices → m.indices <+: q.indices → m ≠ q → e.isExpanded m = true)
      (preOrder e p true n) where
  shown q := by
    rw [exists_mem_preOrder_iff]
    constructor
    · rintro ⟨is, path, row⟩
      obtain rfl : ⟨p.indices ++ is⟩ = q := congrArg NodePath.mk path
      obtain ⟨found, above⟩ := isSome_rowAt.mp row
      refine ⟨by rwa [resolve_append reached], List.prefix_append _ _, ?_⟩
      rintro ⟨_⟩ ⟨js, rfl⟩ front proper
      exact above js ((List.prefix_append_right_inj _).mp front) fun same => proper (same ▸ rfl)
    · rintro ⟨found, ⟨is, path⟩, above⟩
      obtain rfl : ⟨p.indices ++ is⟩ = q := congrArg NodePath.mk path
      rw [resolve_append reached] at found
      refine ⟨is, rfl, isSome_rowAt.mpr ⟨found, fun js front proper => ?_⟩⟩
      refine above ⟨p.indices ++ js⟩ (List.prefix_append _ _)
        ((List.prefix_append_right_inj _).mpr front) fun same => proper ?_
      exact List.append_cancel_left (NodePath.mk.inj same)
  once := nodup_paths (pairwise_preOrder e p true n)
  ordered := pairwise_preOrder e p true n
  node r mem := by
    obtain ⟨is, row⟩ := mem_preOrder.mp mem
    have path : r.path = ⟨p.indices ++ is⟩ := congrArg NodePath.mk (path_of_rowAt row)
    rw [path, resolve_append reached]
    exact follow_of_rowAt row
  depth r mem := by
    obtain ⟨is, row⟩ := mem_preOrder.mp mem
    exact depth_of_rowAt row
  last r mem := isLast_of_mem_preOrder reached mem

theorem listsExpanded_preOrder (root : Node) (e : Expansion) :
    ListsExpanded root e (preOrder e .root true root) := by
  have lists := listsPaths_preOrder (e := e) (NodePath.resolve_root root)
  constructor
  · intro p
    rw [lists.shown]
    refine and_congr_right fun _ => ⟨fun shown q => shown.2 q List.nil_prefix, fun shown => ?_⟩
    exact ⟨List.nil_prefix, fun q _ => shown q⟩
  · exact lists.once
  · exact lists.ordered
  · exact lists.node
  · exact lists.depth
  · intro r mem
    rw [lists.last r mem]
    exact or_iff_right_of_imp .inl

/-- The walk ends with the rows of the recursion, and these list the expanded part of the tree. A
root without a type has no rows. -/
theorem visible_eq_preOrder (root : Node) (e : Expansion) :
    (root.isAvailable = true →
      (TreeView.ofNode root).visible e = preOrder e .root true root ∧
        ListsExpanded root e ((TreeView.ofNode root).visible e)) ∧
    (root.isAvailable = false → (TreeView.ofNode root).visible e = []) := by
  constructor
  · intro typed
    have rows : (TreeView.ofNode root).visible e = preOrder e .root true root := by
      rw [TreeView.ofNode, if_pos typed]
      exact visibleSubtree_eq_preOrder root .root e
    exact ⟨rows, rows ▸ listsExpanded_preOrder root e⟩
  · intro untyped
    rw [TreeView.ofNode, untyped]
    rfl

/-- A program of two statements, the first of them with an expression. -/
def twoStatements : Node :=
  { Node.ofType .program 1 1 with
    children :=
      [{ Node.ofType .statement 1 1 with children := [Node.ofType .expression 1 3] },
        Node.ofType .statement 2 1] }

theorem visible_eq_preOrder_twoStatements :
    twoStatements.isAvailable = true ∧
      ListsExpanded twoStatements (.ofDepth 1)
        ((TreeView.ofNode twoStatements).visible (.ofDepth 1)) ∧
      Node.empty.isAvailable = false ∧ (TreeView.ofNode .empty).visible (.ofDepth 1) = [] :=
  ⟨by decide, ((visible_eq_preOrder twoStatements (.ofDepth 1)).1 (by decide)).2, by decide,
    (visible_eq_preOrder .empty (.ofDepth 1)).2 (by decide)⟩

end AnalysisBrowser
