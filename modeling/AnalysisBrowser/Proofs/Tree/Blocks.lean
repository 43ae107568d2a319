import AnalysisBrowser.Proofs.Tree.Listing
import AnalysisBrowser.Proofs.Tree.Reads

/-!
# The block of rows under a node

The rows of a node stand together in the rows of the whole tree, and what stands in front of them
and behind them does not depend on the flags at or below the node (`exists_preOrder_split`). Behind
the row of the node come the rows below it, or none. So to flip a visible node that has children
puts in this block or takes it out. All other flips are not seen, since the walk asks for no flags
but those of the parents among its rows.
-/
namespace AnalysisBrowser

variable {e f : Expansion} {p : NodePath} {isLast : Bool} {n : Node} {r : VisibleRow}

/-- A walk asks for the flags of the parents among its rows. -/
theorem walk_congr_of_parents {stack : List VisibleRow}
    (same : ∀ r ∈ walk e stack, r.node.children ≠ [] → e.isExpanded r.path = f.isExpanded r.path) :
    walk e stack = walk f stack := by
  induction stack using walk.induct e with
  | case1 => rw [walk, walk]
  | case2 r rest ih =>
    rw [walk] at same ⊢
    have opened : r.opened e = r.opened f := by
      unfold VisibleRow.opened
      by_cases leaf : r.node.children = []
      · rw [VisibleRow.children, leaf, VisibleRow.siblings, ite_self, ite_self]
      · rw [same r List.mem_cons_self leaf]
    rw [walk, ih fun s mem => same s (List.mem_cons_of_mem r mem), opened]

/-- The pre-order of a node depends on no flags but those at and below its path. -/
theorem preOrder_congr
    (same : ∀ q : NodePath, p.indices <+: q.indices → e.isExpanded q = f.isExpanded q) :
    preOrder e p isLast n = preOrder f p isLast n := by
  rw [← walk_singleton, ← walk_singleton]
  refine walk_congr_of_parents fun r mem _ => same r.path ?_
  rw [walk_singleton] at mem
  obtain ⟨is, row⟩ := mem_preOrder.mp mem
  exact ⟨is, (path_of_rowAt row).symm⟩

theorem preOrderSiblings_congr {parent : NodePath} {index : Nat} {ns : List Node}
    (same : ∀ i, index ≤ i → ∀ q : NodePath, (parent.child i).indices <+: q.indices →
      e.isExpanded q = f.isExpanded q) :
    preOrderSiblings e parent index ns = preOrderSiblings f parent index ns := by
  induction ns generalizing index with
  | nil => rfl
  | cons c rest ih =>
    rw [preOrderSiblings, preOrderSiblings, preOrder_congr (same index (Nat.le_refl _)),
      ih fun i later => same i (Nat.le_of_succ_le later)]

/-- Expansions with the same flags outside the subtree at a path. -/
def SameOutside (p : NodePath) (e f : Expansion) : Prop :=
  ∀ q : NodePath, ¬p.indices <+: q.indices → f.isExpanded q = e.isExpanded q

/-- A path goes through one child of a node at most. -/
theorem child_of_extension {parent q : NodePath} {i j : Nat}
    (first : (parent.child i).indices <+: q.indices)
    (second : (parent.child j).indices <+: q.indices) : i = j := by
  have lengths : (parent.child i).indices.length = (parent.child j).indices.length := by
    simp [NodePath.child]
  have same := (List.prefix_of_prefix_length_le first second (Nat.le_of_eq lengths)).eq_of_length lengths
  simpa [NodePath.child] using same

theorem SameOutside.of_below {p q : NodePath} (below : p.indices <+: q.indices)
    (same : SameOutside q e f) : SameOutside p e f :=
  fun other outside => same other fun front => outside (below.trans front)

theorem exists_siblings_split (e : Expansion) (parent : NodePath) (index : Nat) {i : Nat}
    {ns : List Node} {c : Node} (found : ns[i]? = some c) :
    ∃ before after, ∀ f, SameOutside (parent.child (index + i)) e f →
      preOrderSiblings f parent index ns =
        before ++ (preOrder f (parent.child (index + i)) (i + 1 == ns.length) c ++ after) := by
  induction ns generalizing index i with
  | nil => cases found
  | cons n rest ih =>
    cases i with
    | zero =>
      obtain rfl := Option.some.inj found
      refine ⟨[], preOrderSiblings e parent (index + 1) rest, fun f same => ?_⟩
      have later : preOrderSiblings f parent (index + 1) rest =
          preOrderSiblings e parent (index + 1) rest :=
        preOrderSiblings_congr fun j behind q front => same q fun other =>
          absurd (child_of_extension front other) (by omega)
      have last : (0 + 1 == (n :: rest).length) = rest.isEmpty := by
        cases rest <;> simp
      rw [preOrderSiblings, later, last]
      rfl
    | succ i =>
      obtain ⟨before, after, split⟩ := ih (index + 1) found
      have place : index + 1 + i = index + (i + 1) := by omega
      rw [place] at split
      refine ⟨preOrder e (parent.child index) rest.isEmpty n ++ before, after, fun f same => ?_⟩
      have first : preOrder f (parent.child index) rest.isEmpty n =
          preOrder e (parent.child index) rest.isEmpty n :=
        preOrder_congr fun q front => same q fun other =>
          absurd (child_of_extension front other) (by omega)
      have last : (i + 1 + 1 == (n :: rest).length) = (i + 1 == rest.length) := by
        simp
      rw [preOrderSiblings, split f same, first, last, List.append_assoc]

/-- The rows of a visible node stand together, and the flags at and below it have no part in the rows
around them. -/
theorem exists_preOrder_split {is : List Nat} (row : rowAt e p isLast n is = some r) :
    ∃ before after, ∀ f, SameOutside r.path e f →
      preOrder f p isLast n =
        before ++ (preOrder f r.path r.isLastSibling r.node ++ after) := by
  induction is generalizing p isLast n with
  | nil =>
    obtain rfl := Option.some.inj row
    exact ⟨[], [], fun f _ => by rw [List.nil_append, List.append_nil]⟩
  | cons i is ih =>
    obtain ⟨open', c, found, inner⟩ := rowAt_cons.mp row
    have path := path_of_rowAt row
    have below : (p.child i).indices <+: r.path.indices := ⟨is, (path_of_rowAt inner).symm⟩
    obtain ⟨front, back, around⟩ := exists_siblings_split e p 0 found
    obtain ⟨before, after, split⟩ := ih inner
    refine ⟨⟨n, p.depth, p, isLast⟩ :: (front ++ before), after ++ back, fun f same => ?_⟩
    have top : f.isExpanded p = true := by
      rw [same p, open']
      intro longer
      have short := longer.length_le
      rw [path, List.length_append, List.length_cons] at short
      omega
    rw [Nat.zero_add] at around
    rw [preOrder_eq, if_pos top, around f (same.of_below below), split f same]
    simp only [List.cons_append, List.append_assoc]

theorem rowAt_append {is js : List Nat} {s : VisibleRow} (row : rowAt e p isLast n is = some r) :
    rowAt e p isLast n (is ++ js) = some s ↔ rowAt e r.path r.isLastSibling r.node js = some s := by
  induction is generalizing p isLast n with
  | nil =>
    obtain rfl := Option.some.inj row
    rfl
  | cons i is ih =>
    obtain ⟨open', c, found, inner⟩ := rowAt_cons.mp row
    rw [List.cons_append, rowAt_cons, ← ih inner]
    simp [open', found]

theorem mem_visible {root : Node} :
    r ∈ (TreeView.available root).visible e ↔ rowAt e .root true root r.path.indices = some r := by
  rw [TreeView.visible, visibleSubtree_eq_preOrder, mem_preOrder]
  constructor
  · rintro ⟨is, row⟩
    have path : r.path.indices = is := path_of_rowAt row
    rwa [path]
  · exact fun row => ⟨_, row⟩

/-- The rows below a row whose node is expanded. -/
def VisibleRow.block (e : Expansion) (r : VisibleRow) : List VisibleRow :=
  preOrderSiblings e r.path 0 r.node.children

theorem block_ne_nil (parent : r.node.children ≠ []) : r.block e ≠ [] := by
  obtain ⟨c, rest, children⟩ := List.exists_cons_of_ne_nil parent
  rw [VisibleRow.block, children, preOrderSiblings, preOrder_eq]
  exact List.cons_ne_nil _ _

/-- The block below a row depends on the flags below its path. -/
theorem block_congr (same : ∀ q : NodePath, q.Below r.path → f.isExpanded q = e.isExpanded q) :
    r.block f = r.block e := by
  refine preOrderSiblings_congr fun i _ q front => same q ⟨?_, ?_⟩
  · exact (List.prefix_append r.path.indices [i]).trans front
  · rintro rfl
    have short := front.length_le
    rw [NodePath.child, List.length_append, List.length_singleton] at short
    omega

/-- The rows that show below a row: its block, if its node is expanded. -/
def VisibleRow.below (e : Expansion) (r : VisibleRow) : List VisibleRow :=
  if e.isExpanded r.path then r.block e else []

theorem preOrder_of_row (depth : r.depth = r.path.depth) (isLast : Bool) :
    preOrder e r.path isLast r.node = { r with isLastSibling := isLast } :: r.below e := by
  rw [preOrder_eq, ← depth]
  rfl

/-- The pre-order of the node of a row: the rows whose paths go on from that of the row. -/
theorem mem_preOrder_of_row {root : Node} {s : VisibleRow}
    (mem : r ∈ (TreeView.available root).visible e) :
    s ∈ preOrder e r.path r.isLastSibling r.node ↔
      s ∈ (TreeView.available root).visible e ∧ r.path.indices <+: s.path.indices := by
  have row := mem_visible.mp mem
  rw [mem_visible, mem_preOrder]
  constructor
  · rintro ⟨is, inner⟩
    have path := path_of_rowAt inner
    refine ⟨?_, is, path.symm⟩
    rw [path]
    exact (rowAt_append row).mpr inner
  · rintro ⟨outer, is, path⟩
    rw [← path, rowAt_append row] at outer
    exact ⟨is, outer⟩

/-- The block of an expanded row are the rows below it. -/
theorem mem_block {root : Node} {s : VisibleRow} (mem : r ∈ (TreeView.available root).visible e)
    (open' : e.isExpanded r.path = true) :
    s ∈ r.block e ↔ s ∈ (TreeView.available root).visible e ∧ s.path.Below r.path := by
  have slice : s ∈ r :: r.block e ↔
      s ∈ (TreeView.available root).visible e ∧ r.path.indices <+: s.path.indices := by
    have rows := preOrder_of_row (e := e) (depth_of_rowAt (mem_visible.mp mem)) r.isLastSibling
    rw [VisibleRow.below, if_pos open'] at rows
    rw [← mem_preOrder_of_row mem, rows]
  constructor
  · intro inside
    have shown := slice.mp (List.mem_cons_of_mem r inside)
    obtain ⟨i, is, -, path⟩ := path_of_mem_preOrderSiblings inside
    refine ⟨shown.1, shown.2, fun same => ?_⟩
    rw [← same] at path
    simp at path
  · rintro ⟨shown, front, proper⟩
    rcases List.mem_cons.mp (slice.mpr ⟨shown, front⟩) with rfl | inside
    · exact absurd rfl proper
    · exact inside

/-- What stands around the rows below a row. -/
theorem exists_visible_split {root : Node} (mem : r ∈ (TreeView.available root).visible e) :
    ∃ before after, ∀ f, SameOutside r.path e f →
      (TreeView.available root).visible f = before ++ r :: (r.below f ++ after) := by
  have row := mem_visible.mp mem
  obtain ⟨before, after, split⟩ := exists_preOrder_split row
  refine ⟨before, after, fun f same => ?_⟩
  rw [TreeView.visible, visibleSubtree_eq_preOrder, split f same,
    preOrder_of_row (depth_of_rowAt row), List.cons_append]

theorem sameOutside_toggle (e : Expansion) (p : NodePath) : SameOutside p e (e.toggle p) := by
  intro q outside
  rw [Expansion.isExpanded_toggle, if_neg]
  rintro rfl
  exact outside (List.prefix_refl _)

theorem isExpanded_toggle_below {q : NodePath} (below : q.Below p) :
    (e.toggle p).isExpanded q = e.isExpanded q := by
  rw [Expansion.isExpanded_toggle, if_neg fun same => below.2 same.symm]

theorem isExpanded_toggle_self (e : Expansion) (p : NodePath) :
    (e.toggle p).isExpanded p = !e.isExpanded p := by
  rw [Expansion.isExpanded_toggle, if_pos rfl]

/-- To flip a path at which no parent is shown changes no row. -/
theorem visible_toggle_of_hidden {root : Node}
    (hidden : ∀ r ∈ (TreeView.available root).visible e, r.path = p → r.node.children = []) :
    (TreeView.available root).visible (e.toggle p) = (TreeView.available root).visible e := by
  refine (walk_congr_of_parents fun r mem parent => ?_).symm
  rw [Expansion.isExpanded_toggle, if_neg fun same => parent (hidden r mem same)]

theorem visible_toggle_toggle (view : TreeView) (e : Expansion) (p : NodePath) :
    view.visible ((e.toggle p).toggle p) = view.visible e := by
  refine visible_congr (funext fun q => ?_) view
  rw [Expansion.isExpanded_toggle, isExpanded_toggle_self, Bool.not_not,
    Expansion.isExpanded_toggle]
  split
  next same => rw [same]
  next => rfl

/-- To flip a row with children puts in its block or takes it out. -/
theorem visible_toggle_of_row {root : Node} (mem : r ∈ (TreeView.available root).visible e) :
    ∃ before after,
      (e.isExpanded r.path = false →
        (TreeView.available root).visible e = before ++ r :: after ∧
        (TreeView.available root).visible (e.toggle r.path) =
          before ++ r :: (r.block e ++ after)) ∧
      (e.isExpanded r.path = true →
        (TreeView.available root).visible e = before ++ r :: (r.block e ++ after) ∧
        (TreeView.available root).visible (e.toggle r.path) = before ++ r :: after) := by
  obtain ⟨before, after, split⟩ := exists_visible_split mem
  have flipped := isExpanded_toggle_self e r.path
  have block : r.block (e.toggle r.path) = r.block e :=
    block_congr fun q => isExpanded_toggle_below
  refine ⟨before, after, fun closed => ?_, fun open' => ?_⟩
  · rw [closed] at flipped
    rw [split e fun _ _ => rfl, split _ (sameOutside_toggle e r.path), VisibleRow.below,
      VisibleRow.below, closed, flipped, block]
    exact ⟨rfl, rfl⟩
  · rw [open'] at flipped
    rw [split e fun _ _ => rfl, split _ (sameOutside_toggle e r.path), VisibleRow.below,
      VisibleRow.below, open', flipped]
    exact ⟨rfl, rfl⟩

theorem isExpanded_set_below {q : NodePath} {b : Bool} (below : q.Below p) :
    (e.set p b).isExpanded q = e.isExpanded q := by
  rw [Expansion.isExpanded_set, if_neg fun same => below.2 same.symm]

theorem mem_visible_set {root : Node} {b : Bool} (mem : r ∈ (TreeView.available root).visible e) :
    r ∈ (TreeView.available root).visible (e.set r.path b) := by
  obtain ⟨before, after, split⟩ := exists_visible_split mem
  have same : SameOutside r.path e (e.set r.path b) := by
    intro q outside
    rw [Expansion.isExpanded_set, if_neg]
    rintro rfl
    exact outside (List.prefix_refl _)
  rw [split _ same]
  exact List.mem_append_right before List.mem_cons_self

/-- What a flip at a path does to the rows of a tree. Where no row with children stands at the path,
nothing changes. Else the rows below it come in or go out as one block, which is the same in every
state with these flags below the path; the rows around it stay. To flip twice changes nothing. -/
theorem toggle_moves_block (root : Node) (e : Expansion) (p : NodePath) :
    let rows := fun f => (TreeView.available root).visible f
    ((∀ r ∈ rows e, r.path ≠ p) ∨ p.resolve root = none ∨
        (∃ n, p.resolve root = some n ∧ n.children = []) →
      rows (e.toggle p) = rows e) ∧
    (∀ r ∈ rows e, r.path = p → r.node.children ≠ [] →
      ∃ block, block ≠ [] ∧
        (∀ s, s ∈ block ↔ s ∈ rows (e.set p true) ∧ s.path.Below p) ∧
        ∀ f : Expansion, (∀ q : NodePath, q.Below p → f.isExpanded q = e.isExpanded q) →
          (∃ s ∈ rows f, s.path = p) →
          ∃ before after,
            (f.isExpanded p = false →
              rows f = before ++ r :: after ∧
              rows (f.toggle p) = before ++ r :: (block ++ after)) ∧
            (f.isExpanded p = true →
              rows f = before ++ r :: (block ++ after) ∧
              rows (f.toggle p) = before ++ r :: after)) ∧
    rows ((e.toggle p).toggle p) = rows e := by
  refine ⟨fun unseen => ?_, ?_, visible_toggle_toggle _ e p⟩
  · refine visible_toggle_of_hidden fun r mem same => ?_
    have node := (listsExpanded_visible root e).node r mem
    rw [same] at node
    rcases unseen with hidden | nowhere | ⟨n, reached, leaf⟩
    · exact absurd same (hidden r mem)
    · exact absurd (nowhere.symm.trans node) nofun
    · obtain rfl := Option.some.inj (reached.symm.trans node)
      exact leaf
  · rintro r mem rfl parent
    have opened : r.block (e.set r.path true) = r.block e :=
      block_congr fun q => isExpanded_set_below
    have members (s : VisibleRow) : s ∈ r.block e ↔
        s ∈ (TreeView.available root).visible (e.set r.path true) ∧ s.path.Below r.path := by
      rw [← opened]
      refine mem_block (mem_visible_set mem) ?_
      rw [Expansion.isExpanded_set, if_pos rfl]
    refine ⟨r.block e, block_ne_nil parent, members, ?_⟩
    rintro f below ⟨s, shown, same⟩
    obtain rfl := row_unique mem shown same.symm
    rw [← block_congr below]
    exact visible_toggle_of_row shown

/-- The first of two statements, with an expression below it, in a state that hides this. -/
theorem toggle_moves_block_twoStatements :
    let e := Expansion.ofDepth 1
    let rows := fun f => (TreeView.available twoStatements).visible f
    ∃ r block before after, r ∈ rows e ∧ r.path = ⟨[0]⟩ ∧ r.node.children ≠ [] ∧ block ≠ [] ∧
      e.isExpanded ⟨[0]⟩ = false ∧ rows e = before ++ r :: after ∧
      rows (e.toggle ⟨[0]⟩) = before ++ r :: (block ++ after) ∧
      rows (e.toggle ⟨[1]⟩) = rows e := by
  intro e rows
  let r : VisibleRow :=
    ⟨{ Node.ofType .statement 1 1 with children := [Node.ofType .expression 1 3] }, 1, ⟨[0]⟩, false⟩
  have mem : r ∈ rows e := mem_visible.mpr rfl
  have closed : e.isExpanded ⟨[0]⟩ = false := by decide
  have parent : r.node.children ≠ [] := List.cons_ne_nil _ _
  obtain ⟨-, flips, -⟩ := toggle_moves_block twoStatements e ⟨[0]⟩
  obtain ⟨block, nonempty, -, moves⟩ := flips r mem rfl parent
  obtain ⟨before, after, opens, -⟩ := moves e (fun _ _ => rfl) ⟨r, mem, rfl⟩
  obtain ⟨shut, open'⟩ := opens closed
  have leaf := (toggle_moves_block twoStatements e ⟨[1]⟩).1 (.inr (.inr ⟨_, rfl, rfl⟩))
  exact ⟨r, block, before, after, mem, rfl, parent, nonempty, closed, shut, open', leaf⟩

end AnalysisBrowser
