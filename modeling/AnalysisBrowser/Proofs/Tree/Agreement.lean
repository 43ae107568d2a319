import AnalysisBrowser.Proofs.Tree.PreOrder
import AnalysisBrowser.View.Document
import Mathlib.Data.List.Forall2

/-!
# The drawing and the document of a tree

The drawing of a tree and its document are made of the same visible rows, and each asks on its own
whether a path is expanded, as the walk does that finds the rows. So the marker of a drawn row and
the flags of the entry at the same index must fit, and both must fit what comes next: a row that is
open is followed by its first child. For that, a walk is followed from any of its rows on; it is
then the walk over a stack with this row on top. That a closed row is not followed by anything below
it is read off the paths that have a row at all.
-/
namespace AnalysisBrowser

variable {e : Expansion} {root : Node}

theorem head?_walk (e : Expansion) (stack : List VisibleRow) :
    (walk e stack).head? = stack.head? := by
  cases stack with
  | nil => rw [walk]
  | cons r rest => rw [walk, List.head?_cons, List.head?_cons]

/-- From any of its rows on, a walk is the walk over a stack with this row on top. -/
theorem exists_drop_walk {stack : List VisibleRow} {i : Nat} {r : VisibleRow}
    (found : (walk e stack)[i]? = some r) :
    ∃ rest, (walk e stack).drop i = walk e (r :: rest) := by
  induction i generalizing stack with
  | zero =>
    have top : stack.head? = some r := by
      rw [← head?_walk e stack, List.head?_eq_getElem?]
      exact found
    obtain ⟨rest, rfl⟩ := List.head?_eq_some_iff.mp top
    exact ⟨rest, rfl⟩
  | succ i ih =>
    cases stack with
    | nil =>
      rw [walk] at found
      cases found
    | cons s rest =>
      rw [walk] at found ⊢
      exact ih found

/-- Behind a row comes the first of the rows that it opens, if there are any. -/
theorem getElem?_succ_walk {stack : List VisibleRow} {i : Nat} {r s : VisibleRow}
    (found : (walk e stack)[i]? = some r) (first : (r.opened e).head? = some s) :
    (walk e stack)[i + 1]? = some s := by
  obtain ⟨rest, drop⟩ := exists_drop_walk found
  have behind : (walk e stack).drop (i + 1) = walk e (r.opened e ++ rest) := by
    rw [← List.drop_drop, drop, walk, List.drop_one, List.tail_cons]
  rw [← List.head?_drop, behind, head?_walk, List.head?_append, first]
  rfl

/-- A path that goes on behind another one. -/
def NodePath.Below (q p : NodePath) : Prop := p.indices <+: q.indices ∧ p ≠ q

theorem NodePath.below_child (p : NodePath) (i : Nat) : (p.child i).Below p :=
  ⟨List.prefix_append _ _, fun same => by simpa using congrArg NodePath.depth same⟩

/-- An expanded row with children is followed by its first child. -/
theorem exists_child_behind {i : Nat} {r : VisibleRow}
    (found : ((TreeView.available root).visible e)[i]? = some r)
    (expanded : e.isExpanded r.path = true) (parent : r.node.hasChildren = true) :
    ∃ s, ((TreeView.available root).visible e)[i + 1]? = some s ∧ s.path = r.path.child 0 := by
  cases children : r.node.children with
  | nil => simp [Node.hasChildren, children] at parent
  | cons c rest =>
    have first : (r.opened e).head? = some ⟨c, r.depth + 1, r.path.child 0, rest.isEmpty⟩ := by
      rw [VisibleRow.opened, if_pos expanded, VisibleRow.children, children]
      rfl
    exact ⟨_, getElem?_succ_walk found first, rfl⟩

/-- Only an expanded row with children has rows below it. -/
theorem opens_of_below {rows : List VisibleRow} (lists : ListsExpanded root e rows)
    {r s : VisibleRow} (above : r ∈ rows) (mem : s ∈ rows) (below : s.path.Below r.path) :
    e.isExpanded r.path = true ∧ r.node.hasChildren = true := by
  obtain ⟨reached, expanded⟩ := (lists.shown s.path).mp ⟨s, mem, rfl⟩
  refine ⟨expanded r.path below.1 below.2, ?_⟩
  obtain ⟨is, path⟩ := below.1
  cases is with
  | nil => exact absurd (congrArg NodePath.mk (path ▸ List.append_nil _).symm) below.2
  | cons i is =>
    have node : NodePath.follow r.path.indices root = some r.node := lists.node r above
    rw [NodePath.resolve, ← path, NodePath.follow_append, node, Option.bind_some,
      NodePath.follow] at reached
    cases children : r.node.children with
    | nil =>
      rw [children] at reached
      cases reached
    | cons c rest => simp [Node.hasChildren, children]

theorem listsExpanded_visible (root : Node) (e : Expansion) :
    ListsExpanded root e ((TreeView.available root).visible e) := by
  rw [TreeView.visible, visibleSubtree_eq_preOrder]
  exact listsExpanded_preOrder root e

/-- A row is open when the next one is its first child, and when the next one is below it at all. -/
theorem opens_iff {i : Nat} {r : VisibleRow}
    (found : ((TreeView.available root).visible e)[i]? = some r) :
    (e.isExpanded r.path = true ∧ r.node.hasChildren = true ↔
      ∃ s, ((TreeView.available root).visible e)[i + 1]? = some s ∧ s.path = r.path.child 0) ∧
    (e.isExpanded r.path = true ∧ r.node.hasChildren = true ↔
      ∃ s, ((TreeView.available root).visible e)[i + 1]? = some s ∧ s.path.Below r.path) := by
  have opens {s : VisibleRow} (next : ((TreeView.available root).visible e)[i + 1]? = some s)
      (below : s.path.Below r.path) : e.isExpanded r.path = true ∧ r.node.hasChildren = true :=
    opens_of_below (listsExpanded_visible root e) (List.mem_of_getElem? found)
      (List.mem_of_getElem? next) below
  constructor
  · constructor
    · rintro ⟨expanded, parent⟩
      exact exists_child_behind found expanded parent
    · rintro ⟨s, next, path⟩
      exact opens next (path ▸ r.path.below_child 0)
  · constructor
    · rintro ⟨expanded, parent⟩
      obtain ⟨s, next, path⟩ := exists_child_behind found expanded parent
      exact ⟨s, next, path ▸ r.path.below_child 0⟩
    · rintro ⟨s, next, below⟩
      exact opens next below

namespace DrawnRow

/-- A drawn row that shows a visible row. -/
structure Shows (e : Expansion) (d : DrawnRow) (r : VisibleRow) : Prop where
  connector : d.connector = if r.depth = 0 then "" else connectorOf r.isLastSibling
  marker : d.marker = markerOf e r
  node : d.node = r.node
  path : d.path = r.path

/-- Rows are drawn one by one, whatever the guides beside them. -/
theorem forall₂_draw (e : Expansion) (lasts : List Bool) (rows : List VisibleRow) :
    List.Forall₂ (Shows e) (draw e lasts rows) rows := by
  induction rows generalizing lasts with
  | nil => exact .nil
  | cons r rest ih =>
    rw [draw]
    split
    next top => exact .cons ⟨(if_pos top).symm, rfl, rfl, rfl⟩ (ih _)
    next below => exact .cons ⟨(if_neg below).symm, rfl, rfl, rfl⟩ (ih _)

theorem rel_getElem? {α β : Type} {R : α → β → Prop} {xs : List α} {ys : List β}
    (h : List.Forall₂ R xs ys) (i : Nat) : Option.Rel R xs[i]? ys[i]? := by
  induction h generalizing i with
  | nil => exact .none
  | cons head _ ih =>
    cases i with
    | zero => exact .some head
    | succ i => exact ih i

/-- The row of a drawing and that of the view at one index. -/
theorem shows_getElem? (view : TreeView) (e : Expansion) (i : Nat) :
    Option.Rel (Shows e) (view.drawn e)[i]? (view.visible e)[i]? :=
  rel_getElem? (forall₂_draw e [] _) i

/-- What holds of the path of the next drawn row holds of the path of the next row. -/
theorem exists_path_iff {next : Option DrawnRow} {row : Option VisibleRow}
    (same : Option.Rel (Shows e) next row) (P : NodePath → Prop) :
    (∃ s, next = some s ∧ P s.path) ↔ ∃ s, row = some s ∧ P s.path := by
  cases same with
  | none => exact iff_of_false nofun nofun
  | some shows => simp only [Option.some.injEq, exists_eq_left', shows.path]

variable (r : VisibleRow)

theorem markerOf_eq_blank_iff : markerOf e r = " " ↔ r.node.hasChildren = false := by
  unfold markerOf
  cases r.node.hasChildren <;> cases e.isExpanded r.path <;> decide

theorem markerOf_eq_open_iff :
    markerOf e r = "▼" ↔ e.isExpanded r.path = true ∧ r.node.hasChildren = true := by
  unfold markerOf
  cases r.node.hasChildren <;> cases e.isExpanded r.path <;> decide

theorem markerOf_eq_closed_iff :
    markerOf e r = "▶" ↔ r.node.hasChildren = true ∧ ¬e.isExpanded r.path = true := by
  unfold markerOf
  cases r.node.hasChildren <;> cases e.isExpanded r.path <;> decide

theorem connectorOf_eq_closing_iff (isLast : Bool) :
    connectorOf isLast = "└─ " ↔ isLast = true := by
  cases isLast <;> decide

end DrawnRow

/-- An entry that says of a node what a node has to say. -/
structure TreeEntry.Describes (t : TreeEntry) (n : Node) : Prop where
  nodeType : t.nodeType = n.rawType?
  label : t.label = n.label
  value : t.value = n.displayValue?
  line : t.line = n.line
  position : t.position = n.position
  attributes : t.attributes = n.attributePairs
  hasChildren : t.hasChildren = n.hasChildren

/-- A row of a drawing and an entry of a document that tell the same of one node of the tree, and
fit the row that is drawn next. -/
structure DrawnRow.Agrees (root : Node) (d : DrawnRow) (next : Option DrawnRow) (t : TreeEntry) :
    Prop where
  path : t.path = d.path.text
  depth : t.depth = d.path.depth
  resolves : d.path.resolve root = some d.node
  node : t.Describes d.node
  leaf : t.hasChildren = false ↔ d.marker = " "
  opened : t.expanded = true ↔ d.marker = "▼"
  child : t.expanded = true ↔ ∃ s, next = some s ∧ s.path = d.path.child 0
  closed : t.hasChildren = true ∧ t.expanded = false ↔ d.marker = "▶"
  nothingBelow : t.hasChildren = true ∧ t.expanded = false ↔
    d.node.children ≠ [] ∧ ∀ s, next = some s → ¬s.path.Below d.path
  last : d.path ≠ .root → (t.isLastSibling = true ↔ d.connector = "└─ ")

theorem agrees_of_getElem? {i : Nat} {r : VisibleRow} {d : DrawnRow} {next : Option DrawnRow}
    (found : ((TreeView.available root).visible e)[i]? = some r) (shows : d.Shows e r)
    (behind : Option.Rel (DrawnRow.Shows e) next ((TreeView.available root).visible e)[i + 1]?) :
    d.Agrees root next (TreeEntry.ofRow e r) := by
  have lists := listsExpanded_visible root e
  have mem := List.mem_of_getElem? found
  obtain ⟨child, below⟩ := opens_iff found
  rw [← DrawnRow.exists_path_iff behind fun p => p = r.path.child 0] at child
  rw [← DrawnRow.exists_path_iff behind fun p => p.Below r.path] at below
  have expanded : (TreeEntry.ofRow e r).expanded = true ↔
      e.isExpanded r.path = true ∧ r.node.hasChildren = true := by
    rw [TreeEntry.ofRow, Bool.and_eq_true, and_comm]
  have closed : (TreeEntry.ofRow e r).hasChildren = true ∧ (TreeEntry.ofRow e r).expanded = false ↔
      r.node.hasChildren = true ∧ ¬e.isExpanded r.path = true := by
    rw [← Bool.not_eq_true, expanded]
    exact and_congr_right fun parent => not_congr (and_iff_left parent)
  obtain ⟨connector, marker, node, path⟩ := shows
  constructor
  · rw [path]
    rfl
  · rw [path]
    exact lists.depth r mem
  · rw [path, node]
    exact lists.node r mem
  · rw [node]
    exact ⟨rfl, rfl, rfl, rfl, rfl, rfl, rfl⟩
  · rw [marker]
    exact (DrawnRow.markerOf_eq_blank_iff r).symm
  · rw [marker, DrawnRow.markerOf_eq_open_iff, expanded]
  · rw [path, expanded, child]
  · rw [marker, DrawnRow.markerOf_eq_closed_iff, closed]
  · have parent : r.node.hasChildren = true ↔ r.node.children ≠ [] := by
      rw [Node.hasChildren, Bool.not_eq_true', List.isEmpty_eq_false_iff]
    rw [closed, path, node, ← parent]
    refine and_congr_right fun has => ?_
    rw [← not_congr (and_iff_left has), below]
    simp only [not_exists, not_and]
  · intro inner
    have deep : r.depth ≠ 0 := by
      rw [lists.depth r mem]
      exact fun top => inner (path.trans (congrArg NodePath.mk (List.length_eq_zero_iff.mp top)))
    rw [connector, if_neg deep, DrawnRow.connectorOf_eq_closing_iff]
    rfl

theorem nodes_ofView (view : TreeView) (e : Expansion) :
    (TreeDocument.ofView view e).nodes = (view.visible e).map (TreeEntry.ofRow e) := rfl

theorem agrees_available {i : Nat} {d : DrawnRow} {t : TreeEntry}
    (drawn : ((TreeView.available root).drawn e)[i]? = some d)
    (entry : (TreeDocument.ofView (.available root) e).nodes[i]? = some t) :
    d.Agrees root ((TreeView.available root).drawn e)[i + 1]? t := by
  rw [nodes_ofView, List.getElem?_map, Option.map_eq_some_iff] at entry
  obtain ⟨r, found, rfl⟩ := entry
  have shows := DrawnRow.shows_getElem? (.available root) e i
  rw [drawn, found, Option.rel_some_some] at shows
  exact agrees_of_getElem? found shows (DrawnRow.shows_getElem? (.available root) e (i + 1))

/-- A root without a type stands for no tree, any other root for its own. -/
theorem ofNode_eq (root : Node) :
    root.rawType? = none ∧ TreeView.ofNode root = .unavailable ∨
      root.rawType? ≠ none ∧ TreeView.ofNode root = .available root := by
  rw [TreeView.ofNode, Node.isAvailable]
  cases root.rawType? with
  | none => exact .inl ⟨rfl, rfl⟩
  | some type => exact .inr ⟨Option.some_ne_none type, rfl⟩

theorem length_drawn (view : TreeView) (e : Expansion) :
    (view.drawn e).length = (TreeDocument.ofView view e).nodes.length := by
  rw [nodes_ofView, List.length_map]
  exact (DrawnRow.forall₂_draw e [] (view.visible e)).length_eq

theorem length_nodes_available_pos (root : Node) (e : Expansion) :
    0 < (TreeDocument.ofView (.available root) e).nodes.length := by
  rw [nodes_ofView, List.length_map, TreeView.visible, visibleSubtree, walk]
  exact Nat.zero_lt_succ _

/-- The drawing of a tree and its document have as many rows and entries, and at each index they
tell the same, under every expansion. Both are empty, and the document says that there is no tree,
when the root has no type. -/
theorem drawing_agrees_document (root : Node) (e : Expansion) :
    let rows := (TreeView.ofNode root).drawn e
    let document := TreeDocument.ofView (.ofNode root) e
    rows.length = document.nodes.length ∧
    (∀ (i : Nat) (d : DrawnRow) (t : TreeEntry), rows[i]? = some d → document.nodes[i]? = some t →
      d.Agrees root rows[i + 1]? t) ∧
    (rows = [] ↔ root.rawType? = none) ∧ (document.nodes = [] ↔ root.rawType? = none) ∧
    (document.available = false ↔ root.rawType? = none) := by
  rcases ofNode_eq root with ⟨untyped, view⟩ | ⟨typed, view⟩
  · rw [view]
    exact ⟨rfl, nofun, iff_of_true rfl untyped, iff_of_true rfl untyped, iff_of_true rfl untyped⟩
  · rw [view]
    have length := length_drawn (.available root) e
    have some := length_nodes_available_pos root e
    refine ⟨length, fun i d t => agrees_available, iff_of_false ?_ typed, iff_of_false ?_ typed,
      iff_of_false nofun typed⟩
    · exact List.ne_nil_of_length_pos (length ▸ some)
    · exact List.ne_nil_of_length_pos some

/-- The first statement of a program of two, with an expression below it that is shown. -/
theorem drawing_agrees_document_twoStatements :
    let e := (Expansion.ofDepth 1).set ⟨[0]⟩ true
    ∃ d t, ((TreeView.ofNode twoStatements).drawn e)[1]? = some d ∧
      (TreeDocument.ofView (.ofNode twoStatements) e).nodes[1]? = some t ∧
      d.marker = "▼" ∧ d.connector = "├─ " ∧ t.expanded = true ∧
      d.Agrees twoStatements ((TreeView.ofNode twoStatements).drawn e)[2]? t := by
  intro e
  let statement : Node :=
    { Node.ofType .statement 1 1 with children := [Node.ofType .expression 1 3] }
  let d : DrawnRow := ⟨"", "├─ ", "▼", statement, ⟨[0]⟩⟩
  let t := TreeEntry.ofRow e ⟨statement, 1, ⟨[0]⟩, false⟩
  have rows : (TreeView.ofNode twoStatements).visible e = preOrder e .root true twoStatements :=
    visibleSubtree_eq_preOrder twoStatements .root e
  have drawn : ((TreeView.ofNode twoStatements).drawn e)[1]? = some d := by
    rw [TreeView.drawn, rows]
    rfl
  have entry : (TreeDocument.ofView (.ofNode twoStatements) e).nodes[1]? = some t := by
    rw [nodes_ofView, rows]
    rfl
  exact ⟨d, t, drawn, entry, rfl, rfl, rfl,
    (drawing_agrees_document twoStatements e).2.1 1 d t drawn entry⟩

end AnalysisBrowser
