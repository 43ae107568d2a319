import AnalysisBrowser.Proofs.Tree.Agreement
import Mathlib.Data.List.Sort

/-!
# Rows by their paths

The rows of a walk come in the order of their paths, and each says of its path what the tree says.
So the rows are known when their paths are. Of two walks over one tree, the one that shows fewer
paths shows a subsequence of the rows of the other. An expansion shows the paths that it reveals:
those that have only expanded paths above them.
-/
namespace AnalysisBrowser

section

variable {root : Node} {start : NodePath} {P Q : NodePath → Prop} {rows others : List VisibleRow}

theorem ListsPaths.congr (lists : ListsPaths root start P rows)
    (same : ∀ p : NodePath, (p.resolve root).isSome = true → (P p ↔ Q p)) :
    ListsPaths root start Q rows :=
  { lists with shown := fun p => (lists.shown p).trans (and_congr_right (same p)) }

/-- In two lists from one start the same row stands at a path. -/
theorem ListsPaths.row_eq (first : ListsPaths root start P rows)
    (second : ListsPaths root start Q others) {r s : VisibleRow} (mem : r ∈ rows)
    (mem' : s ∈ others) (same : r.path = s.path) : r = s := by
  have node : some r.node = some s.node := by
    rw [← first.node r mem, ← second.node s mem', same]
  have depth : r.depth = s.depth := by
    rw [first.depth r mem, second.depth s mem', same]
  have last : r.isLastSibling = s.isLastSibling := by
    rw [Bool.eq_iff_iff, first.last r mem, second.last s mem', same]
  cases r
  cases s
  simp_all

/-- The list of fewer paths is a subsequence of the list of more. -/
theorem ListsPaths.sublist (first : ListsPaths root start P rows)
    (second : ListsPaths root start Q others)
    (wider : ∀ p : NodePath, (p.resolve root).isSome = true → P p → Q p) :
    rows.Sublist others := by
  have subset : rows ⊆ others := by
    intro r mem
    have shown := (first.shown r.path).mp ⟨r, mem, rfl⟩
    have other := (second.shown r.path).mpr ⟨shown.1, wider r.path shown.1 shown.2⟩
    obtain ⟨s, mem', same⟩ := other
    rwa [first.row_eq second mem mem' same.symm]
  have distinct : rows.Nodup := first.once.of_map
  -- No two rows stand in front of each other, so one order of the same rows is the only one.
  have : Std.Antisymm fun a b : VisibleRow => a.path.indices < b.path.indices :=
    ⟨fun a b before after => absurd (List.lt_trans before after) (List.lt_irrefl _)⟩
  have subperm := List.subperm_of_subset distinct subset
  exact List.sublist_of_subperm_of_pairwise subperm first.ordered second.ordered

theorem ListsPaths.unique (first : ListsPaths root start P rows)
    (second : ListsPaths root start Q others)
    (same : ∀ p : NodePath, (p.resolve root).isSome = true → (P p ↔ Q p)) : rows = others := by
  have less := first.sublist second fun p reached => (same p reached).mp
  have more := second.sublist first fun p reached => (same p reached).mpr
  exact less.antisymm more

theorem ListsPaths.filter (lists : ListsPaths root start P rows) (Q : NodePath → Prop)
    [DecidablePred Q] :
    ListsPaths root start (fun p => P p ∧ Q p) (rows.filter fun r => Q r.path) where
  shown p := by
    rw [← and_assoc, ← lists.shown]
    constructor
    · rintro ⟨r, mem, rfl⟩
      have kept := List.mem_filter.mp mem
      exact ⟨⟨r, kept.1, rfl⟩, of_decide_eq_true kept.2⟩
    · rintro ⟨⟨r, mem, rfl⟩, chosen⟩
      exact ⟨r, List.mem_filter.mpr ⟨mem, decide_eq_true chosen⟩, rfl⟩
  once := lists.once.sublist (List.filter_sublist.map _)
  ordered := lists.ordered.sublist List.filter_sublist
  node r mem := lists.node r (List.mem_of_mem_filter mem)
  depth r mem := lists.depth r (List.mem_of_mem_filter mem)
  last r mem := lists.last r (List.mem_of_mem_filter mem)

end

/-- Every path above the given one is expanded. -/
def Expansion.Reveals (e : Expansion) (p : NodePath) : Prop :=
  ∀ q : NodePath, p.Below q → e.isExpanded q = true

variable {root : Node} {e f : Expansion} {p : NodePath}

/-- The paths above a path are its beginnings. -/
theorem NodePath.below_iff_take {q : NodePath} :
    p.Below q ↔ ∃ k < p.depth, q = ⟨p.indices.take k⟩ := by
  constructor
  · rintro ⟨front, proper⟩
    have taken : q = ⟨p.indices.take q.indices.length⟩ :=
      congrArg NodePath.mk (List.prefix_iff_eq_take.mp front)
    refine ⟨q.indices.length, lt_of_le_of_ne front.length_le fun same => proper ?_, taken⟩
    exact congrArg NodePath.mk (front.eq_of_length same)
  · rintro ⟨k, shorter, rfl⟩
    refine ⟨List.take_prefix k p.indices, fun same => ?_⟩
    have length := congrArg NodePath.depth same
    rw [NodePath.depth, List.length_take, ← NodePath.depth] at length
    omega

theorem reveals_iff_take :
    e.Reveals p ↔ ∀ k < p.depth, e.isExpanded ⟨p.indices.take k⟩ = true := by
  simp only [Expansion.Reveals, NodePath.below_iff_take, forall_exists_index, and_imp]
  constructor
  · exact fun above k shorter => above _ k shorter rfl
  · rintro above q k shorter rfl
    exact above k shorter

instance (e : Expansion) : DecidablePred e.Reveals :=
  fun _ => decidable_of_iff _ reveals_iff_take.symm

theorem Expansion.Reveals.mono (revealed : e.Reveals p)
    (wider : ∀ q, e.isExpanded q = true → f.isExpanded q = true) : f.Reveals p :=
  fun q below => wider q (revealed q below)

theorem listsPaths_visible (root : Node) (e : Expansion) :
    ListsPaths root .root e.Reveals ((TreeView.available root).visible e) := by
  rw [TreeView.visible, visibleSubtree_eq_preOrder]
  have lists := listsPaths_preOrder (e := e) (NodePath.resolve_root root)
  refine lists.congr fun p _ => ⟨fun shown q below => ?_, fun revealed => ?_⟩
  · exact shown.2 q List.nil_prefix below.1 below.2
  · exact ⟨List.nil_prefix, fun q _ front proper => revealed q ⟨front, proper⟩⟩

/-- Under any two expansions the same row stands at a path. -/
theorem row_unique {view : TreeView} {r s : VisibleRow} (first : r ∈ view.visible e)
    (second : s ∈ view.visible f) (same : r.path = s.path) : r = s := by
  cases view with
  | unavailable => cases first
  | available root =>
    exact (listsPaths_visible root e).row_eq (listsPaths_visible root f) first second same

end AnalysisBrowser
