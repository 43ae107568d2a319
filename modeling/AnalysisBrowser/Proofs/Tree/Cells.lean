import AnalysisBrowser.Tree.Expansion
import Mathlib.Data.Finset.Card

/-!
# An expansion as one cell for each path

Operations on an expansion come in any order, over any paths and any trees. For a single path all
of them are small: the path has a boolean cell, which starts with the rule by depth, and a mark
that says whether the path was written since the last reset. Every run of operations is the fold of
its steps over these two. The bulk operations are a loop over a stack; `flag?_mark` says that the
loop writes the paths that resolve in the tree and no others.
-/
namespace AnalysisBrowser.Expansion

/-- A path that starts with the path of a placed node and goes on to a node below it. -/
def Under (q : NodePath) (entry : Node × NodePath) : Prop :=
  ∃ is, q.indices = entry.2.indices ++ is ∧ (NodePath.follow is entry.1).isSome = true

theorem mem_placed {parent r : NodePath} {index : Nat} {ns : List Node} {c : Node} :
    (c, r) ∈ placed parent index ns ↔ ∃ i, ns[i]? = some c ∧ r = parent.child (index + i) := by
  induction ns generalizing index with
  | nil => simp [placed]
  | cons n rest ih =>
    rw [placed, List.mem_cons, ih]
    constructor
    · rintro (same | ⟨i, found, rfl⟩)
      · obtain ⟨rfl, rfl⟩ := Prod.mk.inj same
        exact ⟨0, rfl, rfl⟩
      · exact ⟨i + 1, found, by rw [Nat.add_assoc, Nat.add_comm 1]⟩
    · rintro ⟨i, found, rfl⟩
      cases i with
      | zero =>
        obtain rfl : n = c := Option.some.inj found
        exact .inl rfl
      | succ i => exact .inr ⟨i, found, by rw [Nat.add_assoc, Nat.add_comm 1]⟩

/-- A path under a node is the path of the node or a path under one of its children. -/
theorem under_iff {q p : NodePath} {n : Node} :
    Under q (n, p) ↔ q = p ∨ ∃ entry ∈ placed p 0 n.children, Under q entry := by
  constructor
  · rintro ⟨is, path, reached⟩
    cases is with
    | nil => exact .inl (congrArg NodePath.mk (path.trans (List.append_nil _)))
    | cons i is =>
      obtain ⟨m, reached⟩ := Option.isSome_iff_exists.mp reached
      obtain ⟨c, found, reached⟩ := Option.bind_eq_some_iff.mp reached
      refine .inr ⟨(c, p.child i), mem_placed.mpr ⟨i, found, by rw [Nat.zero_add]⟩, is, ?_, ?_⟩
      · rw [path, NodePath.child, List.append_assoc, List.singleton_append]
      · exact Option.isSome_iff_exists.mpr ⟨m, reached⟩
  · rintro (rfl | ⟨⟨c, r⟩, mem, is, path, reached⟩)
    · exact ⟨[], (List.append_nil _).symm, rfl⟩
    · obtain ⟨i, found, rfl⟩ := mem_placed.mp mem
      refine ⟨i :: is, ?_, ?_⟩
      · rw [path, Nat.zero_add, NodePath.child, List.append_assoc, List.singleton_append]
      · simpa only [NodePath.follow, found, Option.bind_some] using reached

open Classical in
/-- The loop writes the paths under the nodes on its stack and leaves all others alone. -/
theorem flag?_mark (b : Bool) (stack : List (Node × NodePath)) (e : Expansion) (q : NodePath) :
    (mark b stack e).flag? q =
      if ∃ entry ∈ stack, Under q entry then some b else e.flag? q := by
  induction stack, e using mark.induct b with
  | case1 e => simp [mark]
  | case2 n p rest e ih =>
    have step : (∃ entry ∈ (n, p) :: rest, Under q entry) ↔
        q = p ∨ ∃ entry ∈ (placed p 0 n.children).reverse ++ rest, Under q entry := by
      simp only [List.mem_cons, List.mem_append, List.mem_reverse, or_and_right, exists_or,
        exists_eq_left, under_iff, or_assoc]
    rw [mark, ih, flag?_set]
    by_cases later : ∃ entry ∈ (placed p 0 n.children).reverse ++ rest, Under q entry
    · rw [if_pos later, if_pos (step.mpr (.inr later))]
    · by_cases here : q = p
      · rw [if_neg later, if_pos here, if_pos (step.mpr (.inl here))]
      · rw [if_neg later, if_neg here, if_neg fun mem => (step.mp mem).elim here later]

theorem under_root {q : NodePath} {tree : Node} :
    (∃ entry ∈ [(tree, NodePath.root)], Under q entry) ↔ (q.resolve tree).isSome = true := by
  constructor
  · rintro ⟨entry, mem, is, path, reached⟩
    obtain rfl := List.mem_singleton.mp mem
    rwa [NodePath.resolve, show q.indices = is from path]
  · intro reached
    exact ⟨_, List.mem_singleton_self _, q.indices, rfl, reached⟩

theorem flag?_setAll (e : Expansion) (tree : Node) (b : Bool) (q : NodePath) :
    (e.setAll tree b).flag? q = if (q.resolve tree).isSome then some b else e.flag? q := by
  rw [setAll, flag?_mark]
  by_cases reached : (q.resolve tree).isSome = true
  · rw [if_pos reached, if_pos (under_root.mpr reached)]
  · rw [if_neg reached, if_neg fun mem => reached (under_root.mp mem)]

theorem expandDepth_mark (b : Bool) (stack : List (Node × NodePath)) (e : Expansion) :
    (mark b stack e).expandDepth = e.expandDepth := by
  induction stack, e using mark.induct b with
  | case1 e => rw [mark]
  | case2 n p rest e ih => rw [mark, ih, expandDepth_set]

/-- One operation on an expansion. -/
inductive Operation where
  | toggle (p : NodePath)
  | set (p : NodePath) (b : Bool)
  | expandAll (tree : Node)
  | collapseAll (tree : Node)
  | reset

namespace Operation

/-- The expansion after an operation. -/
def apply (e : Expansion) : Operation → Expansion
  | .toggle p => e.toggle p
  | .set p b => e.set p b
  | .expandAll tree => e.expandAll tree
  | .collapseAll tree => e.collapseAll tree
  | .reset => e.reset

/-- What an operation returns: a toggle the new flag of its path, the others nothing. -/
def answer (e : Expansion) : Operation → Option Bool
  | .toggle p => some (e.toggled p)
  | _ => none

/-- Whether an operation writes a path; a reset writes all of them. -/
def touches (q : NodePath) : Operation → Bool
  | .toggle p => q = p
  | .set p _ => q = p
  | .expandAll tree => (q.resolve tree).isSome
  | .collapseAll tree => (q.resolve tree).isSome
  | .reset => true

/-- What an operation does to the cell of a path, which starts with `start`. -/
def onCell (start : Bool) (q : NodePath) (cell : Bool) : Operation → Bool
  | .toggle p => if q = p then !cell else cell
  | .set p b => if q = p then b else cell
  | .expandAll tree => if (q.resolve tree).isSome then true else cell
  | .collapseAll tree => if (q.resolve tree).isSome then false else cell
  | .reset => start

/-- What an operation does to the mark of a path that was written since the last reset. -/
def onMark (q : NodePath) (written : Bool) : Operation → Bool
  | .reset => false
  | op => written || op.touches q

end Operation

/-- The expansion after a sequence of operations. -/
def run (e : Expansion) (ops : List Operation) : Expansion := ops.foldl Operation.apply e

open Operation

theorem expandDepth_apply (e : Expansion) (op : Operation) :
    (op.apply e).expandDepth = e.expandDepth := by
  cases op with
  | toggle p => rfl
  | set p b => rfl
  | expandAll tree => exact expandDepth_mark _ _ _
  | collapseAll tree => exact expandDepth_mark _ _ _
  | reset => rfl

theorem isExpanded_setAll (e : Expansion) (tree : Node) (b : Bool) (q : NodePath) :
    (e.setAll tree b).isExpanded q = if (q.resolve tree).isSome then b else e.isExpanded q := by
  rw [isExpanded, flag?_setAll, setAll, expandDepth_mark]
  split
  · rfl
  · rfl

/-- One operation is one step of every cell. -/
theorem isExpanded_apply (e : Expansion) (op : Operation) (q : NodePath) :
    (op.apply e).isExpanded q = op.onCell (q.depth < e.expandDepth) q (e.isExpanded q) := by
  cases op with
  | toggle p =>
    simp only [apply, onCell, isExpanded_toggle]
    split
    next same => rw [same]
    next => rfl
  | set p b => exact isExpanded_set e p q b
  | expandAll tree => exact isExpanded_setAll e tree true q
  | collapseAll tree => exact isExpanded_setAll e tree false q
  | reset => rfl

/-- One operation is one step of every mark. -/
theorem isSome_flag?_apply (e : Expansion) (op : Operation) (q : NodePath) :
    ((op.apply e).flag? q).isSome = op.onMark q (e.flag? q).isSome := by
  cases op with
  | toggle p =>
    simp only [apply, onMark, touches, toggle, flag?_set]
    split <;> simp [*]
  | set p b =>
    simp only [apply, onMark, touches, flag?_set]
    split <;> simp [*]
  | expandAll tree =>
    simp only [apply, onMark, touches, expandAll, flag?_setAll]
    split <;> simp_all
  | collapseAll tree =>
    simp only [apply, onMark, touches, collapseAll, flag?_setAll]
    split <;> simp_all
  | reset => rfl

theorem isExpanded_run (e : Expansion) (ops : List Operation) (q : NodePath) :
    (e.run ops).isExpanded q =
      ops.foldl (onCell (q.depth < e.expandDepth) q) (e.isExpanded q) := by
  induction ops generalizing e with
  | nil => rfl
  | cons op ops ih =>
    rw [run, List.foldl_cons, List.foldl_cons, ← isExpanded_apply, ← expandDepth_apply e op]
    exact ih (op.apply e)

theorem isSome_flag?_run (e : Expansion) (ops : List Operation) (q : NodePath) :
    ((e.run ops).flag? q).isSome = ops.foldl (onMark q) (e.flag? q).isSome := by
  induction ops generalizing e with
  | nil => rfl
  | cons op ops ih =>
    rw [run, List.foldl_cons, List.foldl_cons, ← isSome_flag?_apply]
    exact ih (op.apply e)

theorem mem_keys {e : Expansion} {q : NodePath} :
    q ∈ e.flags.map Prod.fst ↔ (e.flag? q).isSome = true := by
  simp [flag?, List.lookup_isSome_iff]

theorem explicitCount_eq_card (e : Expansion) :
    e.explicitCount = (e.flags.map Prod.fst).toFinset.card := by
  rw [List.toFinset_card_of_nodup e.distinct, List.length_map, explicitCount]

theorem mem_iff_lookup {flags : List (NodePath × Bool)} (distinct : (flags.map Prod.fst).Nodup)
    {q : NodePath} {b : Bool} : (q, b) ∈ flags ↔ flags.lookup q = some b := by
  induction flags with
  | nil => simp
  | cons entry rest ih =>
    obtain ⟨r, c⟩ := entry
    obtain ⟨fresh, others⟩ := List.nodup_cons.mp distinct
    rw [List.mem_cons, ih others, List.lookup_cons]
    by_cases same : q = r
    · subst same
      have absent : rest.lookup q ≠ some b := fun found =>
        fresh (List.mem_map.mpr ⟨_, (ih others).mpr found, rfl⟩)
      simp [absent, eq_comm]
    · simp [same, beq_eq_false_iff_ne.mpr same]

/-- The same flags, in whatever order they are kept, over the same rule by depth. -/
structure Same (e f : Expansion) : Prop where
  flags : e.flags.Perm f.flags
  expandDepth : e.expandDepth = f.expandDepth
  isExpanded : ∀ q, e.isExpanded q = f.isExpanded q
  explicitCount : e.explicitCount = f.explicitCount

theorem flag?_eq (e : Expansion) (q : NodePath) :
    e.flag? q = if (e.flag? q).isSome then some (e.isExpanded q) else none := by
  cases flag : e.flag? q with
  | none => rfl
  | some b => simp [isExpanded, flag]

/-- Expansions whose cells and marks agree at every path are the same. -/
theorem same_of_cells {e f : Expansion} (expandDepth : e.expandDepth = f.expandDepth)
    (cells : ∀ q, e.isExpanded q = f.isExpanded q)
    (marks : ∀ q, (e.flag? q).isSome = (f.flag? q).isSome) : e.Same f := by
  have flags : e.flags.Perm f.flags := by
    refine (List.perm_ext_iff_of_nodup e.distinct.of_map f.distinct.of_map).mpr ?_
    rintro ⟨q, b⟩
    rw [mem_iff_lookup e.distinct, mem_iff_lookup f.distinct]
    change e.flag? q = some b ↔ f.flag? q = some b
    rw [flag?_eq e, flag?_eq f, cells, marks]
  exact ⟨flags, expandDepth, cells, flags.length_eq⟩

theorem onCell_of_untouched {op : Operation} {q : NodePath} (h : op.touches q = false)
    (start cell : Bool) : op.onCell start q cell = cell := by
  cases op with
  | toggle p => exact if_neg (of_decide_eq_false h)
  | set p b => exact if_neg (of_decide_eq_false h)
  | expandAll tree => simp only [onCell, show (q.resolve tree).isSome = false from h]; rfl
  | collapseAll tree => simp only [onCell, show (q.resolve tree).isSome = false from h]; rfl
  | reset => cases h

theorem onMark_of_untouched {op : Operation} {q : NodePath} (h : op.touches q = false)
    (written : Bool) : op.onMark q written = written := by
  cases op with
  | reset => cases h
  | _ => simp only [onMark, h, Bool.or_false]

theorem same_of_disjoint (e : Expansion) {a b : Operation}
    (h : ∀ q, ¬(a.touches q = true ∧ b.touches q = true)) :
    (b.apply (a.apply e)).Same (a.apply (b.apply e)) := by
  have untouched (q : NodePath) : a.touches q = false ∨ b.touches q = false := by
    cases first : a.touches q with
    | false => exact .inl rfl
    | true => exact .inr (Bool.eq_false_iff.mpr fun second => h q ⟨first, second⟩)
  refine same_of_cells ?_ (fun q => ?_) (fun q => ?_)
  · simp only [expandDepth_apply]
  · simp only [isExpanded_apply, expandDepth_apply]
    obtain free | free := untouched q
    · simp only [onCell_of_untouched free]
    · simp only [onCell_of_untouched free]
  · simp only [isSome_flag?_apply]
    obtain free | free := untouched q
    · simp only [onMark_of_untouched free]
    · simp only [onMark_of_untouched free]

theorem answer_of_disjoint (e : Expansion) {a b : Operation}
    (h : ∀ q, ¬(a.touches q = true ∧ b.touches q = true)) :
    a.answer (b.apply e) = a.answer e := by
  cases a with
  | toggle p =>
    have free : b.touches p = false :=
      Bool.eq_false_iff.mpr fun touched => h p ⟨decide_eq_true rfl, touched⟩
    simp only [answer, toggled, isExpanded_apply, onCell_of_untouched free]
  | _ => rfl

theorem run_concat (e : Expansion) (ops : List Operation) (op : Operation) :
    e.run (ops ++ [op]) = op.apply (e.run ops) := by
  simp only [run, List.foldl_append, List.foldl_cons, List.foldl_nil]

/-- After any run, every path shows the fold of the run over its cell, the next toggle returns the
new value of its path, the count is that of the paths written since the last reset, and two
operations on different paths may change places. -/
theorem run_eq_cells (n : Nat) (ops : List Operation) :
    (∀ q, ((ofDepth n).run ops).isExpanded q =
      ops.foldl (onCell (q.depth < n) q) (q.depth < n)) ∧
    (∀ p, (Operation.toggle p).answer ((ofDepth n).run ops) =
      some (((ofDepth n).run (ops ++ [.toggle p])).isExpanded p)) ∧
    (∃ written : Finset NodePath, (∀ q, q ∈ written ↔ ops.foldl (onMark q) false = true) ∧
      ((ofDepth n).run ops).explicitCount = written.card) ∧
    ∀ a b : Operation, (∀ q, ¬(a.touches q = true ∧ b.touches q = true)) →
      ((ofDepth n).run (ops ++ [a, b])).Same ((ofDepth n).run (ops ++ [b, a])) ∧
        a.answer ((ofDepth n).run (ops ++ [b])) = a.answer ((ofDepth n).run ops) ∧
        b.answer ((ofDepth n).run (ops ++ [a])) = b.answer ((ofDepth n).run ops) := by
  refine ⟨fun q => isExpanded_run _ ops q, fun p => ?_, ?_, fun a b apart => ?_⟩
  · rw [run_concat, isExpanded_apply, onCell, if_pos rfl]
    rfl
  · refine ⟨_, fun q => ?_, explicitCount_eq_card _⟩
    rw [List.mem_toFinset, mem_keys, isSome_flag?_run]
    rfl
  · have swap : ∀ q, ¬(b.touches q = true ∧ a.touches q = true) := fun q h => apart q h.symm
    rw [run_concat, run_concat]
    refine ⟨?_, answer_of_disjoint _ apart, answer_of_disjoint _ swap⟩
    have order (c d : Operation) : ops ++ [c, d] = ops ++ [c] ++ [d] := by simp
    rw [order, order, run_concat, run_concat, run_concat, run_concat]
    exact same_of_disjoint _ apart

/-- A toggle of a child and the expansion of a tree that has only a root. -/
theorem run_eq_cells_child_root :
    (∀ q, ¬((Operation.toggle ⟨[0]⟩).touches q = true ∧
      (Operation.expandAll .empty).touches q = true)) ∧
    ((ofDepth 1).run [.toggle .root, .toggle ⟨[0]⟩, .expandAll .empty]).Same
      ((ofDepth 1).run [.toggle .root, .expandAll .empty, .toggle ⟨[0]⟩]) := by
  have apart : ∀ q, ¬((Operation.toggle ⟨[0]⟩).touches q = true ∧
      (Operation.expandAll .empty).touches q = true) := by
    rintro q ⟨path, reached⟩
    obtain rfl := of_decide_eq_true path
    cases reached
  exact ⟨apart, ((run_eq_cells 1 [.toggle .root]).2.2.2 _ _ apart).1⟩

end AnalysisBrowser.Expansion
