import AnalysisBrowser.Tree.Path

/-!
# Expansion

Which nodes of a tree show their children. A path without a flag of its own is expanded when it is
shallower than the expand depth. Flags belong to paths, not to nodes: they stay when a parent is
collapsed and they may name paths that no tree has.
-/
namespace AnalysisBrowser

/-- Nodes shallower than this start expanded. -/
def defaultExpandDepth : Nat := 2

/-- Flags by path over a rule by depth. No path has two flags. -/
structure Expansion where
  flags : List (NodePath × Bool)
  expandDepth : Nat
  distinct : (flags.map Prod.fst).Nodup
  deriving DecidableEq, Repr

namespace Expansion

/-- No flags, only the rule by depth. -/
def ofDepth (expandDepth : Nat) : Expansion := ⟨[], expandDepth, .nil⟩

def flag? (e : Expansion) (p : NodePath) : Option Bool := e.flags.lookup p

/-- Whether the node at a path shows its children. -/
def isExpanded (e : Expansion) (p : NodePath) : Bool :=
  (e.flag? p).getD (p.depth < e.expandDepth)

/-- Puts a flag into a list that has at most one for each path. -/
def putFlag (p : NodePath) (b : Bool) : List (NodePath × Bool) → List (NodePath × Bool)
  | [] => [(p, b)]
  | (q, c) :: rest => if q = p then (p, b) :: rest else (q, c) :: putFlag p b rest

theorem lookup_entry (q r : NodePath) (b : Bool) (flags : List (NodePath × Bool)) :
    ((r, b) :: flags).lookup q = if q = r then some b else flags.lookup q := by
  rw [List.lookup_cons]
  by_cases h : q = r
  · rw [if_pos h, beq_iff_eq.mpr h]
  · rw [if_neg h, beq_eq_false_iff_ne.mpr h]

theorem lookup_putFlag (p q : NodePath) (b : Bool) (flags : List (NodePath × Bool)) :
    (putFlag p b flags).lookup q = if q = p then some b else flags.lookup q := by
  induction flags with
  | nil => exact lookup_entry q p b []
  | cons entry rest ih =>
    obtain ⟨r, c⟩ := entry
    rw [putFlag]
    by_cases hr : r = p
    · subst hr
      rw [if_pos rfl, lookup_entry, lookup_entry]
      by_cases hq : q = r
      · rw [if_pos hq, if_pos hq]
      · rw [if_neg hq, if_neg hq, if_neg hq]
    · rw [if_neg hr, lookup_entry, lookup_entry, ih]
      by_cases hq : q = r
      · rw [if_pos hq, if_pos hq, if_neg fun same => hr (hq.symm.trans same)]
      · rw [if_neg hq, if_neg hq]

theorem mem_keys_putFlag {p q : NodePath} {b : Bool} {flags : List (NodePath × Bool)}
    (h : q ∈ (putFlag p b flags).map Prod.fst) : q = p ∨ q ∈ flags.map Prod.fst := by
  induction flags with
  | nil => simpa [putFlag] using h
  | cons entry rest ih =>
    obtain ⟨r, c⟩ := entry
    simp only [putFlag] at h
    split at h
    next same =>
      obtain rfl | h := List.mem_cons.mp h
      · exact .inl rfl
      · exact .inr (List.mem_cons_of_mem _ h)
    next =>
      obtain rfl | h := List.mem_cons.mp h
      · exact .inr List.mem_cons_self
      · exact (ih h).imp_right (List.mem_cons_of_mem _)

theorem nodup_keys_putFlag (p : NodePath) (b : Bool) {flags : List (NodePath × Bool)}
    (h : (flags.map Prod.fst).Nodup) : ((putFlag p b flags).map Prod.fst).Nodup := by
  induction flags with
  | nil => simp [putFlag]
  | cons entry rest ih =>
    obtain ⟨r, c⟩ := entry
    obtain ⟨fresh, distinct⟩ := List.nodup_cons.mp h
    simp only [putFlag]
    split
    next same => exact List.nodup_cons.mpr ⟨same ▸ fresh, distinct⟩
    next other =>
      refine List.nodup_cons.mpr ⟨fun mem => ?_, ih distinct⟩
      exact (mem_keys_putFlag mem).elim other fresh

/-- Gives a path a flag. -/
def set (e : Expansion) (p : NodePath) (b : Bool) : Expansion :=
  ⟨putFlag p b e.flags, e.expandDepth, nodup_keys_putFlag p b e.distinct⟩

/-- The flag that a path takes when it is flipped. -/
def toggled (e : Expansion) (p : NodePath) : Bool := !e.isExpanded p

/-- Flips one path. -/
def toggle (e : Expansion) (p : NodePath) : Expansion := e.set p (e.toggled p)

/-- Siblings with their paths, the first of them the `index`-th child of the node at `parent`. -/
def placed (parent : NodePath) (index : Nat) : List Node → List (Node × NodePath)
  | [] => []
  | n :: rest => (n, parent.child index) :: placed parent (index + 1) rest

theorem map_fst_placed (parent : NodePath) (index : Nat) (ns : List Node) :
    (placed parent index ns).map Prod.fst = ns := by
  induction ns generalizing index with
  | nil => rfl
  | cons n rest ih => simp [placed, ih]

/-- Gives the same flag to every node that is reached from a stack: the topmost node takes it, and
its children go on top, the last one topmost. -/
def mark (b : Bool) : List (Node × NodePath) → Expansion → Expansion
  | [], e => e
  | (n, p) :: rest, e => mark b ((placed p 0 n.children).reverse ++ rest) (e.set p b)
termination_by stack => Node.sizeAll (stack.map Prod.fst)
decreasing_by
  simp only [List.map_append, List.map_reverse, map_fst_placed, List.map_cons,
    Node.sizeAll_append, Node.sizeAll_reverse, Node.sizeAll, Node.size_eq n]
  omega

/-- Gives every node of a tree the same flag. -/
def setAll (e : Expansion) (root : Node) (b : Bool) : Expansion := mark b [(root, .root)] e

def expandAll (e : Expansion) (root : Node) : Expansion := e.setAll root true

def collapseAll (e : Expansion) (root : Node) : Expansion := e.setAll root false

/-- The number of paths with a flag. -/
def explicitCount (e : Expansion) : Nat := e.flags.length

/-- Drops every flag. -/
def reset (e : Expansion) : Expansion := ofDepth e.expandDepth

@[simp] theorem expandDepth_set (e : Expansion) (p : NodePath) (b : Bool) :
    (e.set p b).expandDepth = e.expandDepth := rfl

theorem flag?_set (e : Expansion) (p q : NodePath) (b : Bool) :
    (e.set p b).flag? q = if q = p then some b else e.flag? q :=
  lookup_putFlag p q b e.flags

theorem isExpanded_set (e : Expansion) (p q : NodePath) (b : Bool) :
    (e.set p b).isExpanded q = if q = p then b else e.isExpanded q := by
  simp only [isExpanded, flag?_set, expandDepth_set]
  split
  · rfl
  · rfl

theorem isExpanded_toggle (e : Expansion) (p q : NodePath) :
    (e.toggle p).isExpanded q = if q = p then !e.isExpanded p else e.isExpanded q :=
  isExpanded_set e p q _

end Expansion

end AnalysisBrowser
