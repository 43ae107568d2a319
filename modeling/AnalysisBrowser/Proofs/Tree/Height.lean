import AnalysisBrowser.Tree.Path

/-!
# The height of a tree

The height is the greatest depth of a node, by recursion over the tree. It is also the greatest
length of a path that leads to a node, so a bound on the height is a bound on all paths.
-/
namespace AnalysisBrowser

mutual

/-- The greatest depth of a node of a tree. -/
def Node.height : Node → Nat
  | ⟨_, _, _, _, children, _⟩ => heightBelow children

/-- The greatest depth of a node under a parent of the trees, at least that of the parent. -/
def Node.heightBelow : List Node → Nat
  | [] => 0
  | n :: rest => max (n.height + 1) (heightBelow rest)

end

theorem height_eq (n : Node) : n.height = Node.heightBelow n.children := by
  cases n
  rw [Node.height]

theorem heightBelow_le_iff {ns : List Node} {k : Nat} :
    Node.heightBelow ns ≤ k ↔ ∀ n ∈ ns, n.height + 1 ≤ k := by
  induction ns with
  | nil => simp [Node.heightBelow]
  | cons n rest ih => rw [Node.heightBelow, Nat.max_le, ih, List.forall_mem_cons]

theorem isSome_follow_cons {i : Nat} {is : List Nat} {n c : Node} (found : n.children[i]? = some c) :
    (NodePath.follow (i :: is) n).isSome = (NodePath.follow is c).isSome := by
  rw [NodePath.follow, found, Option.bind_some]

/-- The height is the greatest length of a path that leads to a node. -/
theorem height_le_iff_length {n : Node} {k : Nat} :
    n.height ≤ k ↔ ∀ is, (NodePath.follow is n).isSome = true → is.length ≤ k := by
  induction n using Node.induct generalizing k with
  | node n ih =>
    rw [height_eq, heightBelow_le_iff]
    constructor
    · intro bound is reached
      cases is with
      | nil => exact Nat.zero_le k
      | cons i is =>
        cases found : n.children[i]? with
        | none =>
          rw [NodePath.follow, found] at reached
          cases reached
        | some c =>
          have mem := List.mem_of_getElem? found
          have below := bound c mem
          rw [isSome_follow_cons found] at reached
          have shorter := (ih c mem).mp (Nat.le_sub_one_of_lt below) is reached
          rw [List.length_cons]
          omega
    · intro bound c mem
      obtain ⟨i, found⟩ := List.getElem?_of_mem mem
      have step : 1 ≤ k := bound [i] ((isSome_follow_cons found).trans rfl)
      have below : c.height ≤ k - 1 := by
        refine (ih c mem).mpr fun is reached => ?_
        have longer := bound (i :: is) ((isSome_follow_cons found).trans reached)
        rw [List.length_cons] at longer
        omega
      omega

theorem height_le_iff {n : Node} {k : Nat} :
    n.height ≤ k ↔ ∀ p : NodePath, (p.resolve n).isSome = true → p.depth ≤ k :=
  height_le_iff_length.trans ⟨fun bound p => bound p.indices, fun bound is => bound ⟨is⟩⟩

end AnalysisBrowser
