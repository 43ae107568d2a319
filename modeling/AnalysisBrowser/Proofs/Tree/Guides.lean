import AnalysisBrowser.Proofs.Tree.Agreement

/-!
# Guides lead down to connectors

While a tree is drawn, each row knows of the levels above only whether their latest row was a last
sibling. Here a drawn row is told by the rows below it: it has a line in a column exactly where the
first of them that is no deeper than the column stands at the column. The walk gives last siblings
just where no such row follows (`Flagged`), which is an induction over the tree with the rows behind
it; that the flags kept while drawing agree with the rows to come is one over the rows.
-/
namespace AnalysisBrowser

/-- The first of some depths that is at most `k` is there, and it is `k`. -/
def LevelReturns (k : Nat) (depths : List Nat) : Prop := depths.find? (· ≤ k) = some k

instance (k : Nat) (depths : List Nat) : Decidable (LevelReturns k depths) :=
  inferInstanceAs (Decidable (_ = _))

section

variable {k d : Nat} {ds es : List Nat}

theorem not_levelReturns_nil : ¬LevelReturns k [] := nofun

theorem levelReturns_cons_self : LevelReturns k (k :: ds) := by
  simp [LevelReturns]

theorem levelReturns_cons_of_lt (deeper : k < d) : LevelReturns k (d :: ds) ↔ LevelReturns k ds := by
  rw [LevelReturns, List.find?_cons_of_neg (by simpa using deeper), LevelReturns]

theorem not_levelReturns_cons (above : d < k) : ¬LevelReturns k (d :: ds) := by
  rw [LevelReturns, List.find?_cons_of_pos (by simpa using Nat.le_of_lt above), Option.some.injEq]
  exact Nat.ne_of_lt above

theorem levelReturns_append (deeper : ∀ d ∈ ds, k < d) :
    LevelReturns k (ds ++ es) ↔ LevelReturns k es := by
  induction ds with
  | nil => rfl
  | cons d ds ih =>
    rw [List.cons_append, levelReturns_cons_of_lt (deeper d List.mem_cons_self),
      ih fun x mem => deeper x (List.mem_cons_of_mem d mem)]

/-- A level returns at some place, and all depths in front of it are greater. -/
theorem levelReturns_iff :
    LevelReturns k ds ↔
      ∃ m : Nat, ds[m]? = some k ∧ ∀ (l d : Nat), l < m → ds[l]? = some d → k < d := by
  induction ds with
  | nil => exact iff_of_false not_levelReturns_nil (by simp)
  | cons x ds ih =>
    rcases Nat.lt_trichotomy k x with deeper | rfl | above
    · rw [levelReturns_cons_of_lt deeper, ih]
      constructor
      · rintro ⟨m, found, front⟩
        refine ⟨m + 1, found, fun l d before at_ => ?_⟩
        cases l with
        | zero => exact Option.some.inj at_ ▸ deeper
        | succ l => exact front l d (Nat.lt_of_succ_lt_succ before) at_
      · rintro ⟨m, found, front⟩
        cases m with
        | zero => exact absurd (Option.some.inj found) (Nat.ne_of_gt deeper)
        | succ m => exact ⟨m, found, fun l d before => front (l + 1) d (Nat.succ_lt_succ before)⟩
    · exact iff_of_true levelReturns_cons_self ⟨0, rfl, nofun⟩
    · refine iff_of_false (not_levelReturns_cons above) ?_
      rintro ⟨m, found, front⟩
      cases m with
      | zero => exact absurd (Option.some.inj found) (Nat.ne_of_lt above)
      | succ m => exact Nat.lt_asymm above (front 0 x (Nat.succ_pos m) rfl)

/-- From any place in front, the level returns at the same place. -/
theorem levelReturns_drop {m l : Nat} (found : ds[m]? = some k)
    (front : ∀ (l d : Nat), l < m → ds[l]? = some d → k < d) (before : l < m) :
    LevelReturns k (ds.drop (l + 1)) := by
  refine levelReturns_iff.mpr ⟨m - (l + 1), ?_, fun n d less there => ?_⟩
  · rw [List.getElem?_drop, Nat.add_sub_cancel' before]
    exact found
  · rw [List.getElem?_drop] at there
    exact front (l + 1 + n) d (by omega) there

end

/-- The depths of rows. -/
def depthsOf (rows : List VisibleRow) : List Nat := rows.map VisibleRow.depth

theorem depthsOf_append (rows more : List VisibleRow) :
    depthsOf (rows ++ more) = depthsOf rows ++ depthsOf more :=
  List.map_append

/-- Rows that are last siblings exactly where their level does not return below them, and that go
down by one level at most. -/
inductive Flagged : List VisibleRow → Prop
  | nil : Flagged []
  | cons {r : VisibleRow} {rest : List VisibleRow}
      (last : r.isLastSibling = true ↔ ¬LevelReturns r.depth (depthsOf rest))
      (next : ∀ s, rest.head? = some s → s.depth ≤ r.depth + 1) (later : Flagged rest) :
      Flagged (r :: rest)

variable {e : Expansion}

theorem lt_depth_of_mem_preOrderSiblings {parent : NodePath} {index : Nat} {ns : List Node}
    {r : VisibleRow} (mem : r ∈ preOrderSiblings e parent index ns) : parent.depth < r.depth := by
  obtain ⟨i, c, -, inside⟩ := mem_preOrderSiblings.mp mem
  obtain ⟨is, row⟩ := mem_preOrder.mp inside
  obtain ⟨j, js, -, path⟩ := path_of_mem_preOrderSiblings mem
  rw [depth_of_rowAt row, NodePath.depth, NodePath.depth, path, List.length_append,
    List.length_cons]
  exact Nat.lt_add_of_pos_right (Nat.succ_pos _)

theorem head?_preOrderSiblings (parent : NodePath) (index : Nat) (c : Node) (rest : List Node)
    (tail : List VisibleRow) :
    (preOrderSiblings e parent index (c :: rest) ++ tail).head? =
      some ⟨c, parent.depth + 1, parent.child index, rest.isEmpty⟩ := by
  rw [preOrderSiblings, preOrder_eq, List.cons_append, List.cons_append, List.head?_cons,
    NodePath.depth_child]

/-- Where a row of depth `k` or less comes first, the level `k` returns exactly if it has depth `k`. -/
theorem levelReturns_iff_head {k : Nat} {rows : List VisibleRow} {r : VisibleRow}
    (first : rows.head? = some r) (shallow : r.depth ≤ k) :
    LevelReturns k (depthsOf rows) ↔ r.depth = k := by
  obtain ⟨rest, rfl⟩ := List.head?_eq_some_iff.mp first
  rw [depthsOf, List.map_cons]
  rcases Nat.eq_or_lt_of_le shallow with rfl | above
  · exact iff_of_true levelReturns_cons_self rfl
  · exact iff_of_false (not_levelReturns_cons above) (Nat.ne_of_lt above)

theorem flagged_preOrderSiblings {parent : NodePath} {index : Nat} {ns : List Node}
    {tail : List VisibleRow}
    (each : ∀ c ∈ ns, ∀ (q : NodePath) (isLast : Bool) (behind : List VisibleRow),
      Flagged behind → (∀ s, behind.head? = some s → s.depth ≤ q.depth) →
      (isLast = true ↔ ¬LevelReturns q.depth (depthsOf behind)) →
      Flagged (preOrder e q isLast c ++ behind))
    (flagged : Flagged tail) (shallow : ∀ s, tail.head? = some s → s.depth ≤ parent.depth) :
    Flagged (preOrderSiblings e parent index ns ++ tail) := by
  induction ns generalizing index with
  | nil => exact flagged
  | cons c rest ih =>
    have later : Flagged (preOrderSiblings e parent (index + 1) rest ++ tail) :=
      ih fun c mem => each c (List.mem_cons_of_mem _ mem)
    rw [preOrderSiblings, List.append_assoc]
    refine each c List.mem_cons_self _ _ _ later ?_ ?_
    · intro s first
      rw [NodePath.depth_child]
      cases rest with
      | nil => exact Nat.le_succ_of_le (shallow s first)
      | cons c' rest =>
        rw [head?_preOrderSiblings] at first
        exact (Option.some.inj first) ▸ Nat.le_refl _
    · rw [NodePath.depth_child]
      cases rest with
      | nil =>
        refine iff_of_true rfl ?_
        rw [preOrderSiblings, List.nil_append]
        cases behind : tail.head? with
        | none =>
          obtain rfl := List.head?_eq_none_iff.mp behind
          exact not_levelReturns_nil
        | some s =>
          have above := shallow s behind
          rw [levelReturns_iff_head behind (Nat.le_succ_of_le above)]
          exact Nat.ne_of_lt (Nat.lt_succ_of_le above)
      | cons c' rest =>
        refine iff_of_false Bool.false_ne_true (not_not_intro ?_)
        rw [levelReturns_iff_head (head?_preOrderSiblings parent (index + 1) c' rest tail) (Nat.le_refl _)]

/-- The rows of a tree are flagged in front of flagged rows that are no deeper, if the root is
flagged for these. -/
theorem flagged_preOrder {p : NodePath} {isLast : Bool} {n : Node} {tail : List VisibleRow}
    (flagged : Flagged tail) (shallow : ∀ s, tail.head? = some s → s.depth ≤ p.depth)
    (last : isLast = true ↔ ¬LevelReturns p.depth (depthsOf tail)) :
    Flagged (preOrder e p isLast n ++ tail) := by
  induction n using Node.induct generalizing p isLast tail with
  | node n ih =>
    rw [preOrder_eq, List.cons_append]
    split
    · have deeper : ∀ d ∈ depthsOf (preOrderSiblings e p 0 n.children), p.depth < d := by
        intro d mem
        obtain ⟨r, inside, rfl⟩ := List.mem_map.mp mem
        exact lt_depth_of_mem_preOrderSiblings inside
      refine .cons ?_ ?_ (flagged_preOrderSiblings (fun c mem q l behind => ?_) flagged shallow)
      · rw [last, depthsOf_append]
        exact not_congr (levelReturns_append deeper).symm
      · intro s first
        cases children : n.children with
        | nil =>
          rw [children] at first
          exact Nat.le_succ_of_le (shallow s first)
        | cons c rest =>
          rw [children, head?_preOrderSiblings] at first
          exact (Option.some.inj first) ▸ Nat.le_refl _
      · exact ih c mem
    · exact .cons last (fun s first => Nat.le_succ_of_le (shallow s first)) flagged

theorem flagged_visible (view : TreeView) (e : Expansion) : Flagged (view.visible e) := by
  cases view with
  | unavailable => exact .nil
  | available root =>
    have rows := flagged_preOrder (e := e) (p := .root) (n := root) .nil nofun
      (iff_of_true rfl not_levelReturns_nil)
    rwa [List.append_nil, ← visibleSubtree_eq_preOrder] at rows

namespace DrawnRow

/-- What stands in the column of a level above a row: three characters of the guides. -/
def cell (d : DrawnRow) (k : Nat) : String :=
  String.ofList ((d.guides.toList.drop (3 * (k - 1))).take 3)

/-- Whether a line goes on downwards in the column of a level: a guide, or the connector itself. -/
def HasLine (d : DrawnRow) (k : Nat) : Prop :=
  (1 ≤ k ∧ k < d.path.depth ∧ d.cell k = "│  ") ∨ (k = d.path.depth ∧ d.connector = "├─ ")

/-- A row below the root whose connector and guides are as the depths of the later rows ask for. -/
structure Fits (d : DrawnRow) (later : List Nat) : Prop where
  below : 1 ≤ d.path.depth
  connector : d.connector = if LevelReturns d.path.depth later then "├─ " else "└─ "
  width : d.guides.length = 3 * (d.path.depth - 1)
  cells : ∀ k, 1 ≤ k → k < d.path.depth →
    d.cell k = if LevelReturns k later then "│  " else "   "

theorem toList_guidesOf_cons (last : Bool) (lasts : List Bool) :
    (guidesOf (last :: lasts)).toList = (guide last).toList ++ (guidesOf lasts).toList := by
  rw [guidesOf, List.map_cons, String.join_cons, String.toList_append, guidesOf]

theorem length_guide (last : Bool) : (guide last).toList.length = 3 := by
  cases last <;> rfl

theorem length_guidesOf (lasts : List Bool) : (guidesOf lasts).length = 3 * lasts.length := by
  rw [← String.length_toList]
  induction lasts with
  | nil => rfl
  | cons last rest ih =>
    rw [toList_guidesOf_cons, List.length_append, length_guide, ih, List.length_cons]
    omega

/-- The guides in the column of a level are those of its flag. -/
theorem take_drop_guidesOf {lasts : List Bool} {k : Nat} {last : Bool}
    (found : lasts[k]? = some last) :
    (((guidesOf lasts).toList.drop (3 * k)).take 3) = (guide last).toList := by
  induction lasts generalizing k with
  | nil => cases found
  | cons first rest ih =>
    rw [toList_guidesOf_cons]
    cases k with
    | zero =>
      obtain rfl := Option.some.inj found
      exact List.take_left' (length_guide first)
    | succ k =>
      have column : 3 * (k + 1) = (guide first).toList.length + 3 * k := by
        rw [length_guide]
        omega
      rw [column, ← List.drop_drop, List.drop_left]
      exact ih found

/-- What is chosen by a flag is chosen by what the flag denies, the other way round. -/
theorem ite_of_flag {last : Bool} {P : Prop} [Decidable P] (flag : last = true ↔ ¬P)
    (closing going : String) :
    (if last = true then closing else going) = if P then going else closing :=
  (if_congr flag rfl rfl).trans (ite_not P closing going)

/-- Flags of the levels above a row that say of each whether it returns at the depths to come. -/
def Agree (lasts : List Bool) (depths : List Nat) : Prop :=
  ∀ k last, lasts[k]? = some last → (last = true ↔ ¬LevelReturns (k + 1) depths)

/-- The flags above a row agree with what comes behind it. -/
theorem Agree.above {lasts : List Bool} {d : Nat} {ds : List Nat} (agree : Agree lasts (d :: ds)) :
    Agree (lasts.take (d - 1)) ds := by
  intro k last flag
  have inside : k < d - 1 := by
    have bound := (List.getElem?_eq_some_iff.mp flag).1
    rw [List.length_take] at bound
    omega
  rw [List.getElem?_take_of_lt inside] at flag
  rw [agree k last flag, levelReturns_cons_of_lt (by omega)]

theorem Agree.push {lasts : List Bool} {ds : List Nat} {last : Bool} (agree : Agree lasts ds)
    (flag : last = true ↔ ¬LevelReturns (lasts.length + 1) ds) : Agree (lasts ++ [last]) ds := by
  intro k b found
  rcases Nat.lt_or_ge k lasts.length with inside | behind
  · rw [List.getElem?_append_left inside] at found
    exact agree k b found
  · rw [List.getElem?_append_right behind] at found
    have bound := (List.getElem?_eq_some_iff.mp found).1
    rw [List.length_singleton] at bound
    obtain rfl : k = lasts.length := by omega
    rw [Nat.sub_self] at found
    obtain rfl := Option.some.inj found
    exact flag

/-- A row is drawn as it should be from flags that agree with what comes behind it. -/
theorem fits_of_agree {above : List Bool} {later : List Nat} {last : Bool} {p : NodePath}
    (agree : Agree above later) (flag : last = true ↔ ¬LevelReturns p.depth later)
    (length : above.length + 1 = p.depth) (marker : String) (n : Node) :
    Fits ⟨guidesOf above, connectorOf last, marker, n, p⟩ later where
  below := length ▸ Nat.succ_pos _
  connector := ite_of_flag flag _ _
  width := by
    dsimp only
    rw [length_guidesOf, ← length, Nat.add_sub_cancel]
  cells k positive inside := by
    dsimp only at inside
    obtain ⟨b, found⟩ : ∃ b, above[k - 1]? = some b :=
      ⟨_, List.getElem?_eq_getElem (by omega)⟩
    have told := agree (k - 1) b found
    rw [Nat.sub_add_cancel positive] at told
    rw [cell, take_drop_guidesOf found, String.ofList_toList]
    exact ite_of_flag told _ _

/-- Rows are drawn as they should be, each from the flags that those before it have left. -/
theorem fits_draw {lasts : List Bool} {rows : List VisibleRow} (flagged : Flagged rows)
    (inner : ∀ r ∈ rows, 1 ≤ r.depth ∧ r.depth = r.path.depth)
    (agree : Agree lasts (depthsOf rows))
    (first : ∀ r, rows.head? = some r → r.depth ≤ lasts.length + 1) {i : Nat} {d : DrawnRow}
    (found : (draw e lasts rows)[i]? = some d) : d.Fits ((depthsOf rows).drop (i + 1)) := by
  induction rows generalizing lasts i with
  | nil => cases found
  | cons r rest ih =>
    cases flagged with | cons last next later =>
    obtain ⟨below, depth⟩ := inner r List.mem_cons_self
    have above : Agree (lasts.take (r.depth - 1)) (depthsOf rest) := agree.above
    have length : (lasts.take (r.depth - 1)).length + 1 = r.depth := by
      have reach := first r rfl
      rw [List.length_take]
      omega
    rw [draw, if_neg (Nat.ne_of_gt below)] at found
    cases i with
    | zero =>
      obtain rfl := Option.some.inj found
      exact fits_of_agree above (depth ▸ last) (length.trans depth) _ _
    | succ i =>
      refine ih later (fun s mem => inner s (List.mem_cons_of_mem r mem))
        (above.push (length.symm ▸ last)) (fun s head => ?_) found
      rw [List.length_append, List.length_singleton, length]
      exact next s head

theorem map_depth_draw {rows : List VisibleRow} (depth : ∀ r ∈ rows, r.depth = r.path.depth)
    (e : Expansion) (lasts : List Bool) :
    (draw e lasts rows).map (fun d => d.path.depth) = depthsOf rows := by
  have shows := forall₂_draw e lasts rows
  generalize draw e lasts rows = drawn at shows ⊢
  induction shows with
  | nil => rfl
  | @cons d r drawn rows head _ ih =>
    rw [List.map_cons, head.path, ← depth r List.mem_cons_self,
      ih fun s mem => depth s (List.mem_cons_of_mem r mem)]
    rfl

theorem exists_visible_cons (root : Node) (e : Expansion) :
    ∃ below, (TreeView.available root).visible e = ⟨root, 0, .root, true⟩ :: below ∧
      ∀ r ∈ below, 1 ≤ r.depth := by
  rw [TreeView.visible, visibleSubtree_eq_preOrder, preOrder_eq]
  refine ⟨_, rfl, fun r mem => ?_⟩
  split at mem
  · exact lt_depth_of_mem_preOrderSiblings mem
  · cases mem

theorem map_depth_drawn (view : TreeView) (e : Expansion) :
    (view.drawn e).map (fun d => d.path.depth) = depthsOf (view.visible e) := by
  cases view with
  | unavailable => rfl
  | available root => exact map_depth_draw (listsExpanded_visible root e).depth e []

theorem drawn_head {view : TreeView} {e : Expansion} {d : DrawnRow}
    (found : (view.drawn e)[0]? = some d) : d.guides = "" ∧ d.connector = "" := by
  cases view with
  | unavailable => cases found
  | available root =>
    obtain ⟨below, rows, -⟩ := exists_visible_cons root e
    rw [TreeView.drawn, rows, draw, if_pos rfl] at found
    obtain rfl := Option.some.inj found
    exact ⟨rfl, rfl⟩

theorem fits_drawn {view : TreeView} {e : Expansion} {i : Nat} {d : DrawnRow}
    (found : (view.drawn e)[i + 1]? = some d) :
    d.Fits (((view.drawn e).map fun d => d.path.depth).drop (i + 2)) := by
  rw [map_depth_drawn]
  cases view with
  | unavailable => cases found
  | available root =>
    have lists := listsExpanded_visible root e
    have flagged := flagged_visible (.available root) e
    obtain ⟨below, rows, deep⟩ := exists_visible_cons root e
    rw [TreeView.drawn, rows, draw, if_pos rfl] at found
    rw [rows] at lists flagged ⊢
    cases flagged with | cons _ next later =>
    have inner (r : VisibleRow) (mem : r ∈ below) : 1 ≤ r.depth ∧ r.depth = r.path.depth :=
      ⟨deep r mem, lists.depth r (List.mem_cons_of_mem _ mem)⟩
    have agree : Agree [] (depthsOf below) := fun k last flag => by cases flag
    exact fits_draw later inner agree next found

theorem Fits.hasLine_iff {d : DrawnRow} {later : List Nat} (fits : d.Fits later) {k : Nat} :
    d.HasLine k ↔ 1 ≤ k ∧ k ≤ d.path.depth ∧ LevelReturns k later := by
  constructor
  · rintro (⟨positive, inside, line⟩ | ⟨rfl, line⟩)
    · refine ⟨positive, Nat.le_of_lt inside, ?_⟩
      by_contra gone
      rw [fits.cells k positive inside, if_neg gone] at line
      exact absurd line (by decide)
    · refine ⟨fits.below, Nat.le_refl _, ?_⟩
      by_contra gone
      rw [fits.connector, if_neg gone] at line
      exact absurd line (by decide)
  · rintro ⟨positive, reach, returns⟩
    rcases Nat.lt_or_eq_of_le reach with inside | rfl
    · exact .inl ⟨positive, inside, by rw [fits.cells k positive inside, if_pos returns]⟩
    · exact .inr ⟨rfl, by rw [fits.connector, if_pos returns]⟩

theorem not_hasLine_head {view : TreeView} {e : Expansion} {d : DrawnRow}
    (found : (view.drawn e)[0]? = some d) {k : Nat} : ¬d.HasLine k := by
  obtain ⟨guides, connector⟩ := drawn_head found
  rintro (⟨_, _, line⟩ | ⟨_, line⟩)
  · rw [cell, guides, String.toList_empty, List.drop_nil, List.take_nil] at line
    exact absurd line (by decide)
  · exact absurd (connector.symm.trans line) (by decide)

/-- A line in a column goes on through the rows below until it meets a connector in that column. -/
theorem exists_connector_below {view : TreeView} {e : Expansion} {i k : Nat} {d : DrawnRow}
    (found : (view.drawn e)[i]? = some d) (line : d.HasLine k) :
    ∃ (j : Nat) (s : DrawnRow), i < j ∧ (view.drawn e)[j]? = some s ∧ s.path.depth = k ∧
      (s.connector = "├─ " ∨ s.connector = "└─ ") ∧
      ∀ (l : Nat) (t : DrawnRow), i < l → l < j → (view.drawn e)[l]? = some t →
        k < t.path.depth ∧ t.HasLine k := by
  cases i with
  | zero => exact absurd line (not_hasLine_head found)
  | succ i =>
    obtain ⟨positive, -, returns⟩ := (fits_drawn found).hasLine_iff.mp line
    obtain ⟨m, level, front⟩ := levelReturns_iff.mp returns
    have there := level
    rw [List.getElem?_drop, List.getElem?_map, Option.map_eq_some_iff] at there
    obtain ⟨s, there, depth⟩ := there
    refine ⟨i + 2 + m, s, by omega, there, depth, ?_, fun l t after before between => ?_⟩
    · have next : i + 2 + m = i + 1 + m + 1 := by omega
      rw [(fits_drawn (next ▸ there)).connector]
      exact ite_eq_or_eq _ _ _
    · -- The row in between stands at `n` behind the row of the line.
      obtain ⟨n, rfl⟩ : ∃ n, l = i + 2 + n := ⟨l - (i + 2), by omega⟩
      have inside : n < m := by omega
      have deeper : k < t.path.depth := by
        refine front n t.path.depth inside ?_
        rw [List.getElem?_drop, List.getElem?_map, between, Option.map_some]
      have goesOn := levelReturns_drop level front inside
      rw [List.drop_drop] at goesOn
      have next : i + 2 + n = i + 1 + n + 1 := by omega
      have fits := fits_drawn (next ▸ between)
      rw [show i + 1 + n + 2 = i + 2 + (n + 1) by omega] at fits
      exact ⟨deeper, fits.hasLine_iff.mpr ⟨positive, Nat.le_of_lt deeper, goesOn⟩⟩

/-- The drawing of a tree, whatever is expanded. The first row has neither guides nor a connector.
Any other row is drawn as the rows below it ask for, in its connector and in each of its columns.
Every line leads down to a connector in its column, through rows that all have it. -/
theorem guides_lead_down (view : TreeView) (e : Expansion) :
    let rows := view.drawn e
    let depths := rows.map fun d => d.path.depth
    (∀ d, rows[0]? = some d → d.guides = "" ∧ d.connector = "") ∧
    (∀ (i : Nat) (d : DrawnRow), 0 < i → rows[i]? = some d → d.Fits (depths.drop (i + 1))) ∧
    ∀ (i k : Nat) (d : DrawnRow), rows[i]? = some d → d.HasLine k →
      ∃ (j : Nat) (s : DrawnRow), i < j ∧ rows[j]? = some s ∧ s.path.depth = k ∧
        (s.connector = "├─ " ∨ s.connector = "└─ ") ∧
        ∀ (l : Nat) (t : DrawnRow), i < l → l < j → rows[l]? = some t →
          k < t.path.depth ∧ t.HasLine k := by
  refine ⟨fun d => drawn_head, fun i d positive found => ?_, fun i k d => exists_connector_below⟩
  cases i with
  | zero => exact absurd positive (Nat.lt_irrefl 0)
  | succ i => exact fits_drawn found

/-- An expression below the first of two statements, with a guide that leads to the second. -/
theorem guides_lead_down_twoStatements :
    let e := (Expansion.ofDepth 1).set ⟨[0]⟩ true
    let rows := (TreeView.ofNode twoStatements).drawn e
    ∃ top d, rows[0]? = some top ∧ rows[2]? = some d ∧ d.guides = "│  " ∧ d.connector = "└─ " ∧
      (top.guides = "" ∧ top.connector = "") ∧ d.Fits [1] ∧ d.HasLine 1 ∧
      ∃ (j : Nat) (s : DrawnRow), 2 < j ∧ rows[j]? = some s ∧ s.path.depth = 1 := by
  intro e rows
  have drawn : rows = draw e [] (preOrder e .root true twoStatements) := by
    rw [← visibleSubtree_eq_preOrder]
    rfl
  let expression := Node.ofType .expression 1 3
  let top : DrawnRow := ⟨"", "", "▼", twoStatements, .root⟩
  let d : DrawnRow := ⟨"│  ", "└─ ", " ", expression, ⟨[0, 0]⟩⟩
  have first : rows[0]? = some top := by
    rw [drawn]
    rfl
  have found : rows[2]? = some d := by
    rw [drawn]
    rfl
  have line : d.HasLine 1 := .inl (by decide)
  obtain ⟨head, fits, leads⟩ := guides_lead_down (.ofNode twoStatements) e
  obtain ⟨j, s, below, there, depth, -⟩ := leads 2 1 d found line
  refine ⟨top, d, first, found, rfl, rfl, head top first, ?_, line, j, s, below, there, depth⟩
  have later : (rows.map fun d => d.path.depth).drop 3 = [1] := by
    rw [drawn]
    rfl
  exact later ▸ fits 2 d (by decide) found

end DrawnRow

end AnalysisBrowser
