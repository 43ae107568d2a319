import AnalysisBrowser.Diagnostics.Merge
import Mathlib.Data.List.Basic
import Mathlib.Data.Prod.Lex

/-!
# The merge of the two streams is a stable sort

A list that does not decrease in a key is known once it is known which entries it has at each value
of the key, and in which order (`eq_of_entriesAt_eq`). The sort by place satisfies both conditions
for its input, so it is the only list that does. Choosing entries commutes with it, and it agrees
with the sort of the library. The merge is the case of two streams, and its views are the sorts of
the streams.
-/
namespace AnalysisBrowser

section Keyed

variable {α κ : Type} [LinearOrder κ] {key : α → κ}

/-- The entries of a list with one value of the key. -/
def entriesAt (key : α → κ) (k : κ) (xs : List α) : List α := xs.filter (key · = k)

theorem mem_entriesAt {k : κ} {xs : List α} {x : α} :
    x ∈ entriesAt key k xs ↔ x ∈ xs ∧ key x = k := by
  rw [entriesAt, List.mem_filter, decide_eq_true_iff]

theorem entriesAt_cons (k : κ) (x : α) (xs : List α) :
    entriesAt key k (x :: xs) =
      if key x = k then x :: entriesAt key k xs else entriesAt key k xs := by
  simp only [entriesAt, List.filter_cons, decide_eq_true_eq]

theorem entriesAt_append (k : κ) (xs ys : List α) :
    entriesAt key k (xs ++ ys) = entriesAt key k xs ++ entriesAt key k ys :=
  List.filter_append ..

theorem entriesAt_filter (k : κ) (p : α → Bool) (xs : List α) :
    entriesAt key k (xs.filter p) = (entriesAt key k xs).filter p := by
  simp only [entriesAt, List.filter_filter, Bool.and_comm]

/-- Two lists with the same entries at each value of the key have the same entries. -/
theorem mem_of_entriesAt_eq {xs ys : List α} {x : α}
    (same : ∀ k, entriesAt key k xs = entriesAt key k ys) (mem : x ∈ xs) : x ∈ ys := by
  have here : x ∈ entriesAt key (key x) xs := mem_entriesAt.mpr ⟨mem, rfl⟩
  rw [same] at here
  exact (mem_entriesAt.mp here).1

theorem key_head_le {x y : α} {xs ys : List α}
    (ordered : (x :: xs).Pairwise fun a b => key a ≤ key b)
    (same : ∀ k, entriesAt key k (x :: xs) = entriesAt key k (y :: ys)) : key x ≤ key y := by
  have mem : y ∈ x :: xs := mem_of_entriesAt_eq (fun k => (same k).symm) List.mem_cons_self
  rcases List.mem_cons.mp mem with rfl | mem
  · exact le_refl _
  · exact (List.pairwise_cons.mp ordered).1 y mem

/-- A list that does not decrease in a key is fixed by its entries at each value of the key. -/
theorem eq_of_entriesAt_eq {xs ys : List α}
    (xsOrdered : xs.Pairwise fun a b => key a ≤ key b)
    (ysOrdered : ys.Pairwise fun a b => key a ≤ key b)
    (same : ∀ k, entriesAt key k xs = entriesAt key k ys) : xs = ys := by
  induction xs generalizing ys with
  | nil =>
    refine (List.eq_nil_iff_forall_not_mem.mpr fun y mem => ?_).symm
    exact List.not_mem_nil (mem_of_entriesAt_eq (fun k => (same k).symm) mem)
  | cons x xs ih =>
    cases ys with
    | nil => exact (List.not_mem_nil (mem_of_entriesAt_eq same List.mem_cons_self)).elim
    | cons y ys =>
      have keys : key x = key y :=
        le_antisymm (key_head_le xsOrdered same) (key_head_le ysOrdered fun k => (same k).symm)
      -- Both heads are the first entries at their common key.
      have heads := same (key x)
      rw [entriesAt_cons, entriesAt_cons, if_pos rfl, if_pos keys.symm] at heads
      obtain rfl : x = y := (List.cons.inj heads).1
      congr 1
      refine ih (List.pairwise_cons.mp xsOrdered).2 (List.pairwise_cons.mp ysOrdered).2 fun k => ?_
      have tails := same k
      rw [entriesAt_cons, entriesAt_cons] at tails
      by_cases here : key x = k
      · rw [if_pos here, if_pos here] at tails
        exact (List.cons.inj tails).2
      · rwa [if_neg here, if_neg here] at tails

theorem decide_le_trans (a b c : α) (ab : decide (key a ≤ key b) = true)
    (bc : decide (key b ≤ key c) = true) : decide (key a ≤ key c) = true :=
  decide_eq_true ((of_decide_eq_true ab).trans (of_decide_eq_true bc))

theorem decide_le_total (a b : α) : (decide (key a ≤ key b) || decide (key b ≤ key a)) = true := by
  rw [Bool.or_eq_true, decide_eq_true_eq, decide_eq_true_eq]
  exact le_total (key a) (key b)

theorem pairwise_mergeSort_key (xs : List α) :
    (xs.mergeSort fun a b => key a ≤ key b).Pairwise fun a b => key a ≤ key b :=
  (List.pairwise_mergeSort decide_le_trans decide_le_total xs).imp of_decide_eq_true

/-- The sort of the library keeps the entries at each value of the key in order. -/
theorem entriesAt_mergeSort (k : κ) (xs : List α) :
    entriesAt key k (xs.mergeSort fun a b => key a ≤ key b) = entriesAt key k xs := by
  have ordered : (entriesAt key k xs).Pairwise fun a b => decide (key a ≤ key b) = true := by
    refine List.pairwise_iff_forall_sublist.mpr fun {a b} sub => ?_
    have atA : key a = k := (mem_entriesAt.mp (sub.subset (by simp))).2
    have atB : key b = k := (mem_entriesAt.mp (sub.subset (by simp))).2
    exact decide_eq_true (atA.trans atB.symm).le
  have sub : (entriesAt key k xs).Sublist (xs.mergeSort fun a b => key a ≤ key b) :=
    List.sublist_mergeSort decide_le_trans decide_le_total ordered List.filter_sublist
  have kept : (entriesAt key k xs).Sublist
      (entriesAt key k (xs.mergeSort fun a b => key a ≤ key b)) := by
    have both := sub.filter (key · = k)
    rwa [List.filter_eq_self.mpr fun x mem => decide_eq_true (mem_entriesAt.mp mem).2] at both
  refine (kept.eq_of_length ?_).symm
  exact ((List.mergeSort_perm xs _).filter _).length_eq.symm

end Keyed

namespace TaggedFinding

/-- The place of a finding, compared by line and then by position. -/
def place (t : TaggedFinding) : ℕ ×ₗ ℕ :=
  toLex (t.finding.line.toNat, t.finding.position.toNat)

theorem le_iff {a b : TaggedFinding} : a.le b = true ↔ a.place ≤ b.place := by
  simp only [le, place, Prod.Lex.toLex_le_toLex, Bool.or_eq_true, Bool.and_eq_true,
    decide_eq_true_eq, beq_iff_eq, UInt64.lt_iff_toNat_lt, UInt64.le_iff_toNat_le,
    UInt64.toNat_inj]

end TaggedFinding

open TaggedFinding

theorem pairwise_insertByPlace {t : TaggedFinding} {ts : List TaggedFinding}
    (ordered : ts.Pairwise fun a b => a.place ≤ b.place) :
    (insertByPlace t ts).Pairwise fun a b => a.place ≤ b.place := by
  induction ts with
  | nil => exact List.pairwise_singleton ..
  | cons u rest ih =>
    obtain ⟨first, later⟩ := List.pairwise_cons.mp ordered
    rw [insertByPlace]
    split
    next before =>
      refine List.pairwise_cons.mpr ⟨fun v mem => ?_, ordered⟩
      rcases List.mem_cons.mp mem with rfl | mem
      · exact le_iff.mp before
      · exact (le_iff.mp before).trans (first v mem)
    next after =>
      refine List.pairwise_cons.mpr ⟨fun v mem => ?_, ih later⟩
      rcases List.mem_cons.mp ((perm_insertByPlace t rest).mem_iff.mp mem) with rfl | mem
      · exact (le_total v.place u.place).resolve_left fun le => after (le_iff.mpr le)
      · exact first v mem

theorem pairwise_sortByPlace (ts : List TaggedFinding) :
    (sortByPlace ts).Pairwise fun a b => a.place ≤ b.place := by
  induction ts with
  | nil => exact List.Pairwise.nil
  | cons t rest ih => exact pairwise_insertByPlace ih

/-- A finding is put before all findings at its own place. -/
theorem entriesAt_insertByPlace (k : ℕ ×ₗ ℕ) (t : TaggedFinding) (ts : List TaggedFinding) :
    entriesAt place k (insertByPlace t ts) = entriesAt place k (t :: ts) := by
  induction ts with
  | nil => rfl
  | cons u rest ih =>
    rw [insertByPlace]
    split
    next => rfl
    next after =>
      have apart : ¬(t.place = k ∧ u.place = k) := by
        rintro ⟨rfl, same⟩
        exact after (le_iff.mpr same.ge)
      rw [entriesAt_cons, ih, entriesAt_cons, entriesAt_cons, entriesAt_cons]
      by_cases atT : t.place = k
      · rw [if_neg fun atU => apart ⟨atT, atU⟩, if_neg fun atU => apart ⟨atT, atU⟩]
      · rw [if_neg atT, if_neg atT]

theorem entriesAt_sortByPlace (k : ℕ ×ₗ ℕ) (ts : List TaggedFinding) :
    entriesAt place k (sortByPlace ts) = entriesAt place k ts := by
  induction ts with
  | nil => rfl
  | cons t rest ih =>
    rw [sortByPlace, entriesAt_insertByPlace, entriesAt_cons, ih, entriesAt_cons]

/-- The sort by place is the only ordered list that keeps the findings at each place. -/
theorem eq_sortByPlace_iff {ts us : List TaggedFinding} :
    us = sortByPlace ts ↔
      (us.Pairwise fun a b => a.place ≤ b.place) ∧
        ∀ k, entriesAt place k us = entriesAt place k ts := by
  constructor
  · rintro rfl
    exact ⟨pairwise_sortByPlace ts, fun k => entriesAt_sortByPlace k ts⟩
  · rintro ⟨ordered, same⟩
    refine eq_of_entriesAt_eq ordered (pairwise_sortByPlace ts) fun k => ?_
    rw [same, entriesAt_sortByPlace]

theorem mergeSort_eq_sortByPlace (ts : List TaggedFinding) :
    (ts.mergeSort fun a b => a.place ≤ b.place) = sortByPlace ts := by
  refine eq_sortByPlace_iff.mpr ⟨?_, fun k => entriesAt_mergeSort k ts⟩
  exact pairwise_mergeSort_key ts

/-- Choosing findings and sorting them can be done in either order. -/
theorem filter_sortByPlace (p : TaggedFinding → Bool) (ts : List TaggedFinding) :
    (sortByPlace ts).filter p = sortByPlace (ts.filter p) := by
  refine eq_sortByPlace_iff.mpr ⟨(pairwise_sortByPlace ts).filter p, fun k => ?_⟩
  rw [entriesAt_filter, entriesAt_sortByPlace, ← entriesAt_filter]

/-- The record of a finding of the parser. -/
def SyntaxFinding.record (e : SyntaxFinding) : TaggedFinding where
  origin := .syntactic
  finding :=
    { message := e.message
      line := e.line
      position := e.position
      errorType := e.errorType
      severity := e.severity
      detail := .syntactic e.expected e.found }

/-- The record of a finding of the semantic checks. -/
def SemanticFinding.record (e : SemanticFinding) : TaggedFinding where
  origin := .semantic
  finding :=
    { message := e.message
      line := e.line
      position := e.position
      errorType := e.errorType
      severity := e.severity
      detail := .semantic e.symbol e.symbolType }

/-- The conditions on a stable merge: no finding is lost, changed or made up, the places do not
decrease, and at each place the first stream comes before the second, both in their order. -/
structure IsStableMerge (first second merged : List TaggedFinding) : Prop where
  records : merged.Perm (first ++ second)
  ordered : merged.Pairwise fun a b => a.place ≤ b.place
  streams : ∀ k, entriesAt place k merged = entriesAt place k first ++ entriesAt place k second

theorem eq_sortByPlace_append_iff {first second merged : List TaggedFinding} :
    merged = sortByPlace (first ++ second) ↔ IsStableMerge first second merged := by
  constructor
  · rintro rfl
    refine ⟨perm_sortByPlace _, pairwise_sortByPlace _, fun k => ?_⟩
    rw [entriesAt_sortByPlace, entriesAt_append]
  · intro merge
    refine eq_sortByPlace_iff.mpr ⟨merge.ordered, fun k => ?_⟩
    rw [merge.streams, entriesAt_append]

theorem tag_syntactic (s : List SyntaxFinding) :
    tag .syntactic (s.map SyntaxFinding.toFinding) = s.map SyntaxFinding.record := by
  rw [tag, List.map_map]
  rfl

theorem tag_semantic (m : List SemanticFinding) :
    tag .semantic (m.map SemanticFinding.toFinding) = m.map SemanticFinding.record := by
  rw [tag, List.map_map]
  rfl

theorem record_injective_syntactic : Function.Injective SyntaxFinding.record := by
  intro e f same
  cases e
  cases f
  simpa [SyntaxFinding.record, and_assoc, and_comm, and_left_comm] using same

theorem record_injective_semantic : Function.Injective SemanticFinding.record := by
  intro e f same
  cases e
  cases f
  simpa [SemanticFinding.record, and_assoc, and_comm, and_left_comm] using same

theorem filter_tag (p : Origin → Bool) (o : Origin) (stream : List Finding) :
    (tag o stream).filter (fun t => p t.origin) = if p o then tag o stream else [] := by
  have same (t : TaggedFinding) (mem : t ∈ tag o stream) : t.origin = o := by
    obtain ⟨f, -, rfl⟩ := List.mem_map.mp mem
    rfl
  split
  next yes => exact List.filter_eq_self.mpr fun t mem => by rw [same t mem, yes]
  next no => exact List.filter_eq_nil_iff.mpr fun t mem => by rwa [same t mem]

/-- A view of the merge is the sort of the streams that the view accepts. -/
theorem apply_mergeFindings (f : OriginFilter) (s m : List Finding) :
    f.apply (mergeFindings s m) =
      sortByPlace
        ((if f.accepts .syntactic then tag .syntactic s else []) ++
          if f.accepts .semantic then tag .semantic m else []) := by
  rw [OriginFilter.apply, mergeFindings, filter_sortByPlace, List.filter_append,
    filter_tag f.accepts, filter_tag f.accepts]

/-- What the views of a merged list are: each stage shows the stable sort of its own stream, and
the two split the merged list between them. -/
structure SplitsByOrigin (first second merged : List TaggedFinding) : Prop where
  syntactic : (OriginFilter.only .syntactic).apply merged =
    first.mergeSort fun a b => a.place ≤ b.place
  semantic : (OriginFilter.only .semantic).apply merged =
    second.mergeSort fun a b => a.place ≤ b.place
  subsequence : ∀ f : OriginFilter, (f.apply merged).Sublist merged
  complementary : merged.partition (·.origin = .syntactic) =
    ((OriginFilter.only .syntactic).apply merged, (OriginFilter.only .semantic).apply merged)
  lengths : ((OriginFilter.only .syntactic).apply merged).length +
    ((OriginFilter.only .semantic).apply merged).length = merged.length
  all : OriginFilter.all.apply merged = merged

theorem apply_syntactic (ts : List TaggedFinding) :
    (OriginFilter.only .syntactic).apply ts = ts.filter (·.origin = .syntactic) := by
  refine List.filter_congr fun t _ => ?_
  cases t.origin <;> rfl

theorem apply_semantic (ts : List TaggedFinding) :
    (OriginFilter.only .semantic).apply ts = ts.filter fun t => !decide (t.origin = .syntactic) := by
  refine List.filter_congr fun t _ => ?_
  cases t.origin <;> rfl

theorem partition_origin (ts : List TaggedFinding) :
    ts.partition (·.origin = .syntactic) =
      ((OriginFilter.only .syntactic).apply ts, (OriginFilter.only .semantic).apply ts) := by
  rw [List.partition_eq_filter_filter, apply_syntactic, apply_semantic]
  rfl

theorem length_views (ts : List TaggedFinding) :
    ((OriginFilter.only .syntactic).apply ts).length +
      ((OriginFilter.only .semantic).apply ts).length = ts.length := by
  rw [apply_syntactic, apply_semantic]
  exact (List.length_eq_length_filter_add _).symm

theorem splitsByOrigin_mergeFindings (s m : List Finding) :
    SplitsByOrigin (tag .syntactic s) (tag .semantic m) (mergeFindings s m) where
  syntactic := by
    have accepted : (OriginFilter.only .syntactic).accepts .syntactic = true := rfl
    have refused : ¬(OriginFilter.only .syntactic).accepts .semantic = true := by decide
    rw [mergeSort_eq_sortByPlace, apply_mergeFindings, if_pos accepted, if_neg refused,
      List.append_nil]
  semantic := by
    have accepted : (OriginFilter.only .semantic).accepts .semantic = true := rfl
    have refused : ¬(OriginFilter.only .semantic).accepts .syntactic = true := by decide
    rw [mergeSort_eq_sortByPlace, apply_mergeFindings, if_neg refused, if_pos accepted,
      List.nil_append]
  subsequence _ := List.filter_sublist
  complementary := partition_origin _
  lengths := length_views _
  all := List.filter_eq_self.mpr fun _ _ => rfl

/-- The merge is the only list that is a stable merge of the two streams, no two findings have one
record, and the views of the merge are the stable sorts of the streams. -/
theorem mergeFindings_eq_stableMerge (s : List SyntaxFinding) (m : List SemanticFinding) :
    let merged := mergeFindings (s.map SyntaxFinding.toFinding) (m.map SemanticFinding.toFinding)
    (∀ ts : List TaggedFinding, ts = merged ↔
      IsStableMerge (s.map SyntaxFinding.record) (m.map SemanticFinding.record) ts) ∧
    Function.Injective SyntaxFinding.record ∧ Function.Injective SemanticFinding.record ∧
    SplitsByOrigin (s.map SyntaxFinding.record) (m.map SemanticFinding.record) merged := by
  intro merged
  rw [← tag_syntactic, ← tag_semantic]
  refine ⟨fun ts => ?_, record_injective_syntactic, record_injective_semantic, ?_⟩
  · exact eq_sortByPlace_append_iff
  · exact splitsByOrigin_mergeFindings _ _

end AnalysisBrowser
