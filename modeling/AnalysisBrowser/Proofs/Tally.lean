import AnalysisBrowser.Proofs.Symbols.Facets
import AnalysisBrowser.Tally

/-!
# Tallies count

The keys of a tally are the first occurrences of the keys that were counted, and the count of a key
is the number of its occurrences. Both follow from what one more occurrence does, by induction over
the keys from their end, where a tally grows. No other list of entries groups the keys so.
-/
namespace AnalysisBrowser.Tally

variable {α : Type} [DecidableEq α]

theorem keys_add (t : Tally α) (k : α) :
    (t.add k).map Prod.fst =
      if k ∈ t.map Prod.fst then t.map Prod.fst else t.map Prod.fst ++ [k] := by
  induction t with
  | nil => rfl
  | cons entry rest ih =>
    obtain ⟨k', n⟩ := entry
    rw [add]
    by_cases same : k' = k
    · rw [if_pos same, List.map_cons, List.map_cons, if_pos (same ▸ List.mem_cons_self)]
    · have other : k ∈ k' :: rest.map Prod.fst ↔ k ∈ rest.map Prod.fst := by
        rw [List.mem_cons, or_iff_right fun eq => same eq.symm]
      rw [if_neg same, List.map_cons, List.map_cons, ih, if_congr other rfl rfl]
      split
      · rfl
      · rfl

theorem count_cons (k' : α) (n : Nat) (rest : Tally α) (k : α) :
    count ((k', n) :: rest) k = if k = k' then n else count rest k := by
  rw [count, List.lookup_cons]
  by_cases same : k = k'
  · rw [if_pos same, beq_iff_eq.mpr same]
    rfl
  · rw [if_neg same, beq_eq_false_iff_ne.mpr same]
    rfl

theorem count_add (t : Tally α) (k j : α) :
    (t.add k).count j = t.count j + if k = j then 1 else 0 := by
  induction t with
  | nil =>
    rw [add, count_cons]
    simp only [eq_comm]
    split
    · rfl
    · rfl
  | cons entry rest ih =>
    obtain ⟨k', n⟩ := entry
    rw [add]
    by_cases same : k' = k
    · subst same
      rw [if_pos rfl, count_cons, count_cons]
      by_cases here : j = k'
      · rw [if_pos here, if_pos here, if_pos here.symm]
      · rw [if_neg here, if_neg here, if_neg fun eq => here eq.symm, Nat.add_zero]
    · rw [if_neg same, count_cons, count_cons, ih]
      by_cases here : j = k'
      · rw [if_pos here, if_pos here, if_neg fun eq => same (here ▸ eq.symm), Nat.add_zero]
      · rw [if_neg here, if_neg here]

theorem ofList_concat (keys : List α) (k : α) : ofList (keys ++ [k]) = (ofList keys).add k := by
  rw [ofList, List.foldl_append]
  rfl

/-- The keys of a tally stand in order of first occurrence. -/
theorem keys_ofList (keys : List α) : (ofList keys).map Prod.fst = firstOccurrences keys := by
  induction keys using List.reverseRecOn with
  | nil => rfl
  | append_singleton keys k ih => rw [ofList_concat, keys_add, ih, firstOccurrences_concat]

/-- A tally has no other keys than those that were counted. -/
theorem mem_of_mem_ofList {keys : List α} {entry : α × Nat} (mem : entry ∈ ofList keys) :
    entry.1 ∈ keys := by
  have key := List.mem_map_of_mem (f := Prod.fst) mem
  rw [keys_ofList] at key
  exact mem_firstOccurrences.mp key

/-- The count of a key is the number of its occurrences. -/
theorem count_ofList (keys : List α) (k : α) : (ofList keys).count k = keys.count k := by
  induction keys using List.reverseRecOn with
  | nil => rfl
  | append_singleton keys j ih =>
    rw [ofList_concat, count_add, ih, List.count_append, List.count_singleton]
    simp only [beq_iff_eq]

/-- A tally without a repeated key is told by its keys and their counts. -/
theorem eq_map_count {t : Tally α} (distinct : (t.map Prod.fst).Nodup) :
    t = (t.map Prod.fst).map fun k => (k, t.count k) := by
  induction t with
  | nil => rfl
  | cons entry rest ih =>
    obtain ⟨k', n⟩ := entry
    obtain ⟨fresh, others⟩ := List.nodup_cons.mp distinct
    have counts (k : α) (mem : k ∈ rest.map Prod.fst) :
        (k, count ((k', n) :: rest) k) = (k, count rest k) := by
      rw [count_cons, if_neg fun same : k = k' => fresh (same ▸ mem)]
    rw [List.map_cons, List.map_cons, List.map_congr_left counts, ← ih others, count_cons,
      if_pos rfl]

/-- A tally lists the first occurrences of the keys, each with the number of its occurrences. -/
theorem ofList_eq (keys : List α) :
    ofList keys = (firstOccurrences keys).map fun k => (k, keys.count k) := by
  have distinct : ((ofList keys).map Prod.fst).Nodup := by
    rw [keys_ofList]
    exact nodup_firstOccurrences keys
  have told := eq_map_count distinct
  simpa only [keys_ofList, count_ofList] using told

omit [DecidableEq α] in
theorem total_eq_sum (t : Tally α) : t.total = (t.map Prod.snd).sum := by
  rw [total, List.sum_eq_foldr, List.foldr_map]

theorem total_ofList (keys : List α) : (ofList keys).total = keys.length := by
  induction keys using List.reverseRecOn with
  | nil => rfl
  | append_singleton keys k ih =>
    rw [ofList_concat, total_add, ih, List.length_append, List.length_singleton]

/-- A tally groups keys: it has one entry for each key that occurs, in the order of the first
occurrences, with the number of occurrences. -/
structure Groups (t : Tally α) (keys : List α) : Prop where
  distinct : (t.map Prod.fst).Nodup
  occurs : ∀ k, k ∈ t.map Prod.fst ↔ k ∈ keys
  ordered : (t.map Prod.fst).Pairwise fun j k => keys.idxOf j < keys.idxOf k
  counts : ∀ entry ∈ t, entry.2 = keys.count entry.1
  total : (t.map Prod.snd).sum = keys.length

theorem groups_ofList (keys : List α) : (ofList keys).Groups keys where
  distinct := by
    rw [keys_ofList]
    exact nodup_firstOccurrences keys
  occurs k := by rw [keys_ofList, mem_firstOccurrences]
  ordered := by
    rw [keys_ofList]
    exact pairwise_firstOccurrences keys
  counts entry mem := by
    rw [ofList_eq] at mem
    obtain ⟨k, -, rfl⟩ := List.mem_map.mp mem
    rfl
  total := by rw [← total_eq_sum, total_ofList]

theorem Groups.eq_map {t : Tally α} {keys : List α} (groups : t.Groups keys) :
    t = (t.map Prod.fst).map fun k => (k, keys.count k) := by
  have entries : ∀ entry ∈ t, id entry = (entry.1, keys.count entry.1) :=
    fun entry mem => Prod.ext rfl (groups.counts entry mem)
  rw [List.map_map]
  exact (List.map_id t).symm.trans (List.map_congr_left entries)

/-- Keys are grouped in one way only. -/
theorem groups_iff {t : Tally α} {keys : List α} : t.Groups keys ↔ t = ofList keys := by
  constructor
  · intro groups
    have plain := groups_ofList keys
    have same : t.map Prod.fst = (ofList keys).map Prod.fst := by
      have perm : (t.map Prod.fst).Perm ((ofList keys).map Prod.fst) := by
        rw [List.perm_ext_iff_of_nodup groups.distinct plain.distinct]
        intro k
        rw [groups.occurs, plain.occurs]
      refine perm.eq_of_pairwise (fun j k _ _ before behind => ?_) groups.ordered plain.ordered
      omega
    rw [groups.eq_map, same, ← plain.eq_map]
  · rintro rfl
    exact groups_ofList keys

end AnalysisBrowser.Tally
