import AnalysisBrowser.Proofs.Tally

/-!
# Tallies with an index

The index of a tally leads to the entry of each key it knows, and it knows every key that has an
entry. One more occurrence keeps the two in step, so counting never fails, and the entries are those
of the tally that is built by searching.
-/
namespace AnalysisBrowser

variable {α : Type} [DecidableEq α]

namespace Tally

theorem add_of_notMem {t : Tally α} {k : α} (new : k ∉ t.map Prod.fst) :
    t.add k = t ++ [(k, 1)] := by
  induction t with
  | nil => rfl
  | cons entry rest ih =>
    obtain ⟨k', n⟩ := entry
    rw [List.map_cons, List.mem_cons, not_or] at new
    have other : k' ≠ k := fun same => new.1 same.symm
    rw [add, if_neg other, ih new.2, List.cons_append]

theorem add_of_getElem? {t : Tally α} {k : α} {i n : Nat} (found : t[i]? = some (k, n))
    (first : ∀ j < i, (t.map Prod.fst)[j]? ≠ some k) : t.add k = t.set i (k, n + 1) := by
  induction t generalizing i with
  | nil => cases found
  | cons entry rest ih =>
    cases i with
    | zero =>
      obtain rfl := Option.some.inj found
      rw [add, if_pos rfl, List.set_cons_zero]
    | succ i =>
      have other : entry.1 ≠ k := by
        intro same
        exact first 0 (Nat.succ_pos i) (congrArg some same)
      have later : add rest k = rest.set i (k, n + 1) := by
        refine ih found fun j before => ?_
        exact first (j + 1) (Nat.succ_lt_succ before)
      rw [List.set_cons_succ, ← later, add, if_neg other]

end Tally

namespace IndexedTally

/-- A key is in the index at a place exactly when the entry at that place is the one of the key. -/
def Points (t : IndexedTally α) : Prop :=
  ∀ k i, t.places.lookup k = some i ↔ (t.entries.map Prod.fst)[i]? = some k

theorem points_empty : (empty : IndexedTally α).Points := by
  intro k i
  simp [empty]

variable {t : IndexedTally α} {k : α} {i : Nat}

theorem Points.notMem (points : t.Points) (unknown : t.places.lookup k = none) :
    k ∉ t.entries.map Prod.fst := by
  intro mem
  obtain ⟨i, found⟩ := List.mem_iff_getElem?.mp mem
  have known := (points k i).mpr found
  rw [unknown] at known
  cases known

/-- A key has its entry at one place only. -/
theorem Points.place_unique (points : t.Points) {j : Nat}
    (here : (t.entries.map Prod.fst)[i]? = some k) (there : (t.entries.map Prod.fst)[j]? = some k) :
    i = j := by
  have first := (points k i).mpr here
  have second := (points k j).mpr there
  exact Option.some.inj (first.symm.trans second)

theorem Points.exists_entry (points : t.Points) (known : t.places.lookup k = some i) :
    ∃ n, t.entries[i]? = some (k, n) := by
  have found := (points k i).mp known
  rw [List.getElem?_map, Option.map_eq_some_iff] at found
  obtain ⟨⟨k', n⟩, there, rfl⟩ := found
  exact ⟨n, there⟩

/-- Counting in the entry of a key leaves all keys where they are. -/
theorem Points.counted (points : t.Points) {n : Nat} (there : t.entries[i]? = some (k, n)) :
    (⟨t.entries.set i (k, n + 1), t.places⟩ : IndexedTally α).Points := by
  have key : (t.entries.map Prod.fst)[i]? = some k := by
    rw [List.getElem?_map, there]
    rfl
  have keys : (t.entries.set i (k, n + 1)).map Prod.fst = t.entries.map Prod.fst := by
    obtain ⟨inside, same⟩ := List.getElem?_eq_some_iff.mp key
    rw [List.map_set, ← same, List.set_getElem_self inside]
  intro j place
  rw [keys]
  exact points j place

theorem getElem?_concat_eq_some_iff {keys : List α} (new : k ∉ keys) (j : α) :
    (keys ++ [k])[i]? = some j ↔ if j = k then i = keys.length else keys[i]? = some j := by
  have before : keys[i]? ≠ some k := fun found => new (List.mem_of_getElem? found)
  rcases Nat.lt_trichotomy i keys.length with inside | rfl | behind
  · rw [List.getElem?_append_left inside]
    split
    next same =>
      rw [same]
      exact iff_of_false before (Nat.ne_of_lt inside)
    next other => rfl
  · rw [List.getElem?_concat_length, List.getElem?_eq_none (Nat.le_refl _), Option.some_inj]
    split
    next same => exact iff_of_true same.symm rfl
    next other => exact iff_of_false (Ne.symm other) nofun
  · have past : (keys ++ [k]).length ≤ i := by
      rw [List.length_append, List.length_singleton]
      omega
    rw [List.getElem?_eq_none past, List.getElem?_eq_none (Nat.le_of_lt behind)]
    split
    next same => exact iff_of_false nofun (Nat.ne_of_gt behind)
    next other => rfl

/-- A new last entry is reached at its place, and all others where they were. -/
theorem Points.extended (points : t.Points) (unknown : t.places.lookup k = none) :
    (⟨t.entries ++ [(k, 1)], (k, t.entries.length) :: t.places⟩ : IndexedTally α).Points := by
  intro j i
  rw [List.map_append, List.map_singleton, getElem?_concat_eq_some_iff (points.notMem unknown),
    List.length_map, List.lookup_cons]
  by_cases same : j = k
  · rw [if_pos same, beq_iff_eq.mpr same]
    exact ⟨fun h => (Option.some.inj h).symm, fun h => congrArg some h.symm⟩
  · rw [if_neg same, beq_eq_false_iff_ne.mpr same]
    exact points j i

/-- One more occurrence is counted without fail, as by a search, and the index stays right. -/
theorem Points.add? (points : t.Points) (k : α) :
    ∃ u, t.add? k = some u ∧ u.entries = t.entries.add k ∧ u.Points := by
  cases known : t.places.lookup k with
  | none =>
    refine ⟨⟨t.entries ++ [(k, 1)], (k, t.entries.length) :: t.places⟩, ?_, ?_, ?_⟩
    · rw [IndexedTally.add?, known]
    · exact (Tally.add_of_notMem (points.notMem known)).symm
    · exact points.extended known
  | some i =>
    obtain ⟨n, there⟩ := points.exists_entry known
    refine ⟨⟨t.entries.set i (k, n + 1), t.places⟩, ?_, ?_, ?_⟩
    · simp only [IndexedTally.add?, known, there, Option.map_some]
    · refine (Tally.add_of_getElem? there fun j before found => ?_).symm
      have same := points.place_unique found ((points k i).mp known)
      omega
    · exact points.counted there

theorem ofList?_append {keys : List α} (counted : ofList? keys = some t) (later : List α) :
    ofList? (keys ++ later) = later.foldlM IndexedTally.add? t := by
  rw [ofList?] at counted
  rw [ofList?, List.foldlM_append, counted]
  rfl

/-- Counting never fails, finds what a search would find, and leaves the index right. -/
theorem exists_ofList? (keys : List α) :
    ∃ t, ofList? keys = some t ∧ t.entries = Tally.ofList keys ∧ t.Points := by
  induction keys using List.reverseRecOn with
  | nil => exact ⟨empty, rfl, rfl, points_empty⟩
  | append_singleton keys k ih =>
    obtain ⟨t, counted, entries, points⟩ := ih
    obtain ⟨u, next, more, kept⟩ := points.add? k
    refine ⟨u, ?_, ?_, kept⟩
    · rw [ofList?_append counted, List.foldlM_cons, next]
      rfl
    · rw [more, entries, Tally.ofList_concat]

end IndexedTally

end AnalysisBrowser
