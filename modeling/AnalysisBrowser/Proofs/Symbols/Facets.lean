import AnalysisBrowser.View.Document
import Mathlib.Algebra.GroupWithZero.Nat
import Mathlib.Data.List.Induction
import Mathlib.Data.List.Perm.Basic

/-!
# Filters, facets and statistics agree

The facets of a table are the first occurrences of its kinds and scopes, so each class of rows has
one facet and each facet has rows. From that the views of the facets are a partition of the table,
and the counts of the statistics are the lengths of views.
-/
namespace AnalysisBrowser

section FirstOccurrences

variable {α κ : Type} [DecidableEq α] [DecidableEq κ]

theorem firstOccurrences_concat (xs : List α) (x : α) :
    firstOccurrences (xs ++ [x]) =
      if x ∈ firstOccurrences xs then firstOccurrences xs else firstOccurrences xs ++ [x] := by
  rw [firstOccurrences, List.foldl_append]
  rfl

theorem mem_firstOccurrences {xs : List α} {x : α} : x ∈ firstOccurrences xs ↔ x ∈ xs := by
  -- The loop appends to what it has found, so the induction takes values off the end.
  induction xs using List.reverseRecOn with
  | nil => rfl
  | append_singleton xs y ih =>
    rw [firstOccurrences_concat, List.mem_append, List.mem_singleton]
    split
    next seen =>
      refine ⟨fun mem => .inl (ih.mp mem), ?_⟩
      rintro (mem | rfl)
      · exact ih.mpr mem
      · exact seen
    next new => rw [List.mem_append, List.mem_singleton, ih]

/-- The order of first occurrence, from which it follows that nothing is repeated. -/
theorem pairwise_firstOccurrences (xs : List α) :
    (firstOccurrences xs).Pairwise fun a b => xs.idxOf a < xs.idxOf b := by
  induction xs using List.reverseRecOn with
  | nil => exact List.Pairwise.nil
  | append_singleton xs y ih =>
    have kept : (firstOccurrences xs).Pairwise
        fun a b => (xs ++ [y]).idxOf a < (xs ++ [y]).idxOf b := by
      refine ih.imp_of_mem fun {a b} memA memB before => ?_
      rwa [List.idxOf_append_of_mem (mem_firstOccurrences.mp memA),
        List.idxOf_append_of_mem (mem_firstOccurrences.mp memB)]
    rw [firstOccurrences_concat]
    split
    next => exact kept
    next new =>
      refine List.pairwise_append.mpr ⟨kept, List.pairwise_singleton _ _, ?_⟩
      intro a memA b memB
      obtain rfl := List.mem_singleton.mp memB
      have inside := mem_firstOccurrences.mp memA
      have outside : b ∉ xs := fun mem => new (mem_firstOccurrences.mpr mem)
      rw [List.idxOf_append_of_mem inside, List.idxOf_append_of_notMem outside]
      exact Nat.lt_add_right _ (List.idxOf_lt_length_of_mem inside)

theorem nodup_firstOccurrences (xs : List α) : (firstOccurrences xs).Nodup := by
  refine (pairwise_firstOccurrences xs).imp ?_
  rintro a b before rfl
  exact Nat.lt_irrefl _ before

omit [DecidableEq α] in
/-- The classes of distinct keys hold every entry once, if each entry has one of the keys. -/
theorem perm_flatMap_filter {key : α → κ} {keys : List κ} {xs : List α} (distinct : keys.Nodup)
    (covered : ∀ x ∈ xs, key x ∈ keys) :
    (keys.flatMap fun k => xs.filter fun x => key x == k).Perm xs := by
  induction keys generalizing xs with
  | nil =>
    cases xs with
    | nil => exact .refl _
    | cons x xs => exact (List.not_mem_nil (covered x List.mem_cons_self)).elim
  | cons k keys ih =>
    obtain ⟨apart, distinct⟩ := List.nodup_cons.mp distinct
    have others (j : κ) (mem : j ∈ keys) :
        ((xs.filter fun x => !(key x == k)).filter fun x => key x == j) =
          xs.filter fun x => key x == j := by
      rw [List.filter_filter]
      refine List.filter_congr fun x _ => ?_
      by_cases same : key x = j
      · have other : j ≠ k := fun eq => apart (eq ▸ mem)
        simp [same, other]
      · simp [same]
    have rest := ih distinct fun x (mem : x ∈ xs.filter fun x => !(key x == k)) => by
      obtain ⟨mem, other⟩ := List.mem_filter.mp mem
      rcases List.mem_cons.mp (covered x mem) with same | mem
      · simp [same] at other
      · exact mem
    rw [List.flatMap_congr others] at rest
    rw [List.flatMap_cons]
    exact (rest.append_left _).trans (List.filter_append_perm _ xs)

end FirstOccurrences

/-- The rows that a condition selects stand at ascending positions, and these are all positions at
which a row satisfies it. -/
theorem exists_positions {α : Type} (p : α → Bool) (xs : List α) :
    ∃ ps : List Nat, ps.Pairwise (· < ·) ∧ (∀ i, i ∈ ps ↔ ∃ x, xs[i]? = some x ∧ p x = true) ∧
      (xs.filter p).map some = ps.map fun i => xs[i]? := by
  induction xs with
  | nil => exact ⟨[], .nil, by simp, rfl⟩
  | cons x xs ih =>
    obtain ⟨ps, ascending, positions, rows⟩ := ih
    have shifted : (ps.map (· + 1)).Pairwise (· < ·) := by
      rw [List.pairwise_map]
      exact ascending.imp Nat.succ_lt_succ
    have later (i : Nat) :
        i ∈ ps.map (· + 1) ↔ ∃ j y, i = j + 1 ∧ xs[j]? = some y ∧ p y = true := by
      rw [List.mem_map]
      constructor
      · rintro ⟨j, mem, rfl⟩
        obtain ⟨y, found, holds⟩ := (positions j).mp mem
        exact ⟨j, y, rfl, found, holds⟩
      · rintro ⟨j, y, rfl, found, holds⟩
        exact ⟨j, (positions j).mpr ⟨y, found, holds⟩, rfl⟩
    have tail : (xs.filter p).map some = (ps.map (· + 1)).map fun i => (x :: xs)[i]? := by
      rw [rows, List.map_map]
      rfl
    by_cases holds : p x = true
    · refine ⟨0 :: ps.map (· + 1), ?_, fun i => ?_, ?_⟩
      · refine List.pairwise_cons.mpr ⟨fun i mem => ?_, shifted⟩
        obtain ⟨j, -, rfl⟩ := List.mem_map.mp mem
        exact Nat.succ_pos j
      · rw [List.mem_cons, later]
        cases i with
        | zero => simp [holds]
        | succ i => simp
      · rw [List.filter_cons_of_pos holds, List.map_cons, tail, List.map_cons]
        rfl
    · refine ⟨ps.map (· + 1), shifted, fun i => ?_, ?_⟩
      · rw [later]
        cases i with
        | zero => simp [holds]
        | succ i => simp
      · rw [List.filter_cons_of_neg holds, tail]

namespace SymbolFilter

/-- The filter that keeps one kind. -/
def onlyKind (k : SymbolKind) : SymbolFilter := { everything with kind := .only k }

/-- The filter that keeps one scope. -/
def onlyScope (s : String) : SymbolFilter := { everything with scope := .only s }

/-- The filter that hides what is not used. -/
def usedOnly : SymbolFilter := { everything with includeUnused := false }

/-- A row has the kind and the scope that are asked for, and is used unless unused rows show. -/
structure Admits (f : SymbolFilter) (s : Symbol) : Prop where
  kind : ∀ k, f.kind = .only k → s.kind = k
  scope : ∀ c, f.scope = .only c → s.scope = c
  usage : f.includeUnused = false → s.used = true

theorem accepts_iff {f : SymbolFilter} {s : Symbol} : f.accepts s = true ↔ f.Admits s := by
  obtain ⟨kind, scope, includeUnused⟩ := f
  have kinds : kind.accepts s.kind = true ↔ ∀ k, kind = .only k → s.kind = k := by
    cases kind <;> simp [KindFilter.accepts]
  have scopes : scope.accepts s.scope = true ↔ ∀ c, scope = .only c → s.scope = c := by
    cases scope <;> simp [ScopeFilter.accepts]
  have usage : (includeUnused || s.used) = true ↔ (includeUnused = false → s.used = true) := by
    cases includeUnused <;> simp
  rw [accepts, Bool.and_eq_true, Bool.and_eq_true, kinds, scopes, usage]
  constructor
  · rintro ⟨⟨kind, scope⟩, usage⟩
    exact ⟨kind, scope, usage⟩
  · rintro ⟨kind, scope, usage⟩
    exact ⟨⟨kind, scope⟩, usage⟩

theorem apply_comm (f g : SymbolFilter) (table : List Symbol) :
    f.apply (g.apply table) = g.apply (f.apply table) := by
  simp only [apply, List.filter_filter, Bool.and_comm]

theorem accepts_onlyKind (k : SymbolKind) (s : Symbol) :
    (onlyKind k).accepts s = (s.kind == k) := by
  simp [accepts, onlyKind, everything, KindFilter.accepts, ScopeFilter.accepts]

theorem accepts_onlyScope (c : String) (s : Symbol) :
    (onlyScope c).accepts s = (s.scope == c) := by
  simp [accepts, onlyScope, everything, KindFilter.accepts, ScopeFilter.accepts]

theorem apply_usedOnly (table : List Symbol) :
    usedOnly.apply table = table.filter Symbol.used := by
  refine List.filter_congr fun s _ => ?_
  simp [accepts, usedOnly, everything, KindFilter.accepts, ScopeFilter.accepts]

end SymbolFilter

open SymbolFilter

/-- What makes a list the facets of a table under a key, given the view of each value. -/
structure AreFacets {κ : Type} [DecidableEq κ] (key : Symbol → κ) (view : κ → SymbolFilter)
    (table : List Symbol) (facets : List κ) : Prop where
  distinct : facets.Nodup
  ordered : facets.Pairwise fun a b => (table.map key).idxOf a < (table.map key).idxOf b
  occurs : ∀ k, k ∈ facets ↔ (view k).apply table ≠ []
  partition : (facets.flatMap fun k => (view k).apply table).Perm table
  oneView : ∀ (i : Nat) (s : Symbol), table[i]? = some s →
    ∃! k, k ∈ facets ∧ (view k).Admits s

theorem areFacets_firstOccurrences {κ : Type} [DecidableEq κ] {key : Symbol → κ}
    {view : κ → SymbolFilter} (viewed : ∀ k s, (view k).accepts s = (key s == k))
    (table : List Symbol) : AreFacets key view table (firstOccurrences (table.map key)) where
  distinct := nodup_firstOccurrences _
  ordered := pairwise_firstOccurrences _
  occurs k := by
    rw [mem_firstOccurrences, List.mem_map, Ne, apply, List.filter_eq_nil_iff]
    simp [viewed]
  partition := by
    have views (k : κ) : (view k).apply table = table.filter fun s => key s == k :=
      List.filter_congr fun s _ => viewed k s
    simp only [views]
    refine perm_flatMap_filter (nodup_firstOccurrences _) fun s mem => ?_
    exact mem_firstOccurrences.mpr (List.mem_map_of_mem mem)
  oneView i s found := by
    have admits (k : κ) : (view k).Admits s ↔ key s = k := by
      rw [← accepts_iff, viewed, beq_iff_eq]
    have occurs : key s ∈ firstOccurrences (table.map key) :=
      mem_firstOccurrences.mpr (List.mem_map_of_mem (List.mem_of_getElem? found))
    exact ⟨key s, ⟨occurs, (admits _).mpr rfl⟩, fun j admitted => ((admits j).mp admitted.2).symm⟩

/-- How the statistics of a table fit its views. -/
structure CountsViews (table : List Symbol) (c : SymbolStatistics) : Prop where
  kinds : ∀ k, c.countOf k = ((onlyKind k).apply table).length
  used : c.used = (usedOnly.apply table).length
  usage : c.used + c.unused = c.total
  total : c.total = table.length
  byKind : (c.byKind.map Prod.snd).sum = table.length

theorem mem_all (k : SymbolKind) : k ∈ SymbolKind.all := by
  cases k <;> decide

theorem lookup_all (g : SymbolKind → Nat) (k : SymbolKind) :
    (SymbolKind.all.map fun k => (k, g k)).lookup k = some (g k) := by
  cases k <;> rfl

theorem countKind_eq_length (table : List Symbol) (k : SymbolKind) :
    SymbolStatistics.countKind table k = ((onlyKind k).apply table).length := by
  rw [SymbolStatistics.countKind, List.countP_eq_length_filter, apply,
    List.filter_congr fun s _ => accepts_onlyKind k s]

theorem countsViews_ofTable (table : List Symbol) :
    CountsViews table (SymbolStatistics.ofTable table) where
  kinds k := by
    rw [SymbolStatistics.countOf, SymbolStatistics.ofTable, lookup_all, Option.getD_some,
      countKind_eq_length]
  used := by rw [SymbolStatistics.ofTable, List.countP_eq_length_filter, apply_usedOnly]
  usage := by
    have bounded : table.countP Symbol.used ≤ table.length := List.countP_le_length
    simp only [SymbolStatistics.ofTable]
    omega
  total := rfl
  byKind := by
    have covered : ∀ s ∈ table, s.kind ∈ SymbolKind.all := fun s _ => mem_all s.kind
    have rows := (perm_flatMap_filter (by decide) covered).length_eq
    rw [List.length_flatMap] at rows
    simp only [SymbolStatistics.ofTable, List.map_map, Function.comp_def,
      SymbolStatistics.countKind, List.countP_eq_length_filter]
    exact rows

/-- The members of the symbols document before the rows, whatever filter is in use. -/
theorem exists_members_symbolsDocument (view : SymbolView) :
    ∃ before, ∀ f, (SymbolsDocument.ofView f view).toJson =
      .object (before ++
        [("symbols", .list Symbol.toJson (SymbolsDocument.ofView f view).symbols)]) := by
  let d := SymbolsDocument.ofView everything view
  refine ⟨[("status", .string d.status)] ++
    Json.member? "statistics" SymbolStatistics.toJson d.statistics ++
    Json.member? "facets" Facets.toJson d.facets, fun f => ?_⟩
  cases view with
  | noSymbols => rfl
  | table symbols => rfl

/-- Every filter selects exactly the rows that meet its conditions, in order, and filters can be
applied in any order. The facets are the first occurrences of kinds and scopes, and their views
partition the table. The statistics count views, and neither they nor the facets depend on the
filter of a document. -/
theorem symbolViews_agree (table : List Symbol) :
    (∀ f : SymbolFilter, ∃ ps : List Nat, ps.Pairwise (· < ·) ∧
      (∀ i, i ∈ ps ↔ ∃ s, table[i]? = some s ∧ f.Admits s) ∧
      (f.apply table).map some = ps.map fun i => table[i]?) ∧
    (∀ f g : SymbolFilter, f.apply (g.apply table) = g.apply (f.apply table)) ∧
    AreFacets Symbol.kind onlyKind table (Facets.ofTable table).kinds ∧
    AreFacets Symbol.scope onlyScope table (Facets.ofTable table).scopes ∧
    CountsViews table (SymbolStatistics.ofTable table) ∧
    (∀ f g : SymbolFilter, ∀ view : SymbolView,
      (SymbolsDocument.ofView f view).statistics = (SymbolsDocument.ofView g view).statistics ∧
      (SymbolsDocument.ofView f view).facets = (SymbolsDocument.ofView g view).facets) ∧
    ∃ before, ∀ f, (SymbolsDocument.ofView f (.ofTable table)).toJson =
      .object (before ++ [("symbols",
        .list Symbol.toJson (SymbolsDocument.ofView f (.ofTable table)).symbols)]) := by
  refine ⟨fun f => ?_, fun f g => apply_comm f g table,
    areFacets_firstOccurrences accepts_onlyKind table,
    areFacets_firstOccurrences accepts_onlyScope table, countsViews_ofTable table,
    fun f g view => ?_, exists_members_symbolsDocument _⟩
  · obtain ⟨ps, ascending, positions, rows⟩ := exists_positions f.accepts table
    refine ⟨ps, ascending, fun i => ?_, rows⟩
    simp only [positions, accepts_iff]
  · cases view with
    | noSymbols => exact ⟨rfl, rfl⟩
    | table symbols => exact ⟨rfl, rfl⟩

end AnalysisBrowser
