/-!
# Tallies

A tally counts how often each key occurs in a list and keeps the keys in the order in which they
first occur. It is built one occurrence at a time. With an index beside it the entry of a key is
reached at its place, without a search through the entries.
-/
namespace AnalysisBrowser

/-- Keys with their counts, in order of first occurrence. -/
abbrev Tally (α : Type) := List (α × Nat)

namespace Tally

variable {α : Type} [DecidableEq α]

/-- Counts one more occurrence of a key. -/
def add : Tally α → α → Tally α
  | [], k => [(k, 1)]
  | (k', n) :: rest, k => if k' = k then (k', n + 1) :: rest else (k', n) :: add rest k

def ofList (keys : List α) : Tally α := keys.foldl add []

/-- The count of a key, zero where it does not occur. -/
def count (t : Tally α) (k : α) : Nat := (t.lookup k).getD 0

/-- The number of occurrences counted. -/
def total (t : Tally α) : Nat := t.foldr (fun entry sum => entry.2 + sum) 0

theorem total_add (t : Tally α) (k : α) : (t.add k).total = t.total + 1 := by
  induction t with
  | nil => rfl
  | cons entry rest ih =>
    obtain ⟨k', n⟩ := entry
    simp only [add]
    split
    · simp only [total, List.foldr_cons]
      omega
    · simp only [total, List.foldr_cons] at ih ⊢
      omega

end Tally

/-- A tally with an index of the places at which the keys have their entries. -/
structure IndexedTally (α : Type) where
  entries : Tally α
  places : List (α × Nat)
  deriving DecidableEq, Repr

namespace IndexedTally

variable {α : Type} [DecidableEq α]

def empty : IndexedTally α := ⟨[], []⟩

/-- Counts one more occurrence of a key, in the entry at its place or in a new last one. There is
no result where the index leads past the entries. -/
def add? (t : IndexedTally α) (k : α) : Option (IndexedTally α) :=
  match t.places.lookup k with
  | some i =>
    t.entries[i]?.map fun entry => { t with entries := t.entries.set i (entry.1, entry.2 + 1) }
  | none => some ⟨t.entries ++ [(k, 1)], (k, t.entries.length) :: t.places⟩

def ofList? (keys : List α) : Option (IndexedTally α) := keys.foldlM add? empty

end IndexedTally

end AnalysisBrowser
