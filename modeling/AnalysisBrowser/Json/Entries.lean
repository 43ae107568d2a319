import AnalysisBrowser.Json.Value

/-!
# Maps from texts

A map from texts is the list of its entries in ascending order of their keys. The order is part of
the type, so a key occurs at most once and two maps with the same entries are equal.
-/
namespace AnalysisBrowser.Json

/-- Puts an entry in its place; an entry with the same key is replaced. -/
def insertEntry {α : Type} (key : String) (value : α) : List (String × α) → List (String × α)
  | [] => [(key, value)]
  | (k, v) :: rest =>
    if key < k then (key, value) :: (k, v) :: rest
    else if key = k then (key, value) :: rest
    else (k, v) :: insertEntry key value rest

theorem mem_insertEntry {α : Type} {key : String} {value : α} {entry : String × α}
    {entries : List (String × α)} (h : entry ∈ insertEntry key value entries) :
    entry = (key, value) ∨ entry ∈ entries := by
  induction entries with
  | nil => exact .inl (List.mem_singleton.mp h)
  | cons first rest ih =>
    obtain ⟨k, v⟩ := first
    simp only [insertEntry] at h
    split at h
    · exact List.mem_cons.mp h
    · split at h
      · exact (List.mem_cons.mp h).imp_right (List.mem_cons_of_mem _)
      · obtain h | h := List.mem_cons.mp h
        · exact .inr (h ▸ List.mem_cons_self)
        · exact (ih h).imp_right (List.mem_cons_of_mem _)

theorem pairwise_insertEntry {α : Type} (key : String) (value : α) {entries : List (String × α)}
    (h : entries.Pairwise fun a b => a.1 < b.1) :
    (insertEntry key value entries).Pairwise fun a b => a.1 < b.1 := by
  induction entries with
  | nil => exact List.pairwise_singleton _ _
  | cons first rest ih =>
    obtain ⟨k, v⟩ := first
    obtain ⟨above, ascending⟩ := List.pairwise_cons.mp h
    simp only [insertEntry]
    split
    next below =>
      refine List.pairwise_cons.mpr ⟨?_, h⟩
      intro entry mem
      obtain rfl | mem := List.mem_cons.mp mem
      · exact below
      · exact String.lt_trans below (above entry mem)
    next notBelow =>
      split
      next same => exact List.pairwise_cons.mpr ⟨fun entry mem => same ▸ above entry mem, ascending⟩
      next other =>
        refine List.pairwise_cons.mpr ⟨?_, ih ascending⟩
        intro entry mem
        obtain rfl | mem := mem_insertEntry mem
        · exact Std.lt_of_le_of_ne (String.not_lt.mp notBelow) (Ne.symm other)
        · exact above entry mem

/-- An entry whose key lies above all others goes to the end. -/
theorem insertEntry_of_above {α : Type} {key : String} (value : α) {entries : List (String × α)}
    (h : ∀ entry ∈ entries, entry.1 < key) :
    insertEntry key value entries = entries ++ [(key, value)] := by
  induction entries with
  | nil => rfl
  | cons first rest ih =>
    obtain ⟨k, v⟩ := first
    have below : k < key := h (k, v) List.mem_cons_self
    have tail := ih fun entry mem => h entry (List.mem_cons_of_mem _ mem)
    simp only [insertEntry, if_neg (String.lt_asymm below), if_neg (String.ne_of_lt below).symm,
      tail, List.cons_append]

/-- A map from texts. -/
structure Entries (α : Type) where
  toList : List (String × α)
  ascending : toList.Pairwise fun a b => a.1 < b.1
  deriving DecidableEq, Repr

namespace Entries

variable {α : Type}

/-- The map without entries. -/
def empty : Entries α := ⟨[], .nil⟩

/-- The map with an entry more; an entry with the same key is replaced. -/
def insert (key : String) (value : α) (entries : Entries α) : Entries α :=
  ⟨insertEntry key value entries.toList, pairwise_insertEntry key value entries.ascending⟩

/-- The object whose members are the entries. -/
def toJson (form : α → Json) (entries : Entries α) : Json := .pairs form entries.toList

end Entries

end AnalysisBrowser.Json
