import Mathlib.Data.List.DropRight
import Mathlib.Data.List.Induction
import AnalysisBrowser.Text.Blank
import AnalysisBrowser.Text.Joining

/-!
# Trimming, joining and splitting

Trimming takes blank characters off both ends and leaves a text that neither begins nor ends with
one; that is the only text of this kind inside the given one. Texts that do not hold the separator
are joined and split back, and any text is what its parts are joined to. A text has one part more than
it has separators.
-/
namespace AnalysisBrowser.Text

/-- A text neither begins nor ends with a blank character. -/
structure Tight (cs : List Char) : Prop where
  first : ∀ c ∈ cs.head?, isBlank c = false
  last : ∀ c ∈ cs.getLast?, isBlank c = false

theorem tight_of_forall {cs : List Char} (all : ∀ c ∈ cs, isBlank c = false) : Tight cs where
  first c first := all c (List.mem_of_head? first)
  last c last := all c (List.mem_of_getLast? last)

/-- A text is a tight one between blank characters. -/
structure Trims (cs middle : List Char) : Prop where
  between : ∃ front back, cs = front ++ middle ++ back ∧
    (∀ c ∈ front, isBlank c = true) ∧ ∀ c ∈ back, isBlank c = true
  tight : Tight middle

theorem trimChars_eq (cs : List Char) :
    trimChars cs = (cs.dropWhile isBlank).rdropWhile isBlank := rfl

theorem dropWhile_of_first {cs : List Char} (first : ∀ c ∈ cs.head?, isBlank c = false) :
    cs.dropWhile isBlank = cs := by
  cases cs with
  | nil => rfl
  | cons c rest =>
    have : isBlank c = false := first c rfl
    rw [List.dropWhile_cons_of_neg (by simp [this])]

theorem rdropWhile_of_last {cs : List Char} (last : ∀ c ∈ cs.getLast?, isBlank c = false) :
    cs.rdropWhile isBlank = cs := by
  refine List.rdropWhile_eq_self_iff.mpr fun nonempty blank => ?_
  have := last _ (List.getLast?_eq_getLast_of_ne_nil nonempty)
  rw [this] at blank
  cases blank

/-- A tight text stays as it is. -/
theorem Tight.trimChars_eq {cs : List Char} (tight : Tight cs) : trimChars cs = cs := by
  rw [Text.trimChars_eq, dropWhile_of_first tight.first, rdropWhile_of_last tight.last]

theorem rdropWhile_append_of_blank {cs back : List Char} (blank : ∀ c ∈ back, isBlank c = true) :
    (cs ++ back).rdropWhile isBlank = cs.rdropWhile isBlank := by
  induction back using List.reverseRecOn with
  | nil => rw [List.append_nil]
  | append_singleton front c ih =>
    obtain ⟨front_blank, last⟩ := List.forall_mem_append.mp blank
    rw [← List.append_assoc, List.rdropWhile_concat_pos _ _ _ (last c List.mem_cons_self),
      ih front_blank]

theorem tight_trimChars (cs : List Char) : Tight (trimChars cs) where
  first c first := by
    obtain ⟨back, kept⟩ := List.rdropWhile_prefix isBlank (cs.dropWhile isBlank)
    have found : (cs.dropWhile isBlank).head? = some c := by
      rw [← kept, List.head?_append, ← trimChars_eq, Option.mem_def.mp first, Option.some_or]
    have stops := List.head?_dropWhile_not isBlank cs
    rw [found] at stops
    exact stops
  last c last := by
    rw [trimChars_eq] at last
    obtain ⟨nonempty, rfl⟩ := List.mem_getLast?_eq_getLast last
    exact Bool.eq_false_iff.mpr (List.rdropWhile_last_not _ _ nonempty)

/-- What trimming leaves is the only tight text between blank characters. -/
theorem trims_iff {cs middle : List Char} : Trims cs middle ↔ trimChars cs = middle := by
  constructor
  · rintro ⟨⟨front, back, rfl, front_blank, back_blank⟩, tight⟩
    rw [trimChars_eq, List.append_assoc, List.dropWhile_append_of_pos front_blank]
    by_cases empty : middle = []
    · subst empty
      rw [List.nil_append, List.dropWhile_eq_nil_iff.mpr back_blank, List.rdropWhile_nil]
    · have first : ∀ c ∈ (middle ++ back).head?, isBlank c = false := by
        rw [List.head?_append_of_ne_nil _ empty]
        exact tight.first
      rw [dropWhile_of_first first, rdropWhile_append_of_blank back_blank,
        rdropWhile_of_last tight.last]
  · rintro rfl
    refine ⟨⟨cs.takeWhile isBlank, (cs.dropWhile isBlank).rtakeWhile isBlank, ?_, ?_, ?_⟩,
      tight_trimChars cs⟩
    · rw [trimChars_eq, List.append_assoc, List.rdropWhile_append_rtakeWhile,
        List.takeWhile_append_dropWhile]
    · exact fun c => List.mem_takeWhile_imp
    · exact fun c => List.mem_rtakeWhile_imp

theorem splitAt_eq_splitOn (separator : Char) (cs : List Char) :
    splitAt separator cs = cs.splitOn separator := by
  induction cs with
  | nil => rfl
  | cons c rest ih =>
    rw [List.splitOn, List.splitOnP_cons_eq_if_modifyHead, ← List.splitOn, splitAt]
    by_cases same : c = separator
    · rw [if_pos same, if_pos (beq_iff_eq.mpr same), ih]
    · rw [if_neg same, if_neg (by simpa using same), ih]
      cases parts : rest.splitOn separator with
      | nil => exact absurd parts (List.splitOn_ne_nil separator rest)
      | cons part parts => rfl

theorem splitAt_intercalate {separator : Char} {parts : List (List Char)} (some : parts ≠ [])
    (free : ∀ part ∈ parts, separator ∉ part) :
    splitAt separator ([separator].intercalate parts) = parts := by
  rw [splitAt_eq_splitOn, List.splitOn_intercalate separator free some]

theorem intercalate_splitAt (separator : Char) (cs : List Char) :
    [separator].intercalate (splitAt separator cs) = cs := by
  rw [splitAt_eq_splitOn, List.intercalate_splitOn]

theorem splitAt_ne_nil (separator : Char) (cs : List Char) : splitAt separator cs ≠ [] := by
  rw [splitAt_eq_splitOn]
  exact List.splitOn_ne_nil separator cs

theorem splitAt_append_cons (separator : Char) (front back : List Char) :
    splitAt separator (front ++ separator :: back) =
      splitAt separator front ++ splitAt separator back := by
  simp only [splitAt_eq_splitOn, List.splitOn_append_cons_self]

theorem splitAt_of_notMem {separator : Char} {cs : List Char} (whole : separator ∉ cs) :
    splitAt separator cs = [cs] := by
  rw [splitAt_eq_splitOn, List.splitOn_eq_singleton whole]

/-- A character that does not separate joins the first part. -/
theorem exists_splitAt_cons {separator c : Char} (other : c ≠ separator) (rest : List Char) :
    ∃ part parts, splitAt separator rest = part :: parts ∧
      splitAt separator (c :: rest) = (c :: part) :: parts := by
  obtain ⟨part, parts, split⟩ := List.exists_cons_of_ne_nil (splitAt_ne_nil separator rest)
  refine ⟨part, parts, split, ?_⟩
  rw [splitAt, if_neg other, split]

theorem length_splitAt (separator : Char) (cs : List Char) :
    (splitAt separator cs).length = cs.count separator + 1 := by
  induction cs with
  | nil => rfl
  | cons c rest ih =>
    by_cases same : c = separator
    · rw [same, splitAt, if_pos rfl, List.length_cons, ih, List.count_cons_self]
    · obtain ⟨part, parts, before, joined⟩ := exists_splitAt_cons same rest
      rw [before, List.length_cons] at ih
      rw [joined, List.length_cons, ih, List.count_cons_of_ne same]

/-- What stands before all separators stays whole at the head of the first part. -/
theorem exists_splitAt_append {separator : Char} {front : List Char} (whole : separator ∉ front)
    (back : List Char) :
    ∃ first more, splitAt separator (front ++ back) = first :: more ∧ front <+: first := by
  induction front with
  | nil =>
    obtain ⟨first, more, parts⟩ := List.exists_cons_of_ne_nil (splitAt_ne_nil separator back)
    exact ⟨first, more, parts, List.nil_prefix⟩
  | cons c front ih =>
    have other : c ≠ separator := Ne.symm (List.ne_of_not_mem_cons whole)
    obtain ⟨first, more, before, leads⟩ := ih (List.not_mem_of_not_mem_cons whole)
    obtain ⟨part, parts, split, joined⟩ := exists_splitAt_cons other (front ++ back)
    obtain ⟨rfl, rfl⟩ := List.cons.inj (before.symm.trans split)
    exact ⟨c :: first, more, joined, List.cons_prefix_cons.mpr ⟨rfl, leads⟩⟩

/-- A joined text begins with its first part. -/
theorem exists_intercalate_cons (separator part : List Char) (parts : List (List Char)) :
    ∃ rest, separator.intercalate (part :: parts) = part ++ rest := by
  cases parts with
  | nil => exact ⟨[], by rw [List.intercalate_singleton, List.append_nil]⟩
  | cons next more =>
    exact ⟨_, by rw [List.intercalate_cons_cons, List.append_assoc]⟩

theorem mem_intercalate {separator : List Char} {parts : List (List Char)} {c : Char}
    (mem : c ∈ separator.intercalate parts) : c ∈ separator ∨ ∃ part ∈ parts, c ∈ part := by
  induction parts with
  | nil => cases mem
  | cons part rest ih =>
    by_cases alone : rest = []
    · rw [alone, List.intercalate_singleton] at mem
      exact .inr ⟨part, List.mem_cons_self, mem⟩
    · rw [List.intercalate_cons_of_ne_nil alone, List.mem_append, List.mem_append] at mem
      rcases mem with (inside | between) | later
      · exact .inr ⟨part, List.mem_cons_self, inside⟩
      · exact .inl between
      · exact (ih later).imp_right fun ⟨part', mem', inside⟩ =>
          ⟨part', List.mem_cons_of_mem _ mem', inside⟩

theorem toList_joinWith (separator : String) (texts : List String) :
    (joinWith separator texts).toList = separator.toList.intercalate (texts.map String.toList) := by
  induction texts with
  | nil => rfl
  | cons s rest ih =>
    cases rest with
    | nil => rw [joinWith, List.map_singleton, List.intercalate_singleton]
    | cons t more =>
      have step : joinWith separator (s :: t :: more) =
          s ++ separator ++ joinWith separator (t :: more) := rfl
      rw [step, String.toList_append, String.toList_append, ih]
      exact (List.intercalate_cons_of_ne_nil (List.cons_ne_nil _ _)).symm

end AnalysisBrowser.Text
