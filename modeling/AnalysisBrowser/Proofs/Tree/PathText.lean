import Mathlib.Data.List.Forall2
import AnalysisBrowser.Proofs.Number.Digits
import AnalysisBrowser.Proofs.Text.Parts
import AnalysisBrowser.Tree.Path

/-!
# Path texts

The text of a path can be read in many spellings: with blanks around it, with plus signs and with
leading zeros, and three spellings stand for the root. What is read is described here without the
reader, by a grammar of trimmed texts. Every path is written in one of its spellings, the canonical
one, and no other canonical spelling stands for it.
-/
namespace AnalysisBrowser.NodePath

open Number (countLimit)

/-- Every index fits in 64 bits. -/
def Fits (p : NodePath) : Prop := ∀ i ∈ p.indices, i < countLimit

instance (p : NodePath) : Decidable p.Fits :=
  inferInstanceAs (Decidable (∀ i ∈ p.indices, i < countLimit))

/-- The spellings of the root: no text, a point, and the word with letters of either case. -/
def SpellsRoot (cs : List Char) : Prop :=
  cs = [] ∨ cs = ['.'] ∨ cs.map Char.toLower = ['r', 'o', 'o', 't']

/-- The spellings of a path, without blanks around them. -/
inductive Spells : List Char → NodePath → Prop
  | root {cs : List Char} (spells : SpellsRoot cs) : Spells cs .root
  /-- Spelled indices with single points between them. -/
  | indices {parts : List (List Char)} {is : List Nat} (some : parts ≠ [])
      (each : List.Forall₂ (Number.Spells countLimit) parts is) :
      Spells (['.'].intercalate parts) ⟨is⟩

/-- The spellings that are written: a point for the root, and otherwise the digits of the indices,
none with a leading zero, with single points between them. -/
def Canonical (cs : List Char) : Prop :=
  cs = ['.'] ∨ ∃ parts ≠ [], (∀ part ∈ parts, Number.Canonical part) ∧ cs = ['.'].intercalate parts

/-- At least one character, and none but digits and plus signs. -/
structure IndexLike (part : List Char) : Prop where
  nonempty : part ≠ []
  chars : ∀ c ∈ part, c = '+' ∨ c.isDigit = true

theorem indexLike_of_numeral {ds : List Char} {n : Nat} (numeral : Number.Numeral countLimit ds n) :
    IndexLike ds :=
  ⟨numeral.nonempty, fun c mem => .inr (numeral.allDigits c mem)⟩

theorem indexLike_of_spells {part : List Char} {i : Nat} (spells : Number.Spells countLimit part i) :
    IndexLike part := by
  obtain numeral | ⟨ds, rfl, numeral⟩ := spells
  · exact indexLike_of_numeral numeral
  · refine ⟨List.cons_ne_nil _ _, List.forall_mem_cons.mpr ⟨.inl rfl, ?_⟩⟩
    exact (indexLike_of_numeral numeral).chars

theorem indexLike_digits (n : Nat) : IndexLike (Number.digits n) :=
  ⟨(Number.canonical_digits n).nonempty, fun _ mem => .inr (Number.isDigit_of_mem_digits mem)⟩

/-- A character of an index lies below the letters and is no point. -/
theorem code_of_indexLike {part : List Char} (like : IndexLike part) {c : Char} (mem : c ∈ part) :
    c ≠ '.' ∧ c.toNat < 'A'.toNat := by
  obtain rfl | isDigit := like.chars c mem
  · decide
  · obtain ⟨low, high⟩ := Char.isDigit_iff_toNat.mp isDigit
    refine ⟨?_, Nat.lt_of_le_of_lt high (by decide)⟩
    rintro rfl
    exact absurd low (by decide)

theorem toLower_of_code {c : Char} (below : c.toNat < 'A'.toNat) : c.toLower = c := by
  unfold Char.toLower
  rw [dif_neg]
  rintro ⟨low, -⟩
  exact Nat.not_le.mpr below low

theorem not_spellsRoot_of_indexLike {parts : List (List Char)} (some : parts ≠ [])
    (like : ∀ part ∈ parts, IndexLike part) : ¬ SpellsRoot (['.'].intercalate parts) := by
  obtain ⟨part, rest, rfl⟩ := List.exists_cons_of_ne_nil some
  have first := like part List.mem_cons_self
  obtain ⟨c, cs, rfl⟩ := List.exists_cons_of_ne_nil first.nonempty
  obtain ⟨noPoint, below⟩ := code_of_indexLike first List.mem_cons_self
  obtain ⟨more, joined⟩ := Text.exists_intercalate_cons ['.'] (c :: cs) rest
  rw [joined, List.cons_append]
  -- The first character alone tells the text from every spelling of the root.
  rintro (empty | point | word)
  · cases empty
  · exact noPoint (List.head_eq_of_cons_eq point)
  · have letter : c.toLower = 'r' := List.head_eq_of_cons_eq word
    rw [toLower_of_code below] at letter
    rw [letter] at below
    exact absurd below (by decide)

theorem splitAt_of_indexLike {parts : List (List Char)} (some : parts ≠ [])
    (like : ∀ part ∈ parts, IndexLike part) :
    Text.splitAt '.' (['.'].intercalate parts) = parts :=
  Text.splitAt_intercalate some fun part mem point => (code_of_indexLike (like part mem) point).1 rfl

theorem readIndices_eq_ok_iff {s : String} {parts : List (List Char)} {is : List Nat} :
    readIndices s parts = .ok is ↔ List.Forall₂ (Number.Spells countLimit) parts is := by
  have pos : 0 < countLimit := by decide
  induction parts generalizing is with
  | nil =>
    rw [List.forall₂_nil_left_iff, readIndices, Except.ok.injEq, eq_comm]
  | cons part rest ih =>
    simp only [List.forall₂_cons_left_iff, ← Number.readNatural_eq_ok_iff pos, ← ih, readIndices]
    cases Number.readNatural countLimit part with
    | error e => simp
    | ok i =>
      cases readIndices s rest with
      | error e => simp [Except.map]
      | ok js => simp [Except.map, eq_comm]

theorem indexLike_of_forall₂ {parts : List (List Char)} {is : List Nat}
    (each : List.Forall₂ (Number.Spells countLimit) parts is) : ∀ part ∈ parts, IndexLike part := by
  induction each with
  | nil => exact fun part none => absurd none List.not_mem_nil
  | cons first _ ih => exact List.forall_mem_cons.mpr ⟨indexLike_of_spells first, ih⟩

theorem fits_of_forall₂ {parts : List (List Char)} {is : List Nat}
    (each : List.Forall₂ (Number.Spells countLimit) parts is) : Fits ⟨is⟩ := by
  induction each with
  | nil => exact fun i none => absurd none List.not_mem_nil
  | cons first _ ih => exact List.forall_mem_cons.mpr ⟨first.below, ih⟩

theorem fits_root : Fits .root := fun _ none => absurd none List.not_mem_nil

theorem Spells.fits {cs : List Char} {p : NodePath} (spells : Spells cs p) : p.Fits := by
  obtain spells | ⟨-, each⟩ := spells
  · exact fits_root
  · exact fits_of_forall₂ each

theorem spells_iff {cs : List Char} {p : NodePath} :
    Spells cs p ↔ (SpellsRoot cs ∧ p = .root) ∨
      (¬ SpellsRoot cs ∧
        List.Forall₂ (Number.Spells countLimit) (Text.splitAt '.' cs) p.indices) := by
  constructor
  · rintro (spells | ⟨some, each⟩)
    · exact .inl ⟨spells, rfl⟩
    · have like := indexLike_of_forall₂ each
      rw [splitAt_of_indexLike some like]
      exact .inr ⟨not_spellsRoot_of_indexLike some like, each⟩
  · rintro (⟨spells, rfl⟩ | ⟨-, each⟩)
    · exact .root spells
    · have spelled := Spells.indices (Text.splitAt_ne_nil '.' cs) each
      rwa [Text.intercalate_splitAt] at spelled

theorem parse_eq_ok_iff_spells {s : String} {p : NodePath} :
    parse s = .ok p ↔ Spells (Text.trimChars s.toList) p := by
  unfold parse
  generalize Text.trimChars s.toList = cs
  have decided : (cs.isEmpty || decide (cs = ['.']) ||
      Text.equalsIgnoringAsciiCase (String.ofList cs) "root") = true ↔ SpellsRoot cs := by
    simp [SpellsRoot, Text.equalsIgnoringAsciiCase, or_assoc]
  rw [spells_iff]
  dsimp only
  split
  next root =>
    have spells := decided.mp root
    simp only [spells, true_and, not_true_eq_false, false_and, or_false, Except.ok.injEq, eq_comm]
  next other =>
    have spells : ¬ SpellsRoot cs := fun root => other (decided.mpr root)
    rw [← readIndices_eq_ok_iff (s := s)]
    simp only [spells, false_and, not_false_eq_true, true_and, false_or]
    cases readIndices s (Text.splitAt '.' cs) with
    | error e => simp [Except.map]
    | ok is =>
      rw [Except.map, Except.ok.injEq, Except.ok.injEq]
      exact ⟨congrArg indices, congrArg mk⟩

/-- The paths that are read are exactly those that the trimmed text spells. -/
theorem parse_eq_ok_iff {s : String} {p : NodePath} :
    parse s = .ok p ↔ ∃ middle, Text.Trims s.toList middle ∧ Spells middle p := by
  simp only [Text.trims_iff, exists_eq_left', parse_eq_ok_iff_spells]

theorem toList_text {p : NodePath} (below : p ≠ .root) :
    p.text.toList = ['.'].intercalate (p.indices.map Number.digits) := by
  obtain ⟨is⟩ := p
  cases is with
  | nil => exact absurd rfl below
  | cons i rest =>
    rw [text, Text.toList_joinWith, List.map_map]
    refine congrArg _ (List.map_congr_left fun j _ => ?_)
    exact String.toList_ofList

theorem map_digits_ne_nil {p : NodePath} (below : p ≠ .root) : p.indices.map Number.digits ≠ [] := by
  obtain ⟨is⟩ := p
  rintro none
  rw [List.map_eq_nil_iff] at none
  exact below (congrArg mk none)

theorem canonical_text (p : NodePath) : Canonical p.text.toList := by
  by_cases below : p = .root
  · exact .inl (below ▸ rfl)
  · refine .inr ⟨_, map_digits_ne_nil below, ?_, toList_text below⟩
    intro part mem
    obtain ⟨i, -, rfl⟩ := List.mem_map.mp mem
    exact Number.canonical_digits i

theorem not_isBlank_of_isDigit {c : Char} (isDigit : c.isDigit = true) : Text.isBlank c = false := by
  obtain ⟨low, high⟩ := Char.isDigit_iff_toNat.mp isDigit
  change 48 ≤ _ at low
  change _ ≤ 57 at high
  simp only [Text.isBlank, Bool.or_eq_false_iff, Bool.and_eq_false_iff, beq_eq_false_iff_ne,
    decide_eq_false_iff_not]
  omega

/-- A canonical spelling holds no plus sign, no blank and nothing else but digits and points. -/
theorem Canonical.chars {cs : List Char} (canonical : Canonical cs) :
    ∀ c ∈ cs, c = '.' ∨ c.isDigit = true := by
  obtain rfl | ⟨parts, -, each, rfl⟩ := canonical
  · exact fun c mem => .inl (List.mem_singleton.mp mem)
  · intro c mem
    obtain point | ⟨part, inside, mem⟩ := Text.mem_intercalate mem
    · exact .inl (List.mem_singleton.mp point)
    · exact .inr ((each part inside).allDigits c mem)

theorem Canonical.tight {cs : List Char} (canonical : Canonical cs) : Text.Tight cs := by
  refine Text.tight_of_forall fun c mem => ?_
  obtain rfl | isDigit := canonical.chars c mem
  · decide
  · exact not_isBlank_of_isDigit isDigit

theorem Canonical.exists_text {cs : List Char} (canonical : Canonical cs) :
    ∃ p : NodePath, p.text.toList = cs := by
  obtain rfl | ⟨parts, some, each, rfl⟩ := canonical
  · exact ⟨.root, rfl⟩
  · -- The indices are the values of the parts, whether they fit or not.
    let p : NodePath := ⟨parts.map fun part => Nat.ofDigitChars 10 part 0⟩
    have below : p ≠ .root := fun none => some (List.map_eq_nil_iff.mp (congrArg indices none))
    have written : p.indices.map Number.digits = parts := by
      rw [List.map_map]
      exact (List.map_congr_left fun part mem => (each part mem).digits_ofDigitChars).trans
        (List.map_id parts)
    exact ⟨p, by rw [toList_text below, written]⟩

/-- The text of a path is read as that path, if its indices fit, and not at all otherwise. -/
theorem parse_text_eq_ok_iff {p q : NodePath} : parse p.text = .ok q ↔ p.Fits ∧ p = q := by
  rw [parse_eq_ok_iff_spells, (canonical_text p).tight.trimChars_eq, spells_iff]
  by_cases below : p = .root
  · subst below
    have point : SpellsRoot (text .root).toList := .inr (.inl rfl)
    simp only [point, fits_root, true_and, not_true_eq_false, false_and, or_false, eq_comm]
  · have some := map_digits_ne_nil below
    have like : ∀ part ∈ p.indices.map Number.digits, IndexLike part := by
      intro part mem
      obtain ⟨i, -, rfl⟩ := List.mem_map.mp mem
      exact indexLike_digits i
    have notRoot := not_spellsRoot_of_indexLike some like
    rw [toList_text below, splitAt_of_indexLike some like, List.forall₂_map_left_iff]
    simp only [notRoot, false_and, not_false_eq_true, true_and, false_or, Number.spells_digits_iff]
    rw [List.forall₂_and_left, List.forall₂_eq_eq_eq]
    exact Iff.and Iff.rfl ⟨congrArg mk, congrArg indices⟩

theorem parse_text {p : NodePath} (fits : p.Fits) : parse p.text = .ok p :=
  parse_text_eq_ok_iff.mpr ⟨fits, rfl⟩

theorem text_injective {p q : NodePath} (fits : p.Fits) (same : p.text = q.text) : p = q := by
  have read := parse_text fits
  rw [same] at read
  exact (parse_text_eq_ok_iff.mp read).2.symm

/-- A canonical spelling that is read is the text of what is read. -/
theorem Canonical.eq_text {s : String} {p : NodePath} (canonical : Canonical s.toList)
    (read : parse s = .ok p) : s = p.text := by
  obtain ⟨q, written⟩ := canonical.exists_text
  have same : q.text = s := String.toList_inj.mp written
  subst same
  rw [(parse_text_eq_ok_iff.mp read).2]

end AnalysisBrowser.NodePath
