import Mathlib.Data.List.Induction
import AnalysisBrowser.Number.Natural

/-!
# Decimal digits are read back

The digits of a number are ASCII digits without a leading zero, and a reader with a limit above the
number gets the number back from them. A reader accepts more than is ever written: leading zeros,
and one plus sign in front. What it accepts are the spellings of a number, and of those without a
sign only the digits of the number are canonical.
-/
namespace AnalysisBrowser.Number

theorem isDigit_of_mem_digits {n : Nat} {c : Char} (h : c ∈ digits n) : c.isDigit = true :=
  Nat.isDigit_of_mem_toDigits (by decide) (by decide) h

/-- Only zero has a leading zero. -/
theorem digits_of_pos {n : Nat} (h : 0 < n) : ∃ c rest, digits n = c :: rest ∧ c ≠ '0' := by
  induction n using Nat.base_induction 10 (by decide) with
  | single m small =>
    refine ⟨Nat.digitChar m, [], Nat.toDigits_of_lt_base small, fun zero => ?_⟩
    have := Nat.digitChar_eq_zero.mp zero
    omega
  | digit m k small pos ih =>
    obtain ⟨c, rest, first, nonzero⟩ := ih pos
    refine ⟨c, rest ++ Nat.toDigits 10 k, ?_, nonzero⟩
    rw [digits, ← Nat.toDigits_append_toDigits (by decide) pos small, ← digits, first,
      List.cons_append]

theorem digit?_eq_some_iff {c : Char} {d : Nat} :
    digit? c = some d ↔ c.isDigit = true ∧ c.toNat - '0'.toNat = d := by
  unfold digit?
  split
  next isDigit => simp [isDigit]
  next other => simp [other]

theorem lt_ten_of_isDigit {c : Char} (h : c.isDigit = true) : c.toNat - '0'.toNat < 10 := by
  obtain ⟨-, high⟩ := Char.isDigit_iff_toNat.mp h
  change _ ≤ '0'.toNat + 9 at high
  omega

theorem digitChar_of_isDigit {c : Char} (h : c.isDigit = true) :
    Nat.digitChar (c.toNat - '0'.toNat) = c := by
  obtain ⟨low, -⟩ := Char.isDigit_iff_toNat.mp h
  refine Char.toNat_inj.mp ?_
  rw [Nat.toNat_digitChar_of_lt_ten (lt_ten_of_isDigit h)]
  change '0'.toNat + _ = _
  omega

theorem le_ofDigitChars (value : Nat) (ds : List Char) : value ≤ Nat.ofDigitChars 10 ds value := by
  induction ds generalizing value with
  | nil => exact Nat.le_of_eq Nat.ofDigitChars_nil.symm
  | cons c rest ih =>
    rw [Nat.ofDigitChars_cons]
    have := ih (10 * value + (c.toNat - '0'.toNat))
    omega

/-- Digits are read as their value, if that is below the limit. No reading on the way to it can go
over the limit and come back, since the value only grows. -/
theorem readDigits_eq_ok_iff {limit value n : Nat} {ds : List Char} (below : value < limit) :
    readDigits limit value ds = .ok n ↔
      (∀ c ∈ ds, c.isDigit = true) ∧ Nat.ofDigitChars 10 ds value = n ∧ n < limit := by
  induction ds generalizing value with
  | nil =>
    rw [readDigits_nil, Nat.ofDigitChars_nil, Except.ok.injEq]
    constructor
    · rintro rfl
      exact ⟨fun c none => absurd none List.not_mem_nil, rfl, below⟩
    · rintro ⟨-, same, -⟩
      exact same
  | cons c rest ih =>
    rw [readDigits, List.forall_mem_cons, Nat.ofDigitChars_cons, Nat.mul_comm 10 value]
    split
    next other =>
      have other : c.isDigit ≠ true := fun isDigit => by
        rw [digit?, if_pos isDigit] at other
        cases other
      constructor
      · rintro ⟨⟩
      · rintro ⟨⟨isDigit, -⟩, -⟩
        exact absurd isDigit other
    next d found =>
      obtain ⟨isDigit, rfl⟩ := digit?_eq_some_iff.mp found
      split
      next fits => rw [ih fits, and_assoc, and_iff_right isDigit]
      next large =>
        constructor
        · rintro ⟨⟩
        · rintro ⟨-, same, fits⟩
          have := le_ofDigitChars (value * 10 + (c.toNat - '0'.toNat)) rest
          omega

/-- Digits, at least one, that stand for a number below the limit. -/
structure Numeral (limit : Nat) (ds : List Char) (n : Nat) : Prop where
  nonempty : ds ≠ []
  allDigits : ∀ c ∈ ds, c.isDigit = true
  value : Nat.ofDigitChars 10 ds 0 = n
  below : n < limit

/-- The spellings of a number below the limit: a numeral, perhaps behind a plus sign. -/
def Spells (limit : Nat) (cs : List Char) (n : Nat) : Prop :=
  Numeral limit cs n ∨ ∃ ds, cs = '+' :: ds ∧ Numeral limit ds n

theorem Spells.below {limit n : Nat} {cs : List Char} (spells : Spells limit cs n) : n < limit := by
  obtain numeral | ⟨ds, -, numeral⟩ := spells
  · exact numeral.below
  · exact numeral.below

theorem readDigits_eq_ok_iff_numeral {limit n : Nat} {ds : List Char} (pos : 0 < limit)
    (nonempty : ds ≠ []) : readDigits limit 0 ds = .ok n ↔ Numeral limit ds n := by
  rw [readDigits_eq_ok_iff pos]
  constructor
  · rintro ⟨digits, value, below⟩
    exact ⟨nonempty, digits, value, below⟩
  · intro numeral
    exact ⟨numeral.allDigits, numeral.value, numeral.below⟩

theorem Numeral.head_ne_plus {limit n : Nat} {ds : List Char} (numeral : Numeral limit ds n)
    (rest : List Char) : ds ≠ '+' :: rest := by
  rintro rfl
  have := numeral.allDigits '+' List.mem_cons_self
  contradiction

theorem readNatural_plus {limit : Nat} {ds : List Char} (nonempty : ds ≠ []) :
    readNatural limit ('+' :: ds) = readDigits limit 0 ds := by
  cases ds with
  | nil => exact absurd rfl nonempty
  | cons c rest => rfl

theorem readNatural_of_head_ne_plus {limit : Nat} {cs : List Char}
    (first : ∀ rest, cs ≠ '+' :: rest) (nonempty : cs ≠ []) :
    readNatural limit cs = readDigits limit 0 cs := by
  fun_cases readNatural limit cs with
  | case1 => exact absurd rfl nonempty
  | case2 => exact absurd rfl (first [])
  | case3 rest => exact absurd rfl (first rest)
  | case4 => rfl

/-- What is read as a number is exactly what spells one. -/
theorem readNatural_eq_ok_iff {limit n : Nat} {cs : List Char} (pos : 0 < limit) :
    readNatural limit cs = .ok n ↔ Spells limit cs n := by
  constructor
  · fun_cases readNatural limit cs with
    | case1 => nofun
    | case2 => nofun
    | case3 rest some =>
      intro read
      have nonempty : rest ≠ [] := some
      exact .inr ⟨rest, rfl, (readDigits_eq_ok_iff_numeral pos nonempty).mp read⟩
    | case4 =>
      rename_i nonempty _ _
      intro read
      exact .inl ((readDigits_eq_ok_iff_numeral pos nonempty).mp read)
  · rintro (numeral | ⟨ds, rfl, numeral⟩)
    · rw [readNatural_of_head_ne_plus numeral.head_ne_plus numeral.nonempty]
      exact (readDigits_eq_ok_iff_numeral pos numeral.nonempty).mpr numeral
    · rw [readNatural_plus numeral.nonempty]
      exact (readDigits_eq_ok_iff_numeral pos numeral.nonempty).mpr numeral

/-- Digits as a number is written: at least one, and no zero in front of another. -/
structure Canonical (ds : List Char) : Prop where
  nonempty : ds ≠ []
  allDigits : ∀ c ∈ ds, c.isDigit = true
  leading : ds.head? = some '0' → ds = ['0']

theorem canonical_digits (n : Nat) : Canonical (digits n) where
  nonempty := Nat.toDigits_ne_nil
  allDigits _ := isDigit_of_mem_digits
  leading zero := by
    obtain rfl | pos := Nat.eq_zero_or_pos n
    · rfl
    · obtain ⟨c, rest, first, nonzero⟩ := digits_of_pos pos
      rw [first, List.head?_cons, Option.some.injEq] at zero
      exact absurd zero nonzero

theorem numeral_digits {limit n : Nat} (below : n < limit) : Numeral limit (digits n) n where
  nonempty := Nat.toDigits_ne_nil
  allDigits _ := isDigit_of_mem_digits
  value := Nat.ofDigitChars_ten_toDigits
  below := below

/-- A number below the limit is read back from its digits. -/
theorem readDigits_digits {limit n : Nat} (h : n < limit) :
    readDigits limit 0 (digits n) = .ok n :=
  (readDigits_eq_ok_iff_numeral (Nat.zero_lt_of_lt h) Nat.toDigits_ne_nil).mpr (numeral_digits h)

/-- The digits of a number spell it and nothing else, if it is below the limit. -/
theorem spells_digits_iff {limit m n : Nat} : Spells limit (digits m) n ↔ m < limit ∧ m = n := by
  constructor
  · rintro (numeral | ⟨ds, signed, -⟩)
    · have same : m = n := Nat.ofDigitChars_ten_toDigits.symm.trans numeral.value
      exact ⟨same ▸ numeral.below, same⟩
    · have : '+' ∈ digits m := signed ▸ List.mem_cons_self
      exact absurd (isDigit_of_mem_digits this) (by decide)
  · rintro ⟨below, rfl⟩
    exact .inl (numeral_digits below)

/-- The front of canonical digits is canonical, and is not zero. -/
theorem Canonical.front {ds : List Char} {c : Char} (canonical : Canonical (ds ++ [c]))
    (nonempty : ds ≠ []) : Canonical ds ∧ ds ≠ ['0'] := by
  have nonzero : ds.head? ≠ some '0' := by
    intro zero
    have alone := canonical.leading (by rw [List.head?_append, zero, Option.some_or])
    have lengths := congrArg List.length alone
    have := List.length_pos_iff.mpr nonempty
    simp only [List.length_append, List.length_cons, List.length_nil] at lengths
    omega
  refine ⟨⟨nonempty, fun d mem => canonical.allDigits d (List.mem_append_left _ mem), ?_⟩, ?_⟩
  · intro zero
    exact absurd zero nonzero
  · rintro rfl
    exact nonzero rfl

/-- Canonical digits are those of the number they stand for. -/
theorem Canonical.digits_ofDigitChars {ds : List Char} (canonical : Canonical ds) :
    digits (Nat.ofDigitChars 10 ds 0) = ds := by
  induction ds using List.reverseRecOn with
  | nil => exact absurd rfl canonical.nonempty
  | append_singleton front c ih =>
    have isDigit := canonical.allDigits c (List.mem_append_right _ List.mem_cons_self)
    have small := lt_ten_of_isDigit isDigit
    have last := digitChar_of_isDigit isDigit
    rw [Nat.ofDigitChars_append, Nat.ofDigitChars_cons, Nat.ofDigitChars_nil]
    by_cases alone : front = []
    · subst alone
      rw [Nat.ofDigitChars_nil, Nat.mul_zero, Nat.zero_add, digits,
        Nat.toDigits_of_lt_base small, last, List.nil_append]
    · obtain ⟨front_canonical, nonzero⟩ := canonical.front alone
      have same := ih front_canonical
      have pos : 0 < Nat.ofDigitChars 10 front 0 := by
        refine Nat.pos_of_ne_zero fun zero => nonzero ?_
        rw [← same, zero]
        rfl
      rw [digits, ← Nat.toDigits_append_toDigits (by decide) pos small,
        Nat.toDigits_of_lt_base small, last, ← digits, same]

end AnalysisBrowser.Number
