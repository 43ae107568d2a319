import AnalysisBrowser.Proofs.Number.Digits
import AnalysisBrowser.Text.Quoted

/-!
# Texts without hidden characters

Line breaks, the escape character and all others without a shape of their own are hidden. The digits
of a number show, and whatever a text holds, nothing is hidden once it stands between quotes.
-/
namespace AnalysisBrowser.Text

/-- A text in which every character shows. -/
def Shown (s : String) : Prop := s.toList.any isHidden = false

instance (s : String) : Decidable (Shown s) :=
  inferInstanceAs (Decidable (s.toList.any isHidden = false))

theorem shown_iff {s : String} : Shown s ↔ ∀ c ∈ s.toList, isHidden c = false := by
  simp only [Shown, List.any_eq_false, Bool.not_eq_true]

theorem Shown.notMem {s : String} {c : Char} (shown : Shown s) (hidden : isHidden c = true) :
    c ∉ s.toList := by
  intro mem
  rw [shown_iff.mp shown c mem] at hidden
  cases hidden

theorem Shown.count_eq_zero {s : String} {c : Char} (shown : Shown s) (hidden : isHidden c = true) :
    s.toList.count c = 0 :=
  List.count_eq_zero.mpr (shown.notMem hidden)

@[simp] theorem shown_append {s t : String} : Shown (s ++ t) ↔ Shown s ∧ Shown t := by
  rw [Shown, String.toList_append, List.any_append, Bool.or_eq_false_iff, Shown, Shown]

theorem shown_ofList {cs : List Char} : Shown (String.ofList cs) ↔ cs.any isHidden = false := by
  rw [Shown, String.toList_ofList]

theorem mem_toDigits {base : Nat} (two : 1 < base) (n : Nat) :
    ∀ c ∈ Nat.toDigits base n, ∃ d < base, c = Nat.digitChar d := by
  induction n using Nat.base_induction base two with
  | single d small =>
    intro c mem
    rw [Nat.toDigits_of_lt_base small] at mem
    exact ⟨d, small, List.mem_singleton.mp mem⟩
  | digit k d small pos ih =>
    intro c mem
    rw [← Nat.toDigits_append_toDigits two pos small, Nat.toDigits_of_lt_base small] at mem
    rcases List.mem_append.mp mem with mem | mem
    · exact ih c mem
    · exact ⟨d, small, List.mem_singleton.mp mem⟩

theorem isHidden_digitChar : ∀ d < 16, isHidden (Nat.digitChar d) = false := by decide

theorem any_isHidden_toDigits {base : Nat} (two : 1 < base) (small : base ≤ 16) (n : Nat) :
    (Nat.toDigits base n).any isHidden = false := by
  refine List.any_eq_false.mpr fun c mem => ?_
  obtain ⟨d, digit, rfl⟩ := mem_toDigits two n c mem
  exact Bool.eq_false_iff.mp (isHidden_digitChar d (Nat.lt_of_lt_of_le digit small))

theorem shown_decimal (n : Nat) : Shown (Number.decimal n) :=
  shown_ofList.mpr (any_isHidden_toDigits (by decide) (by decide) n)

/-- Six characters are written with a letter or sign of their own, the hidden ones by number. -/
theorem any_isHidden_quoteChar (c : Char) : (quoteChar c).any isHidden = false := by
  unfold quoteChar
  split
  iterate 6 decide
  split
  · have opens : ['\\', 'u', '\x7b'].any isHidden = false := by decide
    have closes : ['\x7d'].any isHidden = false := by decide
    have digits : (hexDigits c.toNat).any isHidden = false :=
      any_isHidden_toDigits (by decide) (by decide) c.toNat
    rw [List.any_append, List.any_append, opens, digits, closes]
    rfl
  next shown => rw [List.any_cons, List.any_nil, Bool.or_false, Bool.eq_false_iff.mpr shown]

theorem shown_quoted (s : String) : Shown (quoted s) := by
  have quote : ['"'].any isHidden = false := by decide
  have inside : (s.toList.flatMap quoteChar).any isHidden = false := by
    rw [List.any_flatMap]
    exact List.any_eq_false.mpr fun c _ => Bool.eq_false_iff.mp (any_isHidden_quoteChar c)
  refine shown_ofList.mpr ?_
  rw [List.any_append, List.any_append, quote, inside]
  rfl

end AnalysisBrowser.Text
