import AnalysisBrowser.Proofs.Json.Grammar
import AnalysisBrowser.Proofs.Number.Digits

/-!
# White space, words, numbers and strings are read

The parts of a JSON text that have no parts themselves. Each is read from any of its texts with
whatever may follow a value behind it: a number ends where something stands that no number has, and
a string at the first quote that is not part of an escape.
-/
namespace AnalysisBrowser.Json

open Number (Literal)
open Text (isLeadUnit isTrailUnit)

theorem skipGap_of_not_gap {c : Char} (h : isGap c = false) (p : Position) (rest : List Char) :
    skipGap p (c :: rest) = ⟨p, c :: rest⟩ := by
  rw [skipGap, h]
  rfl

theorem skipGap_append {gap : List Char} (blank : Gap gap) (p : Position) (rest : List Char) :
    skipGap p (gap ++ rest) = skipGap (p.afterAll gap) rest := by
  induction gap generalizing p with
  | nil => rfl
  | cons c gap ih =>
    obtain ⟨first, later⟩ := List.forall_mem_cons.mp blank
    rw [List.cons_append, skipGap, if_pos first, ih later]
    rfl

/-- White space is passed over up to the first character that is none. -/
theorem skipGap_append_cons {gap : List Char} {c : Char} (blank : Gap gap) (ends : isGap c = false)
    (p : Position) (rest : List Char) :
    skipGap p (gap ++ c :: rest) = ⟨p.afterAll gap, c :: rest⟩ := by
  rw [skipGap_append blank, skipGap_of_not_gap ends]

theorem skipGap_append_nil {gap : List Char} (blank : Gap gap) (p : Position) :
    skipGap p gap = ⟨p.afterAll gap, []⟩ := by
  have all := skipGap_append blank p []
  rw [List.append_nil] at all
  rw [all, skipGap]

theorem readWord_append (p : Position) (word rest : List Char) :
    ∃ q, readWord p word (word ++ rest) = .ok ⟨q, rest⟩ := by
  induction word generalizing p with
  | nil => exact ⟨p, by cases rest <;> rfl⟩
  | cons w word ih =>
    obtain ⟨q, read⟩ := ih (p.right 1)
    exact ⟨q, by rw [List.cons_append, readWord, if_pos rfl, read]⟩

/-- What follows starts with no digit. -/
def NoDigit (rest : List Char) : Prop := ∀ c ∈ rest.head?, c.isDigit = false

/-- What follows starts with nothing that continues a number. -/
def NoNumber (rest : List Char) : Prop :=
  ∀ c ∈ rest.head?, c.isDigit = false ∧ c ≠ '.' ∧ c ≠ 'e' ∧ c ≠ 'E'

theorem noNumber_nil : NoNumber [] := nofun

theorem noNumber_cons {c : Char} (rest : List Char)
    (ends : c.isDigit = false ∧ c ≠ '.' ∧ c ≠ 'e' ∧ c ≠ 'E') : NoNumber (c :: rest) := by
  rintro d ⟨⟩
  exact ends

/-- White space ends a number. -/
theorem noNumber_gap {gap rest : List Char} (blank : Gap gap) (ends : NoNumber rest) :
    NoNumber (gap ++ rest) := by
  cases gap with
  | nil => exact ends
  | cons c gap =>
    have first := blank c List.mem_cons_self
    rw [isGap, Bool.or_eq_true, Bool.or_eq_true, Bool.or_eq_true] at first
    simp only [decide_eq_true_eq] at first
    refine noNumber_cons _ ?_
    rcases first with ((rfl | rfl) | rfl) | rfl <;> decide

theorem NoNumber.noDigit {rest : List Char} (h : NoNumber rest) : NoDigit rest :=
  fun c first => (h c first).1

theorem spanDigits_append {ds rest : List Char} (digits : ∀ c ∈ ds, c.isDigit = true)
    (ends : NoDigit rest) : spanDigits (ds ++ rest) = (ds, rest) := by
  induction ds with
  | nil =>
    cases rest with
    | nil => rfl
    | cons c rest => rw [List.nil_append, spanDigits, ends c rfl, if_neg Bool.false_ne_true]
  | cons d ds ih =>
    rw [List.cons_append, spanDigits, if_pos (digits d List.mem_cons_self),
      ih fun c mem => digits c (List.mem_cons_of_mem d mem)]

theorem readWhole_append {ds rest : List Char} (p : Position)
    (whole : ds = ['0'] ∨ ∃ c more, ds = c :: more ∧ c ≠ '0')
    (digits : ∀ c ∈ ds, c.isDigit = true) (ends : NoDigit rest) :
    readWhole p (ds ++ rest) = .ok (ds, ⟨p.right ds.length, rest⟩) := by
  have span := spanDigits_append digits ends
  rcases whole with rfl | ⟨c, more, rfl, nonzero⟩
  · cases rest with
    | nil => rfl
    | cons d rest =>
      rw [List.singleton_append, readWhole, ends d rfl, if_neg Bool.false_ne_true]
      rfl
  · rw [List.cons_append] at span ⊢
    rw [readWhole, span]
    intro d later same
    exact nonzero (List.cons.inj same).1

theorem readFraction_append {ds rest : List Char} (p : Position)
    (digits : ∀ c ∈ ds, c.isDigit = true) (ends : NoDigit rest) (noPoint : '.' ∉ rest.head?) :
    ∃ q, readFraction ⟨p, (if ds.isEmpty then [] else '.' :: ds) ++ rest⟩ =
      .ok (ds, ⟨q, rest⟩) := by
  unfold readFraction
  cases ds with
  | nil =>
    refine ⟨p, ?_⟩
    rw [List.isEmpty_nil, if_pos rfl, List.nil_append]
    split
    next cs point =>
      obtain rfl : rest = '.' :: cs := point
      exact (noPoint rfl).elim
    next => rfl
  | cons d ds =>
    refine ⟨(p.right 1).right (d :: ds).length, ?_⟩
    simp only [List.isEmpty_cons, Bool.false_eq_true, if_false, List.cons_append]
    rw [← List.cons_append, spanDigits_append digits ends]

theorem readSign_append {sign ds : List Char} {negative : Bool} (p : Position) (rest : List Char)
    (signed : sign = (if negative then ['-'] else []) ∨ negative = false ∧ sign = ['+'])
    (some : ds ≠ []) (digits : ∀ c ∈ ds, c.isDigit = true) :
    ∃ q, readSign p (sign ++ (ds ++ rest)) = (negative, ⟨q, ds ++ rest⟩) := by
  rcases signed with rfl | ⟨rfl, rfl⟩
  · cases negative with
    | true => exact ⟨_, rfl⟩
    | false =>
      refine ⟨p, ?_⟩
      obtain ⟨d, ds, rfl⟩ := List.exists_cons_of_ne_nil some
      have digit := digits d List.mem_cons_self
      rw [if_neg Bool.false_ne_true, List.nil_append, List.cons_append]
      unfold readSign
      split
      next plus => exact absurd (digit.symm.trans (by rw [(List.cons.inj plus).1])) (by decide)
      next minus => exact absurd (digit.symm.trans (by rw [(List.cons.inj minus).1])) (by decide)
      next => rfl
  · exact ⟨_, rfl⟩

theorem readPower_append {e : Number.Exponent} {sign rest : List Char} (p : Position)
    (signed : sign = (if e.negative then ['-'] else []) ∨ e.negative = false ∧ sign = ['+'])
    (nonempty : e.digits ≠ []) (digits : ∀ c ∈ e.digits, c.isDigit = true) (ends : NoDigit rest) :
    ∃ q, readPower p (sign ++ (e.digits ++ rest)) = .ok (some e, ⟨q, rest⟩) := by
  obtain ⟨q, read⟩ := readSign_append p rest signed nonempty digits
  refine ⟨q.right e.digits.length, ?_⟩
  simp only [readPower, read, spanDigits_append digits ends]

theorem readExponent_append {exponent : Option Number.Exponent} {power rest : List Char}
    (p : Position) (spelled : ExponentSpelled exponent power)
    (wellFormed : ∀ e, exponent = some e → e.digits ≠ [] ∧ ∀ c ∈ e.digits, c.isDigit = true)
    (ends : NoNumber rest) :
    ∃ q, readExponent ⟨p, power ++ rest⟩ = .ok (exponent, ⟨q, rest⟩) := by
  unfold readExponent
  cases spelled with
  | none =>
    refine ⟨p, ?_⟩
    rw [List.nil_append]
    split
    next cs mark =>
      obtain rfl : rest = 'e' :: cs := mark
      exact ((ends 'e' rfl).2.2.1 rfl).elim
    next cs mark =>
      obtain rfl : rest = 'E' :: cs := mark
      exact ((ends 'E' rfl).2.2.2 rfl).elim
    next => rfl
  | @power e mark sign marked signed =>
    obtain ⟨nonempty, digits⟩ := wellFormed e rfl
    obtain ⟨q, read⟩ := readPower_append (p.right 1) signed nonempty digits ends.noDigit
    refine ⟨q, ?_⟩
    rw [List.cons_append, List.append_assoc]
    rcases marked with rfl | rfl <;> exact read

/-- An exponent ends the digits before it. -/
theorem noDigit_exponent {exponent : Option Number.Exponent} {power rest : List Char}
    (spelled : ExponentSpelled exponent power) (ends : NoNumber rest) : NoDigit (power ++ rest) := by
  cases spelled with
  | none => exact ends.noDigit
  | power marked signed =>
    rintro c ⟨⟩
    rcases marked with rfl | rfl <;> decide

theorem noPoint_exponent {exponent : Option Number.Exponent} {power rest : List Char}
    (spelled : ExponentSpelled exponent power) (ends : NoNumber rest) :
    '.' ∉ (power ++ rest).head? := by
  cases spelled with
  | none => exact fun point => (ends '.' point).2.1 rfl
  | power marked signed =>
    rintro ⟨⟩
    rcases marked with point | point <;> cases point

theorem noDigit_fraction {rest : List Char} (ends : NoDigit rest) (ds : List Char) :
    NoDigit ((if ds.isEmpty then [] else '.' :: ds) ++ rest) := by
  cases ds with
  | nil => exact ends
  | cons d ds =>
    rintro c ⟨⟩
    decide

/-- A well-formed literal is read after its sign. -/
theorem readNumber_append {l : Literal} {power rest : List Char} (p : Position)
    (wellFormed : l.WellFormed) (spelled : ExponentSpelled l.exponent power) (ends : NoNumber rest) :
    ∃ q, readNumber l.negative p (l.whole ++
        ((if l.fraction.isEmpty then [] else '.' :: l.fraction) ++ (power ++ rest))) =
      .ok (l, ⟨q, rest⟩) := by
  have afterFraction := noDigit_exponent spelled ends
  have whole := readWhole_append p wellFormed.whole wellFormed.wholeDigits
    (noDigit_fraction afterFraction l.fraction)
  obtain ⟨q, fraction⟩ := readFraction_append (p.right l.whole.length) wellFormed.fractionDigits
    afterFraction (noPoint_exponent spelled ends)
  obtain ⟨r, exponent⟩ := readExponent_append q spelled wellFormed.exponent ends
  refine ⟨r, ?_⟩
  simp only [readNumber, whole, fraction, exponent]

theorem ne_of_isDigit {c d : Char} (digit : c.isDigit = true) (other : d.isDigit = false) :
    c ≠ d := by
  rintro rfl
  rw [digit] at other
  cases other

theorem isGap_of_isDigit {c : Char} (digit : c.isDigit = true) : isGap c = false := by
  have other {d : Char} (h : d.isDigit = false) : c ≠ d := ne_of_isDigit digit h
  simp only [isGap, other (show ' '.isDigit = false by decide),
    other (show '\n'.isDigit = false by decide), other (show '\t'.isDigit = false by decide),
    other (show '\r'.isDigit = false by decide), decide_false, Bool.or_self]

theorem exists_digit {l : Literal} (wellFormed : l.WellFormed) :
    ∃ c rest, l.whole = c :: rest ∧ c.isDigit = true := by
  rcases wellFormed.whole with zero | ⟨c, rest, first, -⟩
  · exact ⟨'0', [], zero, by decide⟩
  · exact ⟨c, rest, first, wellFormed.wholeDigits c (first ▸ List.mem_cons_self)⟩

theorem readScalar_digit {c : Char} (p : Position) (rest : List Char) (digit : c.isDigit = true) :
    readScalar p (c :: rest) =
      match readNumber false p (c :: rest) with
      | .error broke => (.broken .other p broke, none)
      | .ok (l, after) => (.scalar p after.position (.number l), some after) := by
  rw [readScalar]
  · exact if_pos digit
  all_goals exact ne_of_isDigit digit (by decide)

theorem readScalar_number {l : Literal} {cs rest : List Char} (p : Position)
    (spelled : NumberSpelled l cs) (ends : NoNumber rest) :
    ∃ q, readScalar p (cs ++ rest) = (.scalar p q (.number l), some ⟨q, rest⟩) := by
  obtain ⟨wellFormed, exponent⟩ := spelled
  rw [List.append_assoc, List.append_assoc, List.append_assoc]
  cases sign : l.negative with
  | true =>
    obtain ⟨q, number⟩ := readNumber_append (p.right 1) wellFormed exponent ends
    rw [sign] at number
    refine ⟨q, ?_⟩
    simp only [if_true, List.singleton_append, readScalar, number]
  | false =>
    obtain ⟨q, number⟩ := readNumber_append p wellFormed exponent ends
    rw [sign] at number
    obtain ⟨c, more, first, digit⟩ := exists_digit wellFormed
    refine ⟨q, ?_⟩
    rw [first, List.cons_append] at number
    rw [if_neg Bool.false_ne_true, List.nil_append, first, List.cons_append,
      readScalar_digit p _ digit, number]

theorem readMarks_append {m : Mark} {cs : List Char} (p : Position) (more : List Char)
    (spelled : MarkSpelled m cs) :
    ∃ q, readMarks p (cs ++ more) = (⟨m, q⟩ :: (readMarks q more).1, (readMarks q more).2) := by
  cases spelled with
  | @plain c quote backslash printed =>
    refine ⟨p.after c, ?_⟩
    rw [List.singleton_append, readMarks]
    · rw [if_neg printed]
    · exact quote
    · exact fun same _ => backslash same
    · exact fun _ _ _ _ _ same _ => backslash same
    · exact fun _ same _ => backslash same
    · exact fun _ _ same _ => backslash same
  | @short e c escape =>
    refine ⟨p.right 2, ?_⟩
    unfold shortEscape? at escape
    split at escape <;> cases escape <;> rfl
  | @unit a b c d code hex =>
    refine ⟨p.right 6, ?_⟩
    simp only [List.cons_append, List.nil_append]
    rw [readMarks, hex]

theorem readMarks_closed {ms : List Mark} {body : List Char} (p : Position) (rest : List Char)
    (spelled : MarksSpelled ms body) :
    ∃ marks q, readMarks p (body ++ '"' :: rest) = (marks, .closed q rest) ∧
      marks.map PlacedMark.mark = ms := by
  induction spelled generalizing p with
  | nil => exact ⟨[], p.right 1, rfl, rfl⟩
  | @cons m ms cs body first later ih =>
    obtain ⟨q, one⟩ := readMarks_append p (body ++ '"' :: rest) first
    obtain ⟨marks, r, read, same⟩ := ih q
    refine ⟨⟨m, q⟩ :: marks, r, ?_, ?_⟩
    · rw [List.append_assoc, one, read]
    · rw [List.map_cons, same]

/-- The text of a string without a flaw. -/
def soundText (read : List Char × Option Fault) : Option (List Char) :=
  match read.2 with
  | none => some read.1
  | some _ => none

theorem soundText_cons (c : Char) (read : List Char × Option Fault) :
    soundText (c :: read.1, read.2) = (soundText read).map (c :: ·) := by
  obtain ⟨cs, flaw⟩ := read
  cases flaw <;> rfl

/-- The reader puts a string together as its elements say. A leading surrogate looks one element
ahead, so the recursion passes over two. -/
theorem soundText_assemble (after : Position) (rest : List Char) :
    ∀ marks : List PlacedMark, soundText (assemble (.closed after rest) none marks) =
      marksText? (marks.map PlacedMark.mark)
  | [] => rfl
  | ⟨.plain c, _⟩ :: marks => by
    rw [assemble, List.map_cons, marksText?, ← soundText_assemble after rest marks]
    exact soundText_cons c _
  | ⟨.short c, _⟩ :: marks => by
    rw [assemble, List.map_cons, marksText?, ← soundText_assemble after rest marks]
    exact soundText_cons c _
  | ⟨.unit n, _⟩ :: marks => by
    rw [assemble, List.map_cons]
    unfold marksText?
    simp only
    cases isTrailUnit n with
    | true => rfl
    | false =>
      cases isLeadUnit n with
      | false =>
        simp only [Bool.false_eq_true, if_false]
        rw [← soundText_assemble after rest marks]
        exact soundText_cons _ _
      | true =>
        simp only [Bool.false_eq_true, if_false, if_true]
        match marks with
        | [] => rfl
        | ⟨.plain _, _⟩ :: _ => rfl
        | ⟨.short _, _⟩ :: _ => rfl
        | ⟨.unit m, _⟩ :: more =>
          rw [assemble]
          simp only [List.map_cons]
          cases isTrailUnit m with
          | false => rfl
          | true =>
            simp only [if_true]
            rw [← soundText_assemble after rest more]
            exact soundText_cons _ _

/-- A string is read after its opening quote, up to its closing one. -/
theorem readString_append {ms : List Mark} {body : List Char} (p : Position) (rest : List Char)
    (spelled : MarksSpelled ms body) :
    ∃ s flaw q, readString p (body ++ '"' :: rest) = .ok ⟨s, flaw, ⟨q, rest⟩⟩ ∧
      (marksText? ms).map String.ofList = if flaw.isNone then some s else none := by
  obtain ⟨marks, q, read, same⟩ := readMarks_closed p rest spelled
  have text := soundText_assemble q rest marks
  refine ⟨_, _, q, by rw [readString, read], ?_⟩
  rw [← same, ← text, soundText]
  cases (assemble (.closed q rest) none marks).2 <;> rfl

end AnalysisBrowser.Json
