import AnalysisBrowser.Text.Styled

/-!
# Painting sequences

An escape character, an opening bracket, digits and semicolons and the letter m: terminals take such
a sequence for paint and not for text. A page without escape characters in its texts is rendered
with colour as the same characters in the same order, with nothing but such sequences between them.
-/
namespace AnalysisBrowser.Text

/-- The rest of a text behind digits and semicolons and the letter that ends them. -/
def behindCodes? : List Char → Option (List Char)
  | [] => none
  | c :: rest =>
    if c = 'm' then some rest else if c.isDigit || c == ';' then behindCodes? rest else none

/-- The rest of a text behind a painting sequence, if the text begins with one. -/
def behindSequence? : List Char → Option (List Char)
  | '\x1b' :: '[' :: rest => behindCodes? rest
  | _ => none

theorem length_behindCodes? {cs rest : List Char} (behind : behindCodes? cs = some rest) :
    rest.length < cs.length := by
  induction cs with
  | nil => cases behind
  | cons c cs ih =>
    unfold behindCodes? at behind
    split at behind
    · cases behind
      exact Nat.lt_succ_self _
    · split at behind
      · exact Nat.lt_succ_of_lt (ih behind)
      · cases behind

theorem length_behindSequence? {cs rest : List Char} (behind : behindSequence? cs = some rest) :
    rest.length < cs.length := by
  unfold behindSequence? at behind
  split at behind
  · have shorter := length_behindCodes? behind
    simp only [List.length_cons]
    omega
  · cases behind

/-- The text without its painting sequences. -/
def dropSequences : List Char → List Char
  | [] => []
  | c :: rest =>
    match _behind : behindSequence? (c :: rest) with
    | some onward => dropSequences onward
    | none => c :: dropSequences rest
termination_by cs => cs.length
decreasing_by
  · exact length_behindSequence? (by assumption)
  · exact Nat.lt_succ_self _

/-- A text without its painting sequences. -/
def stripped (s : String) : String := String.ofList (dropSequences s.toList)

theorem dropSequences_of_behind {cs rest : List Char} (behind : behindSequence? cs = some rest) :
    dropSequences cs = dropSequences rest := by
  cases cs with
  | nil => cases behind
  | cons c cs =>
    rw [dropSequences]
    split
    · rename_i onward found
      rw [Option.some.inj (found.symm.trans behind)]
    · rename_i none
      rw [none] at behind
      cases behind

/-- A character that does not begin a sequence stays. -/
theorem dropSequences_cons {c : Char} (plain : c ≠ '\x1b') (rest : List Char) :
    dropSequences (c :: rest) = c :: dropSequences rest := by
  rw [dropSequences]
  split
  · rename_i onward found
    unfold behindSequence? at found
    split at found
    · rename_i same
      cases same
      exact absurd rfl plain
    · cases found
  · rfl

/-- Text without an escape character stays, whatever follows. -/
theorem dropSequences_append {text : List Char} (plain : '\x1b' ∉ text) (rest : List Char) :
    dropSequences (text ++ rest) = text ++ dropSequences rest := by
  induction text with
  | nil => rfl
  | cons c text ih =>
    have first : c ≠ '\x1b' := Ne.symm (List.ne_of_not_mem_cons plain)
    have others := ih (List.not_mem_of_not_mem_cons plain)
    rw [List.cons_append, dropSequences_cons first, others, List.cons_append]

theorem behindCodes?_append {codes : List Char}
    (all : ∀ c ∈ codes, c ≠ 'm' ∧ (c.isDigit || c == ';') = true) (rest : List Char) :
    behindCodes? (codes ++ 'm' :: rest) = some rest := by
  induction codes with
  | nil => rfl
  | cons c codes ih =>
    have first := all c List.mem_cons_self
    have others := ih fun d mem => all d (List.mem_cons_of_mem c mem)
    rw [List.cons_append, behindCodes?, if_neg first.1, if_pos first.2, others]

theorem code_digits (p : Paint) :
    ∀ c ∈ p.code.toList, c ≠ 'm' ∧ (c.isDigit || c == ';') = true := by
  have all : (p.code.toList.all fun c => c != 'm' && (c.isDigit || c == ';')) = true := by
    cases p <;> decide
  intro c mem
  have digit := List.all_eq_true.mp all c mem
  rw [Bool.and_eq_true, bne_iff_ne] at digit
  exact digit

theorem joinCodes_digits (paints : List Paint) :
    ∀ c ∈ joinCodes paints, c ≠ 'm' ∧ (c.isDigit || c == ';') = true := by
  fun_induction joinCodes paints with
  | case1 =>
    intro c mem
    cases mem
  | case2 p => exact code_digits p
  | case3 p rest _ ih =>
    intro c mem
    rcases List.mem_append.mp mem with mem | mem
    · exact code_digits p c mem
    · rcases List.mem_cons.mp mem with rfl | mem
      · decide
      · exact ih c mem

theorem dropSequences_opening (paints : List Paint) (rest : List Char) :
    dropSequences (opening paints ++ rest) = dropSequences rest := by
  have behind := behindCodes?_append (joinCodes_digits paints) rest
  refine dropSequences_of_behind ?_
  simpa [opening, behindSequence?] using behind

theorem dropSequences_reset (rest : List Char) :
    dropSequences (reset ++ rest) = dropSequences rest :=
  dropSequences_of_behind rfl

/-- A text without an escape character holds no reset to paint over. -/
theorem reopenAfterReset_of_plain (again : List Char) {text : List Char} (plain : '\x1b' ∉ text) :
    reopenAfterReset again text = text := by
  fun_induction reopenAfterReset again text with
  | case1 rest ih => exact absurd List.mem_cons_self plain
  | case2 c rest _ ih => rw [ih (List.not_mem_of_not_mem_cons plain)]
  | case3 => rfl

/-- A text without escape characters. -/
def Plain (s : String) : Prop := '\x1b' ∉ s.toList

instance (s : String) : Decidable (Plain s) := inferInstanceAs (Decidable ('\x1b' ∉ s.toList))

/-- Texts without escape characters. -/
def AllPlain (texts : List String) : Prop := ∀ s ∈ texts, Plain s

instance (texts : List String) : Decidable (AllPlain texts) :=
  inferInstanceAs (Decidable (∀ s ∈ texts, Plain s))

/-- The text of a piece, without its paint. -/
def Piece.text : Piece → String
  | .plain text => text
  | .painted _ text => text

def lineTexts (line : Line) : List String := line.map Piece.text

/-- The texts of a page. -/
def pageTexts (page : Page) : List String := page.flatMap lineTexts

theorem dropSequences_piece {piece : Piece} (plain : Plain piece.text) (rest : List Char) :
    dropSequences (piece.chars true ++ rest) = piece.chars false ++ dropSequences rest := by
  cases piece with
  | plain text => exact dropSequences_append plain rest
  | painted paints text =>
    have plain : '\x1b' ∉ text.toList := plain
    calc dropSequences (paintChars paints text.toList ++ rest)
        = dropSequences (opening paints ++ (text.toList ++ (reset ++ rest))) := by
          rw [paintChars, reopenAfterReset_of_plain _ plain, List.append_assoc, List.append_assoc]
      _ = dropSequences (text.toList ++ (reset ++ rest)) := dropSequences_opening paints _
      _ = text.toList ++ dropSequences (reset ++ rest) := dropSequences_append plain _
      _ = text.toList ++ dropSequences rest := by rw [dropSequences_reset]

theorem dropSequences_line {line : Line} (plain : AllPlain (lineTexts line)) (rest : List Char) :
    dropSequences (line.flatMap (Piece.chars true) ++ rest) =
      line.flatMap (Piece.chars false) ++ dropSequences rest := by
  induction line with
  | nil => rfl
  | cons piece line ih =>
    have first := plain piece.text List.mem_cons_self
    have others := ih fun s mem => plain s (List.mem_cons_of_mem _ mem)
    rw [List.flatMap_cons, List.append_assoc, dropSequences_piece first, others, List.flatMap_cons,
      List.append_assoc]

theorem dropSequences_page {page : Page} (plain : AllPlain (pageTexts page)) :
    dropSequences (page.flatMap (lineChars true)) = page.flatMap (lineChars false) := by
  induction page with
  | nil => rw [List.flatMap_nil, dropSequences, List.flatMap_nil]
  | cons line page ih =>
    have first : AllPlain (lineTexts line) := fun s mem => plain s (List.mem_append_left _ mem)
    have others := ih fun s mem => plain s (List.mem_append_right _ mem)
    rw [List.flatMap_cons, List.flatMap_cons, lineChars, List.append_assoc,
      dropSequences_line first, List.singleton_append, dropSequences_cons (by decide), others,
      lineChars, List.append_assoc]
    rfl

/-- Colour adds nothing but painting sequences to a page of plain texts. -/
theorem stripped_renderPage {page : Page} (plain : AllPlain (pageTexts page)) :
    stripped (renderPage true page) = renderPage false page := by
  unfold stripped renderPage
  rw [String.toList_ofList, dropSequences_page plain]

end AnalysisBrowser.Text
