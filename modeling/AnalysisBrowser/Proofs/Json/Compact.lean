import AnalysisBrowser.Proofs.Json.Reading

/-!
# Compact texts are read back

The compact text of a well-formed value is a text of its tree. What the grammar says of all texts
therefore holds of it: the reader gets the value back.
-/
namespace AnalysisBrowser.Json

open Text (isLeadUnit isTrailUnit)

mutual

/-- The tree of a value. -/
def tree : Json → Tree
  | .null => .null
  | .bool b => .bool b
  | .number l => .number l
  | .string s => .text (some s)
  | .array items => .array (itemTrees items)
  | .object members => .object (memberTrees members)

def itemTrees : List Json → List Tree
  | [] => []
  | item :: rest => item.tree :: itemTrees rest

def memberTrees : List (String × Json) → List (Option String × Tree)
  | [] => []
  | (key, value) :: rest => (some key, value.tree) :: memberTrees rest

end

mutual

theorem denotes_of_renders {d : Doc} : ∀ {j : Json}, d.Renders j.tree → d.Denotes j
  | .null, renders => by
    cases renders
    exact .null
  | .bool b, renders => by
    cases renders
    exact .bool
  | .number l, renders => by
    cases renders
    exact .number
  | .string s, renders => by
    cases renders
    exact .string
  | .array items, renders => by
    cases renders with
    | array render => exact .array (denote_of_render_items render)
  | .object members, renders => by
    cases renders with
    | object render => exact .object (denote_of_render_members render)

theorem denote_of_render_items {is : Items} :
    ∀ {items : List Json}, is.Render (itemTrees items) → is.Denote items
  | [], render => by
    cases render
    exact .done
  | item :: rest, render => by
    cases render with
    | item renders render => exact .item (denotes_of_renders renders) (denote_of_render_items render)

theorem denote_of_render_members {ms : Members} :
    ∀ {members : List (String × Json)}, ms.Render (memberTrees members) → ms.Denote members
  | [], render => by
    cases render
    exact .done
  | (key, value) :: rest, render => by
    cases render with
    | member renders render =>
      exact .member (denotes_of_renders renders) (denote_of_render_members render)

end

/-- An exponent as it is written. -/
def exponentChars : Option Number.Exponent → List Char
  | none => []
  | some e => 'e' :: (if e.negative then ['-'] else []) ++ e.digits

theorem chars_eq (l : Number.Literal) :
    l.chars = (if l.negative then ['-'] else []) ++ (l.whole ++
      ((if l.fraction.isEmpty then [] else '.' :: l.fraction) ++ exponentChars l.exponent)) := by
  obtain ⟨negative, whole, fraction, exponent⟩ := l
  cases exponent with
  | none => simp only [Number.Literal.chars, exponentChars, List.append_assoc]
  | some e => simp only [Number.Literal.chars, exponentChars, List.append_assoc]

theorem spelled_number {l : Number.Literal} (wellFormed : l.WellFormed) :
    NumberSpelled l l.chars := by
  have power (exponent : Option Number.Exponent) :
      ExponentSpelled exponent (exponentChars exponent) := by
    cases exponent with
    | none => exact .none
    | some e => exact .power (.inl rfl) (.inl rfl)
  rw [chars_eq]
  exact .mk wellFormed (power l.exponent)

theorem hexUnit?_control :
    ∀ n < 0x20, hexUnit? '0' '0' (hexDigit (n / 16)) (hexDigit (n % 16)) = some n := by
  decide

/-- A written character is one element of a string, which stands for the character. -/
theorem exists_mark (c : Char) :
    ∃ m, MarkSpelled m (escapeChar c) ∧
      ∀ ms, marksText? (m :: ms) = (marksText? ms).map (c :: ·) := by
  unfold escapeChar
  split
  · exact ⟨.short '"', .short rfl, fun _ => rfl⟩
  · exact ⟨.short '\\', .short rfl, fun _ => rfl⟩
  · exact ⟨.short '\x08', .short rfl, fun _ => rfl⟩
  · exact ⟨.short '\x0c', .short rfl, fun _ => rfl⟩
  · exact ⟨.short '\n', .short rfl, fun _ => rfl⟩
  · exact ⟨.short '\r', .short rfl, fun _ => rfl⟩
  · exact ⟨.short '\t', .short rfl, fun _ => rfl⟩
  next noQuote noBackslash _ _ _ _ _ =>
    split
    next control =>
      have noTrail : isTrailUnit c.toNat = false := by
        rw [isTrailUnit, Bool.and_eq_false_iff, decide_eq_false_iff_not]
        exact .inl (by omega)
      have noLead : isLeadUnit c.toNat = false := by
        rw [isLeadUnit, Bool.and_eq_false_iff, decide_eq_false_iff_not]
        exact .inl (by omega)
      refine ⟨.unit c.toNat, .unit (hexUnit?_control c.toNat control), fun ms => ?_⟩
      generalize text : marksText? ms = rest
      unfold marksText?
      simp only [noTrail, noLead, Bool.false_eq_true, if_false, Char.ofNat_toNat, text]
    next printed => exact ⟨.plain c, .plain noQuote noBackslash printed, fun _ => rfl⟩

theorem exists_marks (cs : List Char) :
    ∃ ms, MarksSpelled ms (cs.flatMap escapeChar) ∧ marksText? ms = some cs := by
  induction cs with
  | nil => exact ⟨[], .nil, rfl⟩
  | cons c cs ih =>
    obtain ⟨m, first, text⟩ := exists_mark c
    obtain ⟨ms, later, rest⟩ := ih
    refine ⟨m :: ms, ?_, by rw [text, rest, Option.map_some]⟩
    rw [List.flatMap_cons]
    exact .cons first later

theorem spelled_string (s : String) : StringSpelled (some s) (stringChars s) := by
  obtain ⟨ms, spelled, text⟩ := exists_marks s.toList
  have string := StringSpelled.mk spelled
  rw [text, Option.map_some, String.ofList_toList] at string
  exact string

theorem gap_nil : Gap [] := nofun

theorem spelled_items {item : Json} {rest : List Json}
    (spelled : ∀ j ∈ item :: rest, j.tree.Spelled j.chars) :
    ∃ cs, item.chars ++ itemChars rest = cs ++ [']'] ∧
      ItemsSpelled (itemTrees (item :: rest)) cs := by
  induction rest generalizing item with
  | nil =>
    have value := spelled item List.mem_cons_self
    exact ⟨[] ++ (item.chars ++ []), by rw [itemChars, List.append_nil, List.nil_append],
      .last gap_nil value gap_nil⟩
  | cons next rest ih =>
    have value := spelled item List.mem_cons_self
    obtain ⟨cs, more, later⟩ := ih fun j mem => spelled j (List.mem_cons_of_mem item mem)
    refine ⟨[] ++ (item.chars ++ ([] ++ ',' :: cs)), ?_, .item gap_nil value gap_nil later⟩
    rw [itemChars, List.cons_append, more]
    simp only [List.nil_append, List.append_assoc, List.cons_append]

theorem spelled_members {key : String} {value : Json} {rest : List (String × Json)}
    (spelled : ∀ m ∈ (key, value) :: rest, m.2.tree.Spelled m.2.chars) :
    ∃ cs, stringChars key ++ ':' :: (value.chars ++ memberChars rest) = cs ++ ['\x7d'] ∧
      MembersSpelled (memberTrees ((key, value) :: rest)) cs := by
  induction rest generalizing key value with
  | nil =>
    have content := spelled (key, value) List.mem_cons_self
    refine ⟨[] ++ (stringChars key ++ ([] ++ ':' :: ([] ++ (value.chars ++ [])))), ?_,
      .last gap_nil (spelled_string key) gap_nil gap_nil content gap_nil⟩
    simp only [memberChars, List.nil_append, List.append_nil, List.append_assoc, List.cons_append]
  | cons next rest ih =>
    obtain ⟨name, following⟩ := next
    have content := spelled (key, value) List.mem_cons_self
    obtain ⟨cs, more, later⟩ := ih fun m mem => spelled m (List.mem_cons_of_mem _ mem)
    refine ⟨[] ++ (stringChars key ++ ([] ++ ':' :: ([] ++ (value.chars ++ ([] ++ ',' :: cs))))), ?_,
      .member gap_nil (spelled_string key) gap_nil gap_nil content gap_nil later⟩
    rw [memberChars]
    simp only [List.nil_append, List.append_assoc, List.cons_append]
    simp only [more]

/-- The compact characters of a well-formed value spell its tree. -/
theorem spelled_chars {j : Json} (wellFormed : j.WellFormed) : j.tree.Spelled j.chars := by
  induction wellFormed with
  | null => exact .null
  | bool b =>
    cases b with
    | true => exact .true
    | false => exact .false
  | number literal => exact .number (spelled_number literal)
  | string s => exact .text (spelled_string s)
  | @array items each spelled =>
    cases items with
    | nil => exact .emptyArray gap_nil
    | cons item rest =>
      obtain ⟨cs, shape, items⟩ := spelled_items spelled
      rw [chars, List.cons_append, shape]
      exact .array items
  | @object members each spelled =>
    cases members with
    | nil => exact .emptyObject gap_nil
    | cons member rest =>
      obtain ⟨key, value⟩ := member
      obtain ⟨cs, shape, members⟩ := spelled_members spelled
      rw [chars, List.append_assoc, List.cons_append, List.cons_append, shape]
      exact .object members

theorem isText_compact {j : Json} (wellFormed : j.WellFormed) : j.tree.IsText j.compact := by
  refine ⟨[], j.chars, [], gap_nil, spelled_chars wellFormed, gap_nil, ?_⟩
  rw [compact, String.toList_ofList, List.append_nil, List.nil_append]

/-- The document of a compact text denotes the value, and nothing follows it. -/
theorem read_compact {j : Json} (wellFormed : j.WellFormed) :
    ∃ d, Document.read j.compact = ⟨d, none⟩ ∧ d.Denotes j := by
  obtain ⟨d, read, renders⟩ := read_of_isText (isText_compact wellFormed)
  exact ⟨d, read, denotes_of_renders renders⟩

end AnalysisBrowser.Json
