import AnalysisBrowser.Proofs.Json.Lexemes

/-!
# Every text of a tree is read

The reader makes of any text of a tree a document that says what the tree says, whatever follows
the text. The budget of the reader shrinks with every call; three times the characters of a value
are enough for it, and one more for a list of items or members.
-/
namespace AnalysisBrowser.Json

theorem readValue_scalar {c : Char} {budget : Nat} {p : Position} {rest : List Char}
    (gap : isGap c = false) (noArray : c ≠ '[') (noObject : c ≠ '\x7b') :
    readValue (budget + 1) p (c :: rest) = readScalar p (c :: rest) := by
  rw [readValue]
  simp only [skipGap_of_not_gap gap]
  split
  next first => exact (noArray (List.cons.inj first).1).elim
  next first => exact (noObject (List.cons.inj first).1).elim
  next => rfl

theorem readValue_gap {gap : List Char} (blank : Gap gap) (budget : Nat) (p : Position)
    (cs : List Char) :
    readValue (budget + 1) p (gap ++ cs) = readValue (budget + 1) (p.afterAll gap) cs := by
  rw [readValue, readValue, skipGap_append blank]

theorem readItem_last {budget : Nat} {p q : Position} {cs after rest : List Char} {d : Doc}
    (value : readValue budget p cs = (d, some ⟨q, after ++ ']' :: rest⟩)) (blank : Gap after) :
    readItem (budget + 1) p cs =
      (.item d (.done ((q.afterAll after).right 1)), some ⟨(q.afterAll after).right 1, rest⟩) := by
  rw [readItem, value]
  simp only [skipGap_append_cons blank (show isGap ']' = false by decide)]

theorem readItem_next {budget : Nat} {p q : Position} {cs after gap rest : List Char} {c : Char}
    {d : Doc} (value : readValue budget p cs = (d, some ⟨q, after ++ ',' :: (gap ++ c :: rest)⟩))
    (blank : Gap after) (space : Gap gap) (solid : isGap c = false) (bracket : c ≠ ']') :
    readItem (budget + 1) p cs =
      (.item d (readItem budget (((q.afterAll after).right 1).afterAll gap) (c :: rest)).1,
        (readItem budget (((q.afterAll after).right 1).afterAll gap) (c :: rest)).2) := by
  rw [readItem, value]
  simp only [skipGap_append_cons blank (show isGap ',' = false by decide),
    skipGap_append_cons space solid]
  split
  next first => cases first
  next first => exact (bracket (List.cons.inj first).1).elim
  next => rfl

section Member

variable {budget : Nat} {p q r : Position} {cs colon rest after tail : List Char} {key : String}
  {flaw : Option Fault} {d : Doc}

theorem readMember_last
    (name : readString p cs = .ok ⟨key, flaw, ⟨q, colon ++ ':' :: rest⟩⟩) (middle : Gap colon)
    (value : readValue budget ((q.afterAll colon).right 1) rest =
      (d, some ⟨r, after ++ '\x7d' :: tail⟩))
    (blank : Gap after) :
    readMember (budget + 1) p cs =
      (.member ⟨key, flaw, q, q.afterAll colon⟩ d (r.afterAll after)
          (.done ((r.afterAll after).right 1)),
        some ⟨(r.afterAll after).right 1, tail⟩) := by
  rw [readMember, name]
  simp only [skipGap_append_cons middle (show isGap ':' = false by decide), value,
    skipGap_append_cons blank (show isGap '\x7d' = false by decide)]
  rfl

theorem readMember_next {gap : List Char}
    (name : readString p cs = .ok ⟨key, flaw, ⟨q, colon ++ ':' :: rest⟩⟩) (middle : Gap colon)
    (value : readValue budget ((q.afterAll colon).right 1) rest =
      (d, some ⟨r, after ++ ',' :: (gap ++ '"' :: tail)⟩))
    (blank : Gap after) (space : Gap gap) :
    ∃ place, readMember (budget + 1) p cs =
      (.member ⟨key, flaw, q, q.afterAll colon⟩ d (r.afterAll after) (readMember budget place tail).1,
        (readMember budget place tail).2) := by
  refine ⟨(((r.afterAll after).right 1).afterAll gap).right 1, ?_⟩
  rw [readMember, name]
  simp only [skipGap_append_cons middle (show isGap ':' = false by decide), value,
    skipGap_append_cons blank (show isGap ',' = false by decide),
    skipGap_append_cons space (show isGap '"' = false by decide)]
  rfl

end Member

-- A bracket, an item and the value in it take one step of the budget each, which is why a text pays
-- for three steps with every character.

/-- The characters are read as a document of the tree. -/
def IsRead (t : Tree) (cs : List Char) : Prop :=
  ∀ (budget : Nat) (p : Position) (rest : List Char), 3 * cs.length ≤ budget → NoNumber rest →
    ∃ d q, readValue budget p (cs ++ rest) = (d, some ⟨q, rest⟩) ∧ d.Renders t

/-- The characters, up to the bracket, are read as the items of an array. -/
def AreItems (ts : List Tree) (cs : List Char) : Prop :=
  ∃ gap c body, Gap gap ∧ cs = gap ++ c :: body ∧ isGap c = false ∧ c ≠ ']' ∧
    ∀ (budget : Nat) (p : Position) (rest : List Char), 3 * cs.length + 1 ≤ budget →
      ∃ is q, readItem budget p (c :: body ++ ']' :: rest) = (is, some ⟨q, rest⟩) ∧ is.Render ts

/-- The characters, up to the brace, are read as the members of an object. -/
def AreMembers (members : List (Option String × Tree)) (cs : List Char) : Prop :=
  ∃ gap body, Gap gap ∧ cs = gap ++ '"' :: body ∧
    ∀ (budget : Nat) (p : Position) (rest : List Char), 3 * cs.length + 1 ≤ budget →
      ∃ ms q, readMember budget p (body ++ '\x7d' :: rest) = (ms, some ⟨q, rest⟩) ∧
        ms.Render members

theorem renders_string {start stop : Position} {s : String} {flaw : Option Fault}
    {text : Option String} (sound : text = if flaw.isNone then some s else none) :
    Doc.Renders (.scalar start stop (.string s flaw)) (.text text) := by
  subst sound
  cases flaw with
  | none => exact .text
  | some fault => exact .flawed

theorem render_member {s : String} {flaw : Option Fault} {key : Option String}
    {stop place next : Position} {d : Doc} {t : Tree} {ms : Members}
    {members : List (Option String × Tree)} (sound : key = if flaw.isNone then some s else none)
    (value : d.Renders t) (later : ms.Render members) :
    Members.Render (.member ⟨s, flaw, stop, place⟩ d next ms) ((key, t) :: members) := by
  subst sound
  cases flaw with
  | none => exact .member value later
  | some fault => exact .flawed value later

theorem exists_first_number {l : Number.Literal} {cs : List Char} (spelled : NumberSpelled l cs) :
    ∃ c rest, cs = c :: rest ∧ (c = '-' ∨ c.isDigit = true) := by
  obtain ⟨wellFormed, exponent⟩ := spelled
  cases l.negative with
  | true => exact ⟨'-', _, rfl, .inl rfl⟩
  | false =>
    obtain ⟨c, rest, first, digit⟩ := exists_digit wellFormed
    rw [first]
    exact ⟨c, _, rfl, .inr digit⟩

theorem ne_of_first {c d : Char} (first : c = '-' ∨ c.isDigit = true) (minus : d ≠ '-')
    (digit : d.isDigit = false) : c ≠ d := by
  rcases first with rfl | isDigit
  · exact minus.symm
  · exact ne_of_isDigit isDigit digit

theorem isGap_of_first {c : Char} (first : c = '-' ∨ c.isDigit = true) : isGap c = false := by
  rcases first with rfl | isDigit
  · decide
  · exact isGap_of_isDigit isDigit

/-- A value starts with neither white space nor a closing bracket. -/
theorem exists_first {t : Tree} {cs : List Char} (spelled : t.Spelled cs) :
    ∃ c rest, cs = c :: rest ∧ isGap c = false ∧ c ≠ ']' := by
  cases spelled with
  | number spelled =>
    obtain ⟨c, rest, rfl, first⟩ := exists_first_number spelled
    exact ⟨c, rest, rfl, isGap_of_first first, ne_of_first first (by decide) (by decide)⟩
  | text spelled =>
    obtain ⟨marks⟩ := spelled
    exact ⟨_, _, rfl, by decide⟩
  | _ => exact ⟨_, _, rfl, by decide⟩

/-- A value without parts is read when its first character does not open one with parts. -/
theorem isRead_scalar {t : Tree} {c : Char} {more : List Char} (gap : isGap c = false)
    (noArray : c ≠ '[') (noObject : c ≠ '\x7b')
    (read : ∀ p rest, NoNumber rest →
      ∃ d q, readScalar p (c :: more ++ rest) = (d, some ⟨q, rest⟩) ∧ d.Renders t) :
    IsRead t (c :: more) := by
  intro budget p rest enough ends
  rw [List.length_cons] at enough
  obtain ⟨budget, rfl⟩ : ∃ b, budget = b + 1 := ⟨budget - 1, by omega⟩
  obtain ⟨d, q, scalar, renders⟩ := read p rest ends
  refine ⟨d, q, ?_, renders⟩
  rw [List.cons_append] at scalar ⊢
  rw [readValue_scalar gap noArray noObject, scalar]

theorem isRead_word {t : Tree} {value : Scalar} {c : Char} {word : List Char} (gap : isGap c = false)
    (noArray : c ≠ '[') (noObject : c ≠ '\x7b')
    (renders : ∀ p q, Doc.Renders (.scalar p q value) t)
    (read : ∀ p rest, readScalar p (c :: (word ++ rest)) =
      match readWord (p.right 1) word (word ++ rest) with
      | .error broke => (.broken .other p broke, none)
      | .ok after => (.scalar p after.position value, some after)) :
    IsRead t (c :: word) := by
  refine isRead_scalar gap noArray noObject fun p rest _ => ?_
  obtain ⟨q, found⟩ := readWord_append (p.right 1) word rest
  refine ⟨_, q, ?_, renders p q⟩
  rw [List.cons_append, read, found]

theorem isRead_number {l : Number.Literal} {cs : List Char} (spelled : NumberSpelled l cs) :
    IsRead (.number l) cs := by
  have read (p : Position) (rest : List Char) (ends : NoNumber rest) :
      ∃ d q, readScalar p (cs ++ rest) = (d, some ⟨q, rest⟩) ∧ d.Renders (.number l) := by
    obtain ⟨q, scalar⟩ := readScalar_number p spelled ends
    exact ⟨_, q, scalar, .number⟩
  obtain ⟨c, more, rfl, first⟩ := exists_first_number spelled
  exact isRead_scalar (isGap_of_first first) (ne_of_first first (by decide) (by decide))
    (ne_of_first first (by decide) (by decide)) read

theorem isRead_text {s : Option String} {cs : List Char} (spelled : StringSpelled s cs) :
    IsRead (.text s) cs := by
  obtain ⟨marks⟩ := spelled
  refine isRead_scalar (by decide) (by decide) (by decide) fun p rest _ => ?_
  obtain ⟨s, flaw, q, read, sound⟩ := readString_append (p.right 1) rest marks
  refine ⟨.scalar p q (.string s flaw), q, ?_, renders_string sound⟩
  rw [List.cons_append, List.append_assoc, List.singleton_append]
  simp only [readScalar, read]

/-- A value is also read after white space. -/
theorem IsRead.after_gap {t : Tree} {gap cs : List Char} (read : IsRead t cs) (blank : Gap gap)
    (spelled : t.Spelled cs) (budget : Nat) (p : Position) {rest : List Char}
    (enough : 3 * cs.length ≤ budget) (ends : NoNumber rest) :
    ∃ d q, readValue budget p (gap ++ (cs ++ rest)) = (d, some ⟨q, rest⟩) ∧ d.Renders t := by
  obtain ⟨c, more, rfl, -⟩ := exists_first spelled
  rw [List.length_cons] at enough
  obtain ⟨budget, rfl⟩ : ∃ b, budget = b + 1 := ⟨budget - 1, by omega⟩
  rw [readValue_gap blank]
  exact read (budget + 1) _ rest (by rw [List.length_cons]; omega) ends

theorem areItems_last {t : Tree} {before cs after : List Char} (left : Gap before)
    (spelled : t.Spelled cs) (right : Gap after) (read : IsRead t cs) :
    AreItems [t] (before ++ (cs ++ after)) := by
  obtain ⟨c, more, first, gap, bracket⟩ := exists_first spelled
  refine ⟨before, c, more ++ after, left, by rw [first]; rfl, gap, bracket, ?_⟩
  intro budget p rest enough
  simp only [List.length_append] at enough
  obtain ⟨budget, rfl⟩ : ∃ b, budget = b + 1 := ⟨budget - 1, by omega⟩
  obtain ⟨d, q, value, renders⟩ := read budget p (after ++ ']' :: rest) (by omega)
    (noNumber_gap right (noNumber_cons rest (by decide)))
  have shape : c :: (more ++ after) ++ ']' :: rest = cs ++ (after ++ ']' :: rest) := by
    rw [first, ← List.cons_append, List.append_assoc]
  have step := readItem_last value right
  rw [← shape] at step
  exact ⟨_, _, step, .item renders .done⟩

theorem areItems_item {t : Tree} {ts : List Tree} {before cs after more : List Char}
    (left : Gap before) (spelled : t.Spelled cs) (right : Gap after) (read : IsRead t cs)
    (later : AreItems ts more) :
    AreItems (t :: ts) (before ++ (cs ++ (after ++ ',' :: more))) := by
  obtain ⟨c, body, first, gap, bracket⟩ := exists_first spelled
  obtain ⟨space, d, next, blank, rfl, solid, noBracket, readLater⟩ := later
  refine ⟨before, c, body ++ (after ++ ',' :: (space ++ d :: next)), left, by rw [first]; rfl, gap,
    bracket, ?_⟩
  intro budget p rest enough
  simp only [List.length_append, List.length_cons] at enough
  obtain ⟨budget, rfl⟩ : ∃ b, budget = b + 1 := ⟨budget - 1, by omega⟩
  obtain ⟨v, q, value, renders⟩ :=
    read budget p (after ++ ',' :: (space ++ d :: (next ++ ']' :: rest))) (by omega)
      (noNumber_gap right (noNumber_cons _ (by decide)))
  obtain ⟨is, r, items, render⟩ := readLater budget (((q.afterAll after).right 1).afterAll space) rest
    (by simp only [List.length_append, List.length_cons]; omega)
  have shape : c :: (body ++ (after ++ ',' :: (space ++ d :: next))) ++ ']' :: rest =
      cs ++ (after ++ ',' :: (space ++ d :: (next ++ ']' :: rest))) := by
    rw [first]
    simp only [List.cons_append, List.append_assoc]
  have step := readItem_next value right blank solid noBracket
  rw [List.cons_append] at items
  rw [items, ← shape] at step
  exact ⟨.item v is, r, step, .item renders render⟩

/-- An array is read by its items, the first of which starts after white space. -/
theorem readValue_array {gap : List Char} {c : Char} (blank : Gap gap) (solid : isGap c = false)
    (bracket : c ≠ ']') (budget : Nat) (p : Position) (rest : List Char) :
    readValue (budget + 2) p ('[' :: (gap ++ c :: rest)) =
      (.array p (readItem budget ((p.right 1).afterAll gap) (c :: rest)).1,
        (readItem budget ((p.right 1).afterAll gap) (c :: rest)).2) := by
  rw [readValue]
  simp only [skipGap_of_not_gap (show isGap '[' = false by decide), readFirstItem,
    skipGap_append_cons blank solid]
  split
  next first => cases first
  next first => exact (bracket (List.cons.inj first).1).elim
  next => rfl

theorem isRead_emptyArray {gap : List Char} (blank : Gap gap) :
    IsRead (.array []) ('[' :: (gap ++ [']'])) := by
  intro budget p rest enough _
  simp only [List.length_cons, List.length_append] at enough
  obtain ⟨budget, rfl⟩ : ∃ b, budget = b + 2 := ⟨budget - 2, by omega⟩
  refine ⟨.array p (.done (((p.right 1).afterAll gap).right 1)), ((p.right 1).afterAll gap).right 1,
    ?_, .array .done⟩
  rw [List.cons_append, List.append_assoc, List.singleton_append, readValue]
  simp only [skipGap_of_not_gap (show isGap '[' = false by decide), readFirstItem,
    skipGap_append_cons blank (show isGap ']' = false by decide)]

theorem isRead_array {ts : List Tree} {cs : List Char} (items : AreItems ts cs) :
    IsRead (.array ts) ('[' :: (cs ++ [']'])) := by
  obtain ⟨gap, c, body, blank, rfl, solid, bracket, read⟩ := items
  intro budget p rest enough _
  simp only [List.length_cons, List.length_append, List.length_nil] at enough
  obtain ⟨budget, rfl⟩ : ∃ b, budget = b + 2 := ⟨budget - 2, by omega⟩
  obtain ⟨is, q, items, render⟩ := read budget ((p.right 1).afterAll gap) rest
    (by simp only [List.length_append, List.length_cons]; omega)
  have shape : '[' :: (gap ++ c :: body ++ [']']) ++ rest =
      '[' :: (gap ++ c :: (body ++ ']' :: rest)) := by
    simp only [List.cons_append, List.append_assoc, List.nil_append]
  have step := readValue_array blank solid bracket budget p (body ++ ']' :: rest)
  rw [List.cons_append] at items
  rw [items, ← shape] at step
  exact ⟨.array p is, q, step, .array render⟩

theorem areMembers_last {key : Option String} {t : Tree} {before name colon gap cs after : List Char}
    (left : Gap before) (named : StringSpelled key name) (middle : Gap colon) (space : Gap gap)
    (spelled : t.Spelled cs) (right : Gap after) (read : IsRead t cs) :
    AreMembers [(key, t)] (before ++ (name ++ (colon ++ ':' :: (gap ++ (cs ++ after))))) := by
  obtain @⟨marks, body, marked⟩ := named
  refine ⟨before, body ++ '"' :: (colon ++ ':' :: (gap ++ (cs ++ after))), left, ?_, ?_⟩
  · simp only [List.cons_append, List.append_assoc, List.nil_append]
  intro budget p rest enough
  simp only [List.length_append, List.length_cons] at enough
  obtain ⟨budget, rfl⟩ : ∃ b, budget = b + 1 := ⟨budget - 1, by omega⟩
  obtain ⟨s, flaw, q, string, sound⟩ := readString_append p
    (colon ++ ':' :: (gap ++ (cs ++ (after ++ '\x7d' :: rest)))) marked
  have ends : NoNumber (after ++ '\x7d' :: rest) :=
    noNumber_gap right (noNumber_cons rest (by decide))
  obtain ⟨d, r, value, renders⟩ :=
    read.after_gap space spelled budget ((q.afterAll colon).right 1) (by omega) ends
  have shape : body ++ '"' :: (colon ++ ':' :: (gap ++ (cs ++ after))) ++ '\x7d' :: rest =
      body ++ '"' :: (colon ++ ':' :: (gap ++ (cs ++ (after ++ '\x7d' :: rest)))) := by
    simp only [List.cons_append, List.append_assoc]
  have step := readMember_last string middle value right
  rw [← shape] at step
  exact ⟨_, _, step, render_member sound renders .done⟩

theorem areMembers_member {key : Option String} {t : Tree} {ms : List (Option String × Tree)}
    {before name colon gap cs after more : List Char} (left : Gap before)
    (named : StringSpelled key name) (middle : Gap colon) (space : Gap gap) (spelled : t.Spelled cs)
    (right : Gap after) (read : IsRead t cs) (later : AreMembers ms more) :
    AreMembers ((key, t) :: ms)
      (before ++ (name ++ (colon ++ ':' :: (gap ++ (cs ++ (after ++ ',' :: more)))))) := by
  obtain @⟨marks, body, marked⟩ := named
  obtain ⟨free, next, blank, rfl, readLater⟩ := later
  refine ⟨before, body ++ '"' :: (colon ++ ':' :: (gap ++ (cs ++ (after ++ ',' ::
    (free ++ '"' :: next))))), left, ?_, ?_⟩
  · simp only [List.cons_append, List.append_assoc, List.nil_append]
  intro budget p rest enough
  simp only [List.length_append, List.length_cons] at enough
  obtain ⟨budget, rfl⟩ : ∃ b, budget = b + 1 := ⟨budget - 1, by omega⟩
  obtain ⟨s, flaw, q, string, sound⟩ := readString_append p
    (colon ++ ':' :: (gap ++ (cs ++ (after ++ ',' :: (free ++ '"' :: (next ++ '\x7d' :: rest))))))
    marked
  have ends : NoNumber (after ++ ',' :: (free ++ '"' :: (next ++ '\x7d' :: rest))) :=
    noNumber_gap right (noNumber_cons _ (by decide))
  obtain ⟨d, r, value, renders⟩ :=
    read.after_gap space spelled budget ((q.afterAll colon).right 1) (by omega) ends
  obtain ⟨place, step⟩ := readMember_next string middle value right blank
  obtain ⟨ms, u, members, render⟩ := readLater budget place rest
    (by simp only [List.length_append, List.length_cons]; omega)
  have shape : body ++ '"' :: (colon ++ ':' :: (gap ++ (cs ++ (after ++ ',' ::
        (free ++ '"' :: next))))) ++ '\x7d' :: rest =
      body ++ '"' :: (colon ++ ':' :: (gap ++ (cs ++ (after ++ ',' ::
        (free ++ '"' :: (next ++ '\x7d' :: rest)))))) := by
    simp only [List.cons_append, List.append_assoc]
  rw [members, ← shape] at step
  exact ⟨_, u, step, render_member sound renders render⟩

theorem isRead_emptyObject {gap : List Char} (blank : Gap gap) :
    IsRead (.object []) ('\x7b' :: (gap ++ ['\x7d'])) := by
  intro budget p rest enough _
  simp only [List.length_cons, List.length_append] at enough
  obtain ⟨budget, rfl⟩ : ∃ b, budget = b + 2 := ⟨budget - 2, by omega⟩
  refine ⟨.object p (.done (((p.right 1).afterAll gap).right 1)), ((p.right 1).afterAll gap).right 1,
    ?_, .object .done⟩
  rw [List.cons_append, List.append_assoc, List.singleton_append, readValue]
  simp only [skipGap_of_not_gap (show isGap '\x7b' = false by decide), readFirstMember,
    skipGap_append_cons blank (show isGap '\x7d' = false by decide)]

theorem isRead_object {members : List (Option String × Tree)} {cs : List Char}
    (all : AreMembers members cs) : IsRead (.object members) ('\x7b' :: (cs ++ ['\x7d'])) := by
  obtain ⟨gap, body, blank, rfl, read⟩ := all
  intro budget p rest enough _
  simp only [List.length_cons, List.length_append, List.length_nil] at enough
  obtain ⟨budget, rfl⟩ : ∃ b, budget = b + 2 := ⟨budget - 2, by omega⟩
  obtain ⟨ms, q, found, render⟩ := read budget (((p.right 1).afterAll gap).right 1) rest
    (by simp only [List.length_append, List.length_cons]; omega)
  refine ⟨.object p ms, q, ?_, .object render⟩
  simp only [List.cons_append, List.append_assoc, List.nil_append]
  rw [readValue]
  simp only [skipGap_of_not_gap (show isGap '\x7b' = false by decide), readFirstMember,
    skipGap_append_cons blank (show isGap '"' = false by decide), found]

-- The recursion is on the derivation, not on the tree: white space belongs to the derivation only.

mutual

theorem isRead_of_spelled {t : Tree} {cs : List Char} (spelled : t.Spelled cs) : IsRead t cs := by
  cases spelled with
  | null => exact isRead_word (by decide) (by decide) (by decide) (fun _ _ => .null) fun _ _ => rfl
  | true => exact isRead_word (by decide) (by decide) (by decide) (fun _ _ => .bool) fun _ _ => rfl
  | false => exact isRead_word (by decide) (by decide) (by decide) (fun _ _ => .bool) fun _ _ => rfl
  | number spelled => exact isRead_number spelled
  | text spelled => exact isRead_text spelled
  | emptyArray blank => exact isRead_emptyArray blank
  | array items => exact isRead_array (areItems_of_spelled items)
  | emptyObject blank => exact isRead_emptyObject blank
  | object members => exact isRead_object (areMembers_of_spelled members)

theorem areItems_of_spelled {ts : List Tree} {cs : List Char} (spelled : ItemsSpelled ts cs) :
    AreItems ts cs := by
  cases spelled with
  | last left value right => exact areItems_last left value right (isRead_of_spelled value)
  | item left value right later =>
    exact areItems_item left value right (isRead_of_spelled value) (areItems_of_spelled later)

theorem areMembers_of_spelled {ms : List (Option String × Tree)} {cs : List Char}
    (spelled : MembersSpelled ms cs) : AreMembers ms cs := by
  cases spelled with
  | last left named middle space value right =>
    exact areMembers_last left named middle space value right (isRead_of_spelled value)
  | member left named middle space value right later =>
    exact areMembers_member left named middle space value right (isRead_of_spelled value)
      (areMembers_of_spelled later)

end

/-- Every text of a tree is read as a document of it, and nothing follows the document. -/
theorem read_of_isText {t : Tree} {text : String} (isText : t.IsText text) :
    ∃ d, Document.read text = ⟨d, none⟩ ∧ d.Renders t := by
  obtain ⟨before, cs, after, left, spelled, right, split⟩ := isText
  have read := isRead_of_spelled spelled
  have ends : NoNumber after := List.append_nil after ▸ noNumber_gap right noNumber_nil
  obtain ⟨d, q, value, renders⟩ := read.after_gap left spelled (3 * text.toList.length + 3) .origin
    (by simp only [split, List.length_append]; omega) ends
  refine ⟨d, ?_, renders⟩
  rw [← split] at value
  rw [Document.read]
  simp only [value, skipGap_append_nil right]

end AnalysisBrowser.Json
