import AnalysisBrowser.Proofs.Json.Record

/-!
# Edits that a record decoder does not see

A record is filled from what stands under its field names, so an edit of a tree matters only where
it changes what a field reads. Three edits change nothing: another order of the members, a member
of an unknown name, and the removal of a null that its field takes for the blank.
-/
namespace AnalysisBrowser.Json

variable {α β : Type} {levels : Nat} {s : Schema α}

/-- Two trees fill the same record when all fields read the same in both. -/
theorem filled?_congr {t u : Tree} {find look : String → Option Tree}
    (left : t.record? (s.fields.map Field.name) = some find)
    (right : u.record? (s.fields.map Field.name) = some look)
    (same : ∀ f ∈ s.fields, f.reading levels (find f.name) = f.reading levels (look f.name)) :
    s.filled? levels t = s.filled? levels u := by
  rw [Schema.filled?, Schema.filled?, left, right]
  exact fill_congr same s.blank

theorem lookup_of_perm {n : String} {ms ns : List (Option String × Tree)} (perm : ms.Perm ns)
    (once : (Tree.keys ms).count n ≤ 1) : ms.lookup (some n) = ns.lookup (some n) := by
  induction perm with
  | nil => rfl
  | @cons m ms ns perm ih =>
    obtain ⟨key, t⟩ := m
    rw [List.lookup_cons, List.lookup_cons]
    have later : (Tree.keys ms).count n ≤ 1 := by
      cases key with
      | none => exact once
      | some k => exact Nat.le_trans List.count_le_count_cons once
    rw [ih later]
  | swap m k ms =>
    obtain ⟨key, t⟩ := m
    obtain ⟨other, u⟩ := k
    simp only [List.lookup_cons]
    by_cases first : some n = key
    · by_cases second : some n = other
      · subst first
        subst second
        simp only [Tree.keys_cons_some, List.count_cons_self] at once
        omega
      · rw [beq_false_of_ne second]
    · rw [beq_false_of_ne first]
  | @trans ms ns os first second ihFirst ihSecond =>
    have between : (Tree.keys ns).count n ≤ 1 := (Tree.keys_perm first).count_eq n ▸ once
    rw [ihFirst once, ihSecond between]

/-- Another value of one member is seen under its key only. -/
theorem lookup_congr_member {κ : Type} [BEq κ] [LawfulBEq κ] (n key : κ) (t u : Tree)
    (before after : List (κ × Tree)) :
    (before ++ (key, t) :: after).lookup n = (before ++ (key, u) :: after).lookup n ∨
      n = key ∧ (before ++ (key, t) :: after).lookup n = some t ∧
        (before ++ (key, u) :: after).lookup n = some u := by
  induction before with
  | nil =>
    simp only [List.nil_append, List.lookup_cons]
    cases same : n == key with
    | true => exact .inr ⟨eq_of_beq same, rfl, rfl⟩
    | false => exact .inl rfl
  | cons m before ih =>
    obtain ⟨k, v⟩ := m
    simp only [List.cons_append, List.lookup_cons]
    cases n == k with
    | true => exact .inl rfl
    | false => exact ih

theorem lookup_congr_item (n : String) (t u : Tree) (names : List String) (before after : List Tree) :
    (names.zip (before ++ t :: after)).lookup n = (names.zip (before ++ u :: after)).lookup n ∨
      names[before.length]? = some n ∧ (names.zip (before ++ t :: after)).lookup n = some t ∧
        (names.zip (before ++ u :: after)).lookup n = some u := by
  induction before generalizing names with
  | nil =>
    cases names with
    | nil => exact .inl rfl
    | cons name names =>
      obtain same | ⟨rfl, left, right⟩ := lookup_congr_member n name t u [] (names.zip after)
      · exact .inl same
      · exact .inr ⟨rfl, left, right⟩
  | cons v before ih =>
    cases names with
    | nil => exact .inl rfl
    | cons name names =>
      simp only [List.cons_append, List.zip_cons_cons, List.lookup_cons]
      cases n == name with
      | true => exact .inl rfl
      | false => exact ih names

theorem filled?_of_perm {ms ns : List (Option String × Tree)} (perm : ms.Perm ns) :
    s.filled? levels (.object ms) = s.filled? levels (.object ns) := by
  have keys (n : String) := (Tree.keys_perm perm).count_eq n
  by_cases admits : (∀ m ∈ ms, m.1.isSome = true) ∧
      ∀ n ∈ s.fields.map Field.name, (Tree.keys ms).count n ≤ 1
  · have admits' := admits
    simp only [perm.mem_iff, keys] at admits'
    refine filled?_congr (if_pos admits) (if_pos admits') fun f mem => ?_
    rw [lookup_of_perm perm (admits.2 f.name (List.mem_map_of_mem mem))]
  · have rejects := admits
    simp only [perm.mem_iff, keys] at rejects
    simp only [Schema.filled?, Tree.record?, if_neg admits, if_neg rejects]

theorem keys_congr_member (t u : Tree) (before after : List (Option String × Tree))
    (key : Option String) :
    Tree.keys (before ++ (key, t) :: after) = Tree.keys (before ++ (key, u) :: after) := by
  cases key <;> simp

/-- Values of one member are exchanged freely when the field of its name reads them the same. -/
theorem filled?_congr_member {t u : Tree} (before after : List (Option String × Tree))
    (key : Option String)
    (same : ∀ f ∈ s.fields, some f.name = key →
      outcome f.change levels t = outcome f.change levels u) :
    s.filled? levels (.object (before ++ (key, t) :: after)) =
      s.filled? levels (.object (before ++ (key, u) :: after)) := by
  have keys := keys_congr_member t u before after key
  have sound : (∀ m ∈ before ++ (key, t) :: after, m.1.isSome = true) ↔
      ∀ m ∈ before ++ (key, u) :: after, m.1.isSome = true := by
    simp only [List.forall_mem_append, List.forall_mem_cons]
  by_cases admits : (∀ m ∈ before ++ (key, u) :: after, m.1.isSome = true) ∧
      ∀ n ∈ s.fields.map Field.name, (Tree.keys (before ++ (key, u) :: after)).count n ≤ 1
  · have admits' := admits
    rw [← sound, ← keys] at admits'
    refine filled?_congr (if_pos admits') (if_pos admits) fun f mem => ?_
    obtain equal | ⟨named, left, right⟩ := lookup_congr_member (some f.name) key t u before after
    · simp only [equal]
    · simp only [left, right]
      exact same f mem named
  · have rejects := admits
    rw [← sound, ← keys] at rejects
    simp only [Schema.filled?, Tree.record?, if_neg admits, if_neg rejects]

theorem filled?_congr_item {t u : Tree} (before after : List Tree)
    (same : ∀ f ∈ s.fields, (s.fields.map Field.name)[before.length]? = some f.name →
      outcome f.change levels t = outcome f.change levels u) :
    s.filled? levels (.array (before ++ t :: after)) =
      s.filled? levels (.array (before ++ u :: after)) := by
  have length : (before ++ u :: after).length = (before ++ t :: after).length := by
    simp only [List.length_append, List.length_cons]
  by_cases short : (before ++ t :: after).length ≤ (s.fields.map Field.name).length
  · refine filled?_congr (if_pos short) (if_pos (length ▸ short)) fun f mem => ?_
    obtain equal | ⟨named, left, right⟩ :=
      lookup_congr_item f.name t u (s.fields.map Field.name) before after
    · simp only [equal]
    · simp only [left, right]
      exact same f mem named
  · simp only [Schema.filled?, Tree.record?, if_neg short, if_neg (length ▸ short)]

theorem plain_record (lawful : s.Lawful) (each : ∀ f ∈ s.fields, Plain f.change (levels - 1)) :
    Plain s.decode levels := by
  cases levels with
  | zero => exact plain_of_reads reads_record_zero fun _ _ => rfl
  | succ levels =>
    refine plain_of_reads (reads_record lawful fun f mem => (each f mem).places) ?_
    intro t u distinct permuted
    cases permuted with
    | here perm => exact filled?_of_perm perm
    | item before after inner =>
      cases distinct with
      | array inside =>
        exact filled?_congr_item before after fun f mem _ =>
          (each f mem).order (inside _ (by simp)) inner
    | member before after key inner =>
      cases distinct with
      | object once inside =>
        exact filled?_congr_member before after key fun f mem _ =>
          (each f mem).order (inside (key, _) (by simp)) inner

theorem lookup_congr_insert {κ : Type} [BEq κ] [LawfulBEq κ] {n key : κ} (v : Tree)
    (before after : List (κ × Tree)) (other : n ≠ key) :
    (before ++ (key, v) :: after).lookup n = (before ++ after).lookup n := by
  rw [List.lookup_append, List.lookup_append, List.lookup_cons, beq_false_of_ne other]

theorem lookup_insert {κ : Type} [BEq κ] [LawfulBEq κ] {n : κ} (v : Tree)
    {before : List (κ × Tree)} (after : List (κ × Tree)) (new : ∀ m ∈ before, m.1 ≠ n) :
    (before ++ (n, v) :: after).lookup n = some v := by
  have none : before.lookup n = none :=
    List.lookup_eq_none_iff.mpr fun m mem => by simpa using (new m mem).symm
  rw [List.lookup_append, none, Option.none_or, List.lookup_cons_self]

theorem not_mem_keys_iff {n : String} {ms : List (Option String × Tree)} :
    n ∉ Tree.keys ms ↔ ∀ m ∈ ms, m.1 ≠ some n := by
  simp only [Tree.keys, List.mem_filterMap, not_exists, not_and, ne_eq]

theorem lookup_of_not_mem {n : String} {ms : List (Option String × Tree)} (new : n ∉ Tree.keys ms) :
    ms.lookup (some n) = none :=
  List.lookup_eq_none_iff.mpr fun m mem => by simpa using (not_mem_keys_iff.mp new m mem).symm

/-- The keys stay admitted when a member joins whose name is new to the fields. -/
theorem admitted_insert_iff {names : List String} {name : String} {v : Tree}
    {before after : List (Option String × Tree)}
    (new : name ∈ names → name ∉ Tree.keys (before ++ after)) :
    ((∀ m ∈ before ++ (some name, v) :: after, m.1.isSome = true) ∧
        ∀ n ∈ names, (Tree.keys (before ++ (some name, v) :: after)).count n ≤ 1) ↔
      (∀ m ∈ before ++ after, m.1.isSome = true) ∧
        ∀ n ∈ names, (Tree.keys (before ++ after)).count n ≤ 1 := by
  refine and_congr (by simp only [List.forall_mem_append, List.forall_mem_cons, Option.isSome_some,
    true_and]) (forall₂_congr fun n mem => ?_)
  have keys : Tree.keys (before ++ (some name, v) :: after) =
      Tree.keys before ++ name :: Tree.keys after := by simp
  rw [keys, List.perm_middle.count_eq, Tree.keys_append]
  by_cases same : n = name
  · subst same
    have absent := List.count_eq_zero.mpr (Tree.keys_append before after ▸ new mem)
    rw [List.count_cons_self, absent]
    simp
  · rw [List.count_cons_of_ne (Ne.symm same)]

/-- A member joins unseen when the fields read the same with it and without it. -/
theorem filled?_insert {name : String} {v : Tree} {before after : List (Option String × Tree)}
    (new : name ∈ s.fields.map Field.name → name ∉ Tree.keys (before ++ after))
    (same : fill levels (fun n => (before ++ (some name, v) :: after).lookup (some n)) s.fields
        s.blank =
      fill levels (fun n => (before ++ after).lookup (some n)) s.fields s.blank) :
    s.filled? levels (.object (before ++ (some name, v) :: after)) =
      s.filled? levels (.object (before ++ after)) := by
  have admitted := admitted_insert_iff (v := v) new
  by_cases admits : (∀ m ∈ before ++ after, m.1.isSome = true) ∧
      ∀ n ∈ s.fields.map Field.name, (Tree.keys (before ++ after)).count n ≤ 1
  · simp only [Schema.filled?, Tree.record?, if_pos admits, if_pos (admitted.mpr admits)]
    exact same
  · have rejects := fun admits' => admits (admitted.mp admits')
    simp only [Schema.filled?, Tree.record?, if_neg admits, if_neg rejects]

/-- A member whose name is no field's is not seen, whatever its value. -/
theorem filled?_insert_unknown {name : String} (v : Tree)
    (before after : List (Option String × Tree)) (unknown : name ∉ s.fields.map Field.name) :
    s.filled? levels (.object (before ++ (some name, v) :: after)) =
      s.filled? levels (.object (before ++ after)) := by
  refine filled?_insert (fun known => (unknown known).elim) (fill_congr (fun f mem => ?_) _)
  have other : some f.name ≠ some name := by
    rintro same
    exact unknown (Option.some.inj same ▸ List.mem_map_of_mem mem)
  rw [lookup_congr_insert v before after other]

/-- The field may be left out, and null leaves the blank record as it is. -/
def Field.BlankOnNull (f : Field α) (blank : α) : Prop :=
  f.required = false ∧ ∀ levels, ∃ c, outcome f.change levels .null = some c ∧ c blank = blank

/-- A null that its field takes for the blank may as well be absent. -/
theorem filled?_insert_null {f : Field α} (lawful : s.Lawful) (mem : f ∈ s.fields)
    (null : f.BlankOnNull s.blank) {before after : List (Option String × Tree)}
    (new : f.name ∉ Tree.keys (before ++ after)) :
    s.filled? levels (.object (before ++ (some f.name, .null) :: after)) =
      s.filled? levels (.object (before ++ after)) := by
  refine filled?_insert (fun _ => new) ?_
  -- The field is put first, where the record is still blank.
  obtain ⟨others, perm, apart⟩ := lawful.exists_others mem
  obtain ⟨optional, read⟩ := null
  obtain ⟨c, reading, blank⟩ := read levels
  have newBefore : f.name ∉ Tree.keys before := fun found =>
    new (Tree.keys_append before after ▸ List.mem_append_left _ found)
  rw [fill_perm perm lawful.independent, fill_perm perm lawful.independent, fill, fill,
    lookup_insert .null after (not_mem_keys_iff.mp newBefore), lookup_of_not_mem new, Field.reading,
    Field.reading, reading, optional]
  simp only [Option.bind_some, blank, Bool.false_eq_true, if_false, id]
  refine fill_congr (fun g found => ?_) _
  rw [lookup_congr_insert .null before after (by simpa using apart g found)]

end AnalysisBrowser.Json
