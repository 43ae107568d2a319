import AnalysisBrowser.Proofs.Json.Edits

/-!
# One field set anew

When one field of a record is given another value, by a new member or in place of the old one, the
record differs by the change that the field makes of the new value, and by nothing else. The same
holds for one item of an array. Edits deep inside a value are such edits inside each other.
-/
namespace AnalysisBrowser.Json

variable {α β : Type} {levels : Nat} {s : Schema α}

/-- The value of one field is replaced, in an object or in an array of the fields. -/
inductive Replaces (names : List String) (name : String) (w v : Tree) : Tree → Tree → Prop
  | member (before after : List (Option String × Tree)) :
      Replaces names name w v (.object (before ++ (some name, w) :: after))
        (.object (before ++ (some name, v) :: after))
  | item (before after : List Tree) (place : names[before.length]? = some name) :
      Replaces names name w v (.array (before ++ w :: after)) (.array (before ++ v :: after))

/-- A field that is left out gets a value, as a new member or as the next item. -/
inductive Adds (names : List String) (name : String) (v : Tree) : Tree → Tree → Prop
  | member (before after : List (Option String × Tree)) (absent : name ∉ Tree.keys (before ++ after)) :
      Adds names name v (.object (before ++ after)) (.object (before ++ (some name, v) :: after))
  | item (before : List Tree) (place : names[before.length]? = some name) :
      Adds names name v (.array before) (.array (before ++ [v]))

/-- A field of a record is set to a value, whether it had one before or not. -/
def SetsField (names : List String) (name : String) (v t u : Tree) : Prop :=
  (∃ w, Replaces names name w v t u) ∨ Adds names name v t u

/-- What the fields have under their names differs under one name only. -/
structure DiffersAt (names : List String) (name : String) (o : Option Tree) (v : Tree)
    (find look : String → Option Tree) : Prop where
  before : find name = o
  after : look name = some v
  others : ∀ n ∈ names, n ≠ name → look n = find n

theorem differsAt_replaced {κ : Type} [BEq κ] [LawfulBEq κ] {names : List String} {name : String}
    {w v : Tree} (key : String → κ) (injective : ∀ n, key n = key name → n = name)
    {before : List (κ × Tree)} (after : List (κ × Tree)) (new : ∀ m ∈ before, m.1 ≠ key name) :
    DiffersAt names name (some w) v (fun n => (before ++ (key name, w) :: after).lookup (key n))
      fun n => (before ++ (key name, v) :: after).lookup (key n) where
  before := lookup_insert w after new
  after := lookup_insert v after new
  others n _ other := by
    have apart : key n ≠ key name := fun same => other (injective n same)
    rw [lookup_congr_insert v before after apart, lookup_congr_insert w before after apart]

theorem differsAt_added {κ : Type} [BEq κ] [LawfulBEq κ] {names : List String} {name : String}
    {v : Tree} (key : String → κ) (injective : ∀ n, key n = key name → n = name)
    {before after : List (κ × Tree)} (new : ∀ m ∈ before ++ after, m.1 ≠ key name) :
    DiffersAt names name none v (fun n => (before ++ after).lookup (key n))
      fun n => (before ++ (key name, v) :: after).lookup (key n) where
  before := List.lookup_eq_none_iff.mpr fun m mem => by simpa using (new m mem).symm
  after := lookup_insert v after fun m mem => new m (List.mem_append_left after mem)
  others n _ other := lookup_congr_insert v before after fun same => other (injective n same)

theorem record?_object {names : List String} {ms : List (Option String × Tree)}
    {find : String → Option Tree} (found : Tree.record? names (.object ms) = some find) :
    ((∀ m ∈ ms, m.1.isSome = true) ∧ ∀ n ∈ names, (Tree.keys ms).count n ≤ 1) ∧
      find = fun n => ms.lookup (some n) := by
  rw [Tree.record?] at found
  split at found
  next admits => exact ⟨admits, (Option.some.inj found).symm⟩
  next => cases found

theorem record?_array {names : List String} {ts : List Tree} {find : String → Option Tree}
    (found : Tree.record? names (.array ts) = some find) :
    ts.length ≤ names.length ∧ find = fun n => (names.zip ts).lookup n := by
  rw [Tree.record?] at found
  split at found
  next short => exact ⟨short, (Option.some.inj found).symm⟩
  next => cases found

/-- The names up to the place of an item, the name there, and the names behind it. -/
theorem exists_split {names : List String} {name : String} {before : List Tree}
    (distinct : names.Nodup) (place : names[before.length]? = some name) :
    ∃ first later, names = first ++ name :: later ∧ first.length = before.length ∧
      ∀ m ∈ first.zip before, m.1 ≠ name := by
  obtain ⟨inside, here⟩ := List.getElem?_eq_some_iff.mp place
  have split : names = names.take before.length ++ name :: names.drop (before.length + 1) := by
    rw [← here, List.getElem_cons_drop, List.take_append_drop]
  refine ⟨_, _, split, List.length_take_of_le (Nat.le_of_lt inside), ?_⟩
  rintro m mem rfl
  rw [split] at distinct
  exact (List.nodup_append.mp distinct).2.2 _ (List.of_mem_zip mem).1 _ List.mem_cons_self rfl

theorem record?_replaces {names : List String} {name : String} {w v t u : Tree}
    {find : String → Option Tree} (distinct : names.Nodup) (known : name ∈ names)
    (edit : Replaces names name w v t u) (found : t.record? names = some find) :
    ∃ look, u.record? names = some look ∧ DiffersAt names name (some w) v find look := by
  cases edit with
  | member before after =>
    obtain ⟨⟨sound, once⟩, rfl⟩ := record?_object found
    have newBefore : name ∉ Tree.keys before := by
      have count := once name known
      rw [Tree.keys_append, Tree.keys_cons_some, List.count_append, List.count_cons_self] at count
      exact List.count_eq_zero.mp (by omega)
    refine ⟨_, if_pos ⟨?_, ?_⟩, differsAt_replaced some (fun _ => Option.some.inj) after
      (not_mem_keys_iff.mp newBefore)⟩
    · simpa only [List.forall_mem_append, List.forall_mem_cons] using sound
    · rw [← keys_congr_member w v before after]
      exact once
  | item before after place =>
    obtain ⟨short, rfl⟩ := record?_array found
    obtain ⟨first, later, rfl, length, new⟩ := exists_split distinct place
    have zip (x : Tree) : (first ++ name :: later).zip (before ++ x :: after) =
        first.zip before ++ (name, x) :: later.zip after := by
      rw [List.zip_append length, List.zip_cons_cons]
    refine ⟨_, if_pos (by simpa using short), ?_⟩
    simp only [zip]
    exact differsAt_replaced id (fun _ => id) _ new

theorem record?_adds {names : List String} {name : String} {v t u : Tree}
    {find : String → Option Tree} (distinct : names.Nodup)
    (edit : Adds names name v t u) (found : t.record? names = some find) :
    ∃ look, u.record? names = some look ∧ DiffersAt names name none v find look := by
  cases edit with
  | member before after absent =>
    obtain ⟨admits, rfl⟩ := record?_object found
    exact ⟨_, if_pos ((admitted_insert_iff fun _ => absent).mpr admits),
      differsAt_added some (fun _ => Option.some.inj) (not_mem_keys_iff.mp absent)⟩
  | item ts place =>
    obtain ⟨short, rfl⟩ := record?_array found
    obtain ⟨inside, -⟩ := List.getElem?_eq_some_iff.mp place
    obtain ⟨first, later, rfl, length, new⟩ := exists_split distinct place
    have without : (first ++ name :: later).zip ts = first.zip ts ++ [] := by
      have all : (first ++ name :: later).zip (ts ++ []) = first.zip ts ++ (name :: later).zip [] :=
        List.zip_append length
      rwa [List.append_nil, List.zip_nil_right] at all
    have longer : (first ++ name :: later).zip (ts ++ [v]) = first.zip ts ++ (name, v) :: [] := by
      rw [List.zip_append length, List.zip_cons_cons, List.zip_nil_right]
    refine ⟨_, if_pos (by rw [List.length_append]; exact inside), ?_⟩
    simp only [without, longer]
    exact differsAt_added id (fun _ => id) (by simpa using new)

/-- A change of the field undoes any earlier change of it. -/
def Field.Overrides (f : Field α) : Prop :=
  ∀ (levels : Nat) (d e : Doc) (c k : α → α), f.change levels d = .ok c → f.change levels e = .ok k →
    ∀ a, c (k a) = c a

theorem Field.overrides_of_set {n : String} {r : Bool} {decode : Decoder β} {set : β → α → α}
    (again : ∀ b c a, set b (set c a) = set b a) :
    Field.Overrides ⟨n, r, fun levels d => (decode levels d).map set⟩ := by
  intro levels d e c k left right a
  obtain ⟨b, -, rfl⟩ := exists_of_map_eq_ok left
  obtain ⟨x, -, rfl⟩ := exists_of_map_eq_ok right
  exact again b x a

theorem Field.Overrides.readings {f : Field α} (overrides : f.Overrides) {v : Tree}
    {o : Option Tree} {c k : α → α} (last : outcome f.change levels v = some k)
    (first : f.reading levels o = some c) (a : α) : k (c a) = k a := by
  cases o with
  | none => rw [eq_id_of_reading first, id]
  | some w => exact overrides _ _ _ _ _ (eq_ok_of_toOption last) (eq_ok_of_toOption first) a

/-- Where one field is set anew, the record differs by the change that the field makes. -/
theorem filled?_of_differsAt {f : Field α} {o : Option Tree} {v t u : Tree}
    {find look : String → Option Tree} {a : α} (lawful : s.Lawful) (mem : f ∈ s.fields)
    (overrides : f.Overrides) (left : t.record? (s.fields.map Field.name) = some find)
    (right : u.record? (s.fields.map Field.name) = some look)
    (differs : DiffersAt (s.fields.map Field.name) f.name o v find look)
    (filled : s.filled? levels t = some a) :
    (∃ b c, f.reading levels o = some c ∧ c b = a) ∧
      s.filled? levels u = (outcome f.change levels v).map (· a) := by
  -- The field is put last, so its change is made to the record that the others have filled.
  obtain ⟨others, perm, apart⟩ := lawful.exists_others mem
  have last : s.fields.Perm (others ++ [f]) := perm.trans (List.perm_append_singleton f others).symm
  have same : ∀ b, fill levels look others b = fill levels find others b := by
    refine fill_congr fun g found => ?_
    have name : g.name ∈ s.fields.map Field.name :=
      List.mem_map_of_mem (perm.mem_iff.mpr (List.mem_cons_of_mem f found))
    rw [differs.others g.name name (apart g found)]
  rw [Schema.filled?, left, Option.bind_some, fill_perm last lawful.independent, fill_append] at filled
  obtain ⟨b, others, filled⟩ := Option.bind_eq_some_iff.mp filled
  obtain ⟨c, first, filled⟩ := Option.bind_eq_some_iff.mp filled
  obtain rfl : c b = a := Option.some.inj filled
  rw [differs.before] at first
  refine ⟨⟨b, c, first, rfl⟩, ?_⟩
  rw [Schema.filled?, right, Option.bind_some, fill_perm last lawful.independent, fill_append, same,
    others, Option.bind_some, fill, differs.after, Field.reading]
  cases found : outcome f.change levels v with
  | none => rfl
  | some k => exact congrArg some (overrides.readings found first b).symm

theorem exists_record? {t : Tree} {a : α} (filled : s.filled? levels t = some a) :
    ∃ find, t.record? (s.fields.map Field.name) = some find := by
  rw [Schema.filled?] at filled
  obtain ⟨find, found, -⟩ := Option.bind_eq_some_iff.mp filled
  exact ⟨find, found⟩

/-- The field of a name keeps what its decoder returns, in place of what it kept before. -/
structure Schema.Keeps (s : Schema α) (name : String) (decode : Decoder β) (set : β → α → α) :
    Prop where
  field : ∃ required, ⟨name, required, fun levels d => (decode levels d).map set⟩ ∈ s.fields
  again : ∀ b c a, set b (set c a) = set b a

section Keeping

variable {name : String} {decode : Decoder β} {set : β → α → α} {v t u : Tree} {a : α}
  (lawful : s.Lawful) (each : ∀ f ∈ s.fields, Plain f.change levels)
  (keeps : s.Keeps name decode set) (decoded : outcome s.decode (levels + 1) t = some a)

include lawful each keeps decoded

/-- A record keeps what a field read before, and after the edit what it reads then. -/
theorem outcome_replaces {w : Tree} (edit : Replaces (s.fields.map Field.name) name w v t u) :
    (∃ b c, outcome decode levels w = some c ∧ set c b = a) ∧
      outcome s.decode (levels + 1) u = (outcome decode levels v).map (set · a) := by
  obtain ⟨required, mem⟩ := keeps.field
  rw [outcome_record lawful each] at decoded ⊢
  obtain ⟨find, left⟩ := exists_record? decoded
  obtain ⟨look, right, differs⟩ :=
    record?_replaces lawful.names (List.mem_map_of_mem mem) edit left
  obtain ⟨⟨b, k, first, same⟩, second⟩ := filled?_of_differsAt lawful mem
    (Field.overrides_of_set keeps.again) left right differs decoded
  rw [Field.reading, outcome_mapped] at first
  obtain ⟨c, read, rfl⟩ := Option.map_eq_some_iff.mp first
  rw [second, outcome_mapped, Option.map_map]
  exact ⟨⟨b, c, read, same⟩, rfl⟩

theorem outcome_setsField (edit : SetsField (s.fields.map Field.name) name v t u) :
    outcome s.decode (levels + 1) u = (outcome decode levels v).map (set · a) := by
  obtain ⟨w, replaced⟩ | added := edit
  · exact (outcome_replaces lawful each keeps decoded replaced).2
  · obtain ⟨required, mem⟩ := keeps.field
    rw [outcome_record lawful each] at decoded ⊢
    obtain ⟨find, left⟩ := exists_record? decoded
    obtain ⟨look, right, differs⟩ := record?_adds lawful.names added left
    have whole := (filled?_of_differsAt lawful mem (Field.overrides_of_set keeps.again) left right
      differs decoded).2
    rw [whole, outcome_mapped, Option.map_map]
    rfl

end Keeping

/-- One item of an array is edited. -/
inductive AtIndex (i : Nat) (edit : Tree → Tree → Prop) : Tree → Tree → Prop
  | item {t u : Tree} (before after : List Tree) (place : before.length = i) (inner : edit t u) :
      AtIndex i edit (.array (before ++ t :: after)) (.array (before ++ u :: after))

theorem mapM_of_item {f : Tree → Option α} {t : Tree} {before after : List Tree} {as : List α}
    (read : (before ++ t :: after).mapM f = some as) :
    ∃ a, f t = some a ∧ as[before.length]? = some a ∧
      ∀ u, (before ++ u :: after).mapM f = (f u).map fun b => as.set before.length b := by
  induction before generalizing as with
  | nil =>
    rw [List.nil_append, List.mapM_cons] at read
    obtain ⟨a, first, read⟩ := Option.bind_eq_some_iff.mp read
    obtain ⟨rest, later, read⟩ := Option.bind_eq_some_iff.mp read
    obtain rfl : a :: rest = as := Option.some.inj read
    refine ⟨a, first, rfl, fun u => ?_⟩
    rw [List.nil_append, List.mapM_cons, later]
    cases f u <;> rfl
  | cons w before ih =>
    rw [List.cons_append, List.mapM_cons] at read
    obtain ⟨a, first, read⟩ := Option.bind_eq_some_iff.mp read
    obtain ⟨rest, later, read⟩ := Option.bind_eq_some_iff.mp read
    obtain rfl : a :: rest = as := Option.some.inj read
    obtain ⟨b, item, place, others⟩ := ih later
    refine ⟨b, item, place, fun u => ?_⟩
    rw [List.cons_append, List.mapM_cons, first, others]
    cases f u <;> rfl

end AnalysisBrowser.Json
