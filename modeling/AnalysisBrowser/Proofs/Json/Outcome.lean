import AnalysisBrowser.Proofs.Json.Reading

/-!
# What decoders return for trees

The outcome of a decoder on a tree is the value it returns for a document of the tree, or nothing.
A decoder is plain when the outcome decides what it returns for every document of the tree, wherever
its parts stand, and when the outcome does not change with the order of the members of an object.
Both pass from the decoders of parts to the decoder of the whole.
-/
namespace AnalysisBrowser.Json

variable {α β γ : Type} {levels : Nat}

@[simp] theorem toOption_ok (a : α) : (Except.ok a : Except Fault α).toOption = some a := rfl

@[simp] theorem toOption_error (fault : Fault) :
    (Except.error fault : Except Fault α).toOption = none := rfl

theorem eq_ok_of_toOption {x : Except Fault α} {a : α} (h : x.toOption = some a) : x = .ok a := by
  cases x with
  | error fault => cases h
  | ok b =>
    cases h
    rfl

theorem exists_fault_of_toOption {x : Except Fault α} (h : x.toOption = none) :
    ∃ fault, x = .error fault := by
  cases x with
  | error fault => exact ⟨fault, rfl⟩
  | ok b => cases h

@[simp] theorem toOption_map (f : α → β) (x : Except Fault α) :
    (x.map f).toOption = x.toOption.map f := by
  cases x with
  | error fault => rfl
  | ok a => rfl

/-- What a decoder returns for a tree, nothing where it reports a fault. -/
def outcome (decode : Decoder α) (levels : Nat) (t : Tree) : Option α :=
  (decode levels t.doc).toOption

/-- The decoder returns `f t` for every document of a tree `t`. -/
def Reads (decode : Decoder α) (levels : Nat) (f : Tree → Option α) : Prop :=
  ∀ ⦃d : Doc⦄ ⦃t : Tree⦄, d.Renders t → (decode levels d).toOption = f t

theorem Reads.outcome_eq {decode : Decoder α} {f : Tree → Option α} (reads : Reads decode levels f) :
    outcome decode levels = f := by
  funext t
  exact reads t.renders_doc

structure Plain (decode : Decoder α) (levels : Nat) : Prop where
  places : Reads decode levels (outcome decode levels)
  order : ∀ {t u : Tree}, t.Distinct → t.Permuted u →
    outcome decode levels t = outcome decode levels u

theorem plain_of_reads {decode : Decoder α} {f : Tree → Option α} (reads : Reads decode levels f)
    (order : ∀ {t u : Tree}, t.Distinct → t.Permuted u → f t = f u) : Plain decode levels := by
  have same := reads.outcome_eq
  refine ⟨?_, ?_⟩
  · rw [same]
    exact reads
  · intro t u distinct permuted
    rw [same]
    exact order distinct permuted

/-- A function that is undefined on arrays and objects does not see the order of members. -/
theorem eq_of_permuted {f : Tree → Option α} (array : ∀ ts, f (.array ts) = none)
    (object : ∀ ms, f (.object ms) = none) {t u : Tree} (permuted : t.Permuted u) : f t = f u := by
  cases permuted with
  | here perm => rw [object, object]
  | item before after inner => rw [array, array]
  | member before after key inner => rw [object, object]

theorem outcome_mapped (decode : Decoder β) (f : β → γ) (levels : Nat) (t : Tree) :
    outcome (fun levels d => (decode levels d).map f) levels t =
      (outcome decode levels t).map f :=
  toOption_map f _

/-- What is made of a value is plain if the value is; so is a change that sets a part. -/
theorem plain_mapped {decode : Decoder β} {f : β → γ} (plain : Plain decode levels) :
    Plain (fun levels d => (decode levels d).map f) levels := by
  refine ⟨?_, ?_⟩
  · intro d t renders
    rw [outcome_mapped, toOption_map, plain.places renders]
  · intro t u distinct permuted
    rw [outcome_mapped, outcome_mapped, plain.order distinct permuted]

theorem reads_text : Reads Decoder.text levels Tree.text? := by
  intro d t renders
  cases renders <;> rfl

theorem plain_text : Plain Decoder.text levels :=
  plain_of_reads reads_text fun _ permuted => eq_of_permuted (fun _ => rfl) (fun _ => rfl) permuted

/-- The boolean that a tree is. -/
def Tree.flag? : Tree → Option Bool
  | .bool b => some b
  | _ => none

theorem reads_flag : Reads Decoder.flag levels Tree.flag? := by
  intro d t renders
  cases renders <;> rfl

theorem plain_flag : Plain Decoder.flag levels :=
  plain_of_reads reads_flag fun _ permuted => eq_of_permuted (fun _ => rfl) (fun _ => rfl) permuted

/-- The natural number of 64 bits that a tree is. -/
def Tree.count? : Tree → Option UInt64
  | .number l =>
    match l.reading with
    | .natural n => some n.toUInt64
    | _ => none
  | _ => none

theorem reads_count : Reads Decoder.count levels Tree.count? := by
  intro d t renders
  cases renders with
  | @number start stop l =>
    rw [Decoder.count, Tree.count?]
    cases l.reading <;> rfl
  | _ => rfl

theorem plain_count : Plain Decoder.count levels :=
  plain_of_reads reads_count fun _ permuted => eq_of_permuted (fun _ => rfl) (fun _ => rfl) permuted

/-- What a decoder of optional values makes of a tree. -/
def Tree.optional? (f : Tree → Option α) : Tree → Option (Option α)
  | .null => some none
  | t => (f t).map some

theorem optional?_of_permuted {f : Tree → Option α} {t u : Tree} (permuted : t.Permuted u)
    (same : f t = f u) : Tree.optional? f t = Tree.optional? f u := by
  cases permuted <;> simp only [Tree.optional?, same]

theorem reads_optional {decode : Decoder α} {f : Tree → Option α} (reads : Reads decode levels f) :
    Reads (Decoder.optional decode) levels (Tree.optional? f) := by
  intro d t renders
  have value := reads renders
  cases renders with
  | null => rfl
  | _ => simp only [Decoder.optional, Tree.optional?, toOption_map, value]

theorem plain_optional {decode : Decoder α} (plain : Plain decode levels) :
    Plain (Decoder.optional decode) levels :=
  plain_of_reads (reads_optional plain.places) fun distinct permuted =>
    optional?_of_permuted permuted (plain.order distinct permuted)

def Tree.nullAs? (default : α) (f : Tree → Option α) (t : Tree) : Option α :=
  (optional? f t).map (·.getD default)

theorem reads_nullAs {decode : Decoder α} {f : Tree → Option α} (default : α)
    (reads : Reads decode levels f) :
    Reads (Decoder.nullAs default decode) levels (Tree.nullAs? default f) := by
  intro d t renders
  rw [Decoder.nullAs, toOption_map, reads_optional reads renders, Tree.nullAs?]

theorem plain_nullAs {decode : Decoder α} (default : α) (plain : Plain decode levels) :
    Plain (Decoder.nullAs default decode) levels :=
  plain_of_reads (reads_nullAs default plain.places) fun distinct permuted => by
    rw [Tree.nullAs?, Tree.nullAs?, optional?_of_permuted permuted (plain.order distinct permuted)]

/-- Only null makes a difference to a decoder that takes null for something else. -/
theorem outcome_nullAs {decode : Decoder α} (default : α) (plain : Plain decode levels) {t : Tree}
    (solid : t ≠ .null) :
    outcome (Decoder.nullAs default decode) levels t = outcome decode levels t := by
  rw [(reads_nullAs default plain.places).outcome_eq, Tree.nullAs?]
  have value : Tree.optional? (outcome decode levels) t = (outcome decode levels t).map some := by
    cases t with
    | null => exact (solid rfl).elim
    | _ => rfl
  rw [value]
  cases outcome decode levels t <;> rfl

/-- The values of the items of an array. -/
def Tree.list? (f : Tree → Option α) : Nat → Tree → Option (List α)
  | _ + 1, .array ts => ts.mapM f
  | _, _ => none

theorem toOption_items {decode : Doc → Except Fault α} {f : Tree → Option α} {is : Items}
    {ts : List Tree} (reads : ∀ ⦃d : Doc⦄ ⦃t : Tree⦄, d.Renders t → (decode d).toOption = f t)
    (render : is.Render ts) : (Decoder.items decode is).toOption = ts.mapM f := by
  induction ts generalizing is with
  | nil =>
    cases render
    rfl
  | cons t ts ih =>
    cases render with
    | @item d _ is _ renders later =>
      have first := reads renders
      rw [List.mapM_cons, ← first, ← ih later, Decoder.items]
      cases decode d with
      | error fault => rfl
      | ok a => cases Decoder.items decode is <;> rfl

theorem reads_list {decode : Decoder α} {f : Tree → Option α} (reads : Reads decode (levels - 1) f) :
    Reads (Decoder.list decode) levels (Tree.list? f levels) := by
  intro d t renders
  cases renders with
  | array render =>
    cases levels with
    | zero => rfl
    | succ levels => exact toOption_items reads render
  | _ => cases levels <;> rfl

theorem mapM_congr_item {f : Tree → Option α} {t u : Tree} (before after : List Tree)
    (same : f t = f u) : (before ++ t :: after).mapM f = (before ++ u :: after).mapM f := by
  simp only [List.mapM_append, List.mapM_cons, same]

theorem list?_of_permuted {f : Tree → Option α} {t u : Tree} (distinct : t.Distinct)
    (permuted : t.Permuted u)
    (same : ∀ {t u : Tree}, t.Distinct → t.Permuted u → f t = f u) :
    Tree.list? f levels t = Tree.list? f levels u := by
  cases levels with
  | zero => rfl
  | succ levels =>
    cases permuted with
    | here perm => rfl
    | member before after key inner => rfl
    | item before after inner =>
      cases distinct with
      | array each => exact mapM_congr_item before after (same (each _ (by simp)) inner)

theorem plain_list {decode : Decoder α} (plain : Plain decode (levels - 1)) :
    Plain (Decoder.list decode) levels :=
  plain_of_reads (reads_list plain.places) fun distinct permuted =>
    list?_of_permuted distinct permuted plain.order

theorem outcome_list {decode : Decoder α} (plain : Plain decode (levels - 1)) :
    outcome (Decoder.list decode) levels = Tree.list? (outcome decode (levels - 1)) levels :=
  (reads_list plain.places).outcome_eq

/-- The members of an object, inserted in turn. -/
def Tree.gather (f : Tree → Option α) : Entries α → List (Option String × Tree) → Option (Entries α)
  | found, [] => some found
  | found, (some k, t) :: ms => (f t).bind fun a => gather f (found.insert k a) ms
  | _, (none, _) :: _ => none

def Tree.map? (f : Tree → Option α) : Nat → Tree → Option (Entries α)
  | _ + 1, .object ms => gather f .empty ms
  | _, _ => none

theorem toOption_entries {decode : Doc → Except Fault α} {f : Tree → Option α} {ms : Members}
    {members : List (Option String × Tree)} (found : Entries α)
    (reads : ∀ ⦃d : Doc⦄ ⦃t : Tree⦄, d.Renders t → (decode d).toOption = f t)
    (render : ms.Render members) :
    (Decoder.entries decode found ms).toOption = Tree.gather f found members := by
  induction members generalizing found ms with
  | nil =>
    cases render
    rfl
  | cons m members ih =>
    cases render with
    | flawed renders later => rfl
    | @member stop next place key d t ms _ renders later =>
      have value := reads renders
      rw [Tree.gather, ← value, Decoder.entries]
      cases decode d with
      | error fault => rfl
      | ok a => exact ih (found.insert key a) later

theorem reads_map {decode : Decoder α} {f : Tree → Option α} (reads : Reads decode (levels - 1) f) :
    Reads (Decoder.map decode) levels (Tree.map? f levels) := by
  intro d t renders
  cases renders with
  | object render =>
    cases levels with
    | zero => rfl
    | succ levels => exact toOption_entries .empty reads render
  | _ => cases levels <;> rfl

theorem mem_insertEntry_iff {key : String} {a : α} {entry : String × α}
    {entries : List (String × α)} (ascending : entries.Pairwise fun a b => a.1 < b.1) :
    entry ∈ insertEntry key a entries ↔ entry = (key, a) ∨ entry ∈ entries ∧ entry.1 ≠ key := by
  induction entries with
  | nil => simp [insertEntry]
  | cons first rest ih =>
    obtain ⟨k, b⟩ := first
    obtain ⟨above, ascending⟩ := List.pairwise_cons.mp ascending
    have apart : ∀ e ∈ rest, e.1 ≠ k := fun e mem => (String.ne_of_lt (above e mem)).symm
    simp only [insertEntry]
    split
    next below =>
      -- All keys behind this place are greater, so no entry is replaced.
      have other : ∀ e ∈ (k, b) :: rest, e.1 ≠ key := by
        intro e mem
        obtain rfl | mem := List.mem_cons.mp mem
        · exact (String.ne_of_lt below).symm
        · exact (String.ne_of_lt (String.lt_trans below (above e mem))).symm
      rw [List.mem_cons]
      exact or_congr_right ⟨fun mem => ⟨mem, other entry mem⟩, And.left⟩
    next notBelow =>
      split
      next same =>
        subst same
        rw [List.mem_cons, List.mem_cons]
        constructor
        · rintro (rfl | mem)
          · exact .inl rfl
          · exact .inr ⟨.inr mem, apart entry mem⟩
        · rintro (rfl | ⟨rfl | mem, other⟩)
          · exact .inl rfl
          · exact (other rfl).elim
          · exact .inr mem
      next other =>
        rw [List.mem_cons, List.mem_cons, ih ascending]
        constructor
        · rintro (rfl | rfl | ⟨mem, apart⟩)
          · exact .inr ⟨.inl rfl, Ne.symm other⟩
          · exact .inl rfl
          · exact .inr ⟨.inr mem, apart⟩
        · rintro (rfl | ⟨rfl | mem, apart⟩)
          · exact .inr (.inl rfl)
          · exact .inl rfl
          · exact .inr (.inr ⟨mem, apart⟩)

/-- Two maps with the same entries are equal. -/
theorem Entries.eq_of_mem_iff {a b : Entries α} (same : ∀ e, e ∈ a.toList ↔ e ∈ b.toList) :
    a = b := by
  have nodup (c : Entries α) : c.toList.Nodup :=
    c.ascending.imp fun below equal => String.ne_of_lt below (congrArg Prod.fst equal)
  have perm : a.toList.Perm b.toList := (List.perm_ext_iff_of_nodup (nodup a) (nodup b)).mpr same
  have lists : a.toList = b.toList :=
    perm.eq_of_pairwise (fun _ _ _ _ below above => (String.lt_asymm below above).elim)
      a.ascending b.ascending
  cases a
  cases b
  cases lists
  rfl

/-- Entries of different keys may be inserted in either order. -/
theorem Entries.insert_comm {k l : String} (other : k ≠ l) (a b : α) (entries : Entries α) :
    (entries.insert l b).insert k a = (entries.insert k a).insert l b := by
  refine eq_of_mem_iff fun e => ?_
  simp only [insert, mem_insertEntry_iff entries.ascending,
    mem_insertEntry_iff (pairwise_insertEntry _ _ entries.ascending)]
  constructor
  · rintro (rfl | ⟨rfl | ⟨mem, _⟩, _⟩)
    · exact .inr ⟨.inl rfl, other⟩
    · exact .inl rfl
    · exact .inr ⟨.inr ⟨mem, ‹_›⟩, ‹_›⟩
  · rintro (rfl | ⟨rfl | ⟨mem, _⟩, _⟩)
    · exact .inr ⟨.inl rfl, other.symm⟩
    · exact .inl rfl
    · exact .inr ⟨.inr ⟨mem, ‹_›⟩, ‹_›⟩

theorem gather_perm {f : Tree → Option α} {ms ns : List (Option String × Tree)}
    (perm : ms.Perm ns) (once : (Tree.keys ms).Nodup) (found : Entries α) :
    Tree.gather f found ms = Tree.gather f found ns := by
  -- Only neighbours change places, and as their keys differ the two insertions commute.
  induction perm generalizing found with
  | nil => rfl
  | @cons m ms ns perm ih =>
    obtain ⟨k, t⟩ := m
    cases k with
    | none => rfl
    | some k =>
      have later : (Tree.keys ms).Nodup := (List.nodup_cons.mp once).2
      simp only [Tree.gather, ih later]
  | swap m n ms =>
    obtain ⟨k, t⟩ := m
    obtain ⟨l, u⟩ := n
    cases k with
    | none =>
      cases l with
      | none => rfl
      | some l => cases h : f u <;> simp [Tree.gather, h]
    | some k =>
      cases l with
      | none => cases h : f t <;> simp [Tree.gather, h]
      | some l =>
        have other : k ≠ l := by
          rintro rfl
          simp at once
        simp only [Tree.gather]
        cases f t with
        | none => cases f u <;> rfl
        | some a =>
          cases f u with
          | none => rfl
          | some b => simp only [Option.bind_some, Entries.insert_comm other]
  | @trans ms ns os first second ihFirst ihSecond =>
    have between : (Tree.keys ns).Nodup := (Tree.keys_perm first).nodup_iff.mp once
    rw [ihFirst once, ihSecond between]

theorem gather_congr_member {f : Tree → Option α} {t u : Tree}
    (before after : List (Option String × Tree)) (key : Option String) (same : f t = f u)
    (found : Entries α) :
    Tree.gather f found (before ++ (key, t) :: after) =
      Tree.gather f found (before ++ (key, u) :: after) := by
  induction before generalizing found with
  | nil =>
    cases key with
    | none => rfl
    | some k => simp only [List.nil_append, Tree.gather, same]
  | cons m before ih =>
    obtain ⟨k, v⟩ := m
    cases k with
    | none => rfl
    | some k => simp only [List.cons_append, Tree.gather, ih]

theorem plain_map {decode : Decoder α} (plain : Plain decode (levels - 1)) :
    Plain (Decoder.map decode) levels := by
  refine plain_of_reads (reads_map plain.places) fun distinct permuted => ?_
  cases levels with
  | zero => rfl
  | succ levels =>
    cases permuted with
    | item before after inner => rfl
    | here perm =>
      cases distinct with
      | object once each => exact gather_perm perm once .empty
    | member before after key inner =>
      cases distinct with
      | object once each =>
        exact gather_congr_member before after key
          (plain.order (each (key, _) (by simp)) inner) .empty

/-- The variant that a member names whose value is null. -/
def Tree.variant? (variants : List (String × α)) : Option String × Tree → Option α
  | (key, .null) => key.bind fun k => variants.lookup k
  | _ => none

def Tree.variantMember? (variants : List (String × α)) : List (Option String × Tree) → Option α
  | [m] => variant? variants m
  | _ => none

/-- The value that a tree names, as a string or as an object of one member. -/
def Tree.choice? (variants : List (String × α)) (levels : Nat) : Tree → Option α
  | .text s => s.bind fun name => variants.lookup name
  | .object ms => if levels = 0 then none else variantMember? variants ms
  | _ => none

theorem toOption_variantOf (variants : List (String × α)) (name : String) (stop : Position) :
    (Decoder.variantOf variants name stop).toOption = variants.lookup name := by
  rw [Decoder.variantOf]
  cases variants.lookup name with
  | none => rfl
  | some a => rfl

theorem toOption_variantMember {variants : List (String × α)} {ms : Members}
    {members : List (Option String × Tree)} (render : ms.Render members) :
    (Decoder.variantMember variants ms).toOption = Tree.variantMember? variants members := by
  cases render with
  | done => rfl
  | flawed renders later => cases later <;> cases renders <;> rfl
  | @member stop next place key d t ms members renders later =>
    have named := toOption_variantOf variants key stop
    rw [Decoder.variantMember]
    cases found : Decoder.variantOf variants key stop with
    | error fault =>
      rw [found] at named
      cases later <;> cases renders <;> first | rfl | exact named
    | ok a =>
      rw [found] at named
      cases later <;> cases renders <;> first | rfl | exact named

theorem reads_choice (variants : List (String × α)) :
    Reads (Decoder.choice variants) levels (Tree.choice? variants levels) := by
  intro d t renders
  cases renders with
  | text =>
    rw [Decoder.choice]
    exact toOption_variantOf variants _ _
  | object render =>
    cases levels with
    | zero => rfl
    | succ levels => exact toOption_variantMember render
  | _ => cases levels <;> rfl

theorem variantMember?_of_perm {variants : List (String × α)}
    {ms ns : List (Option String × Tree)} (perm : ms.Perm ns) :
    Tree.variantMember? variants ms = Tree.variantMember? variants ns := by
  match ms, ns, perm.length_eq with
  | [], [], _ => rfl
  | [m], [n], _ => rw [List.singleton_perm_singleton.mp perm]
  | _ :: _ :: _, _ :: _ :: _, _ => rfl

theorem variantMember?_congr_member {variants : List (String × α)} {t u : Tree}
    (before after : List (Option String × Tree)) (key : Option String) (inner : t.Permuted u) :
    Tree.variantMember? variants (before ++ (key, t) :: after) =
      Tree.variantMember? variants (before ++ (key, u) :: after) := by
  match before, after with
  | [], [] => cases inner <;> rfl
  | [], _ :: _ => rfl
  | [_], _ => rfl
  | _ :: _ :: _, _ => rfl

theorem plain_choice (variants : List (String × α)) : Plain (Decoder.choice variants) levels := by
  refine plain_of_reads (reads_choice variants) fun _ permuted => ?_
  cases permuted with
  | item before after inner => rfl
  | here perm => simp only [Tree.choice?, variantMember?_of_perm perm]
  | member before after key inner =>
    simp only [Tree.choice?, variantMember?_congr_member before after key inner]

/-- A value of any form is read without a fault: no number is out of range, strings and keys are
sound, and arrays and objects are nested no deeper than allowed. -/
inductive Tree.Fits : Nat → Tree → Prop
  | null {levels : Nat} : Fits levels .null
  | bool {levels : Nat} {b : Bool} : Fits levels (.bool b)
  | number {levels : Nat} {l : Number.Literal} (range : ∀ unread, l.reading ≠ .outOfRange unread) :
      Fits levels (.number l)
  | text {levels : Nat} {s : String} : Fits levels (.text (some s))
  | array {levels : Nat} {ts : List Tree} (each : ∀ t ∈ ts, Fits levels t) :
      Fits (levels + 1) (.array ts)
  | object {levels : Nat} {ms : List (Option String × Tree)} (sound : ∀ m ∈ ms, m.1.isSome = true)
      (each : ∀ m ∈ ms, Fits levels m.2) : Fits (levels + 1) (.object ms)

theorem fits_array_iff {ts : List Tree} :
    Tree.Fits (levels + 1) (.array ts) ↔ ∀ t ∈ ts, t.Fits levels := by
  constructor
  · rintro (_ | _ | _ | _ | each)
    exact each
  · exact .array

theorem fits_object_iff {ms : List (Option String × Tree)} :
    Tree.Fits (levels + 1) (.object ms) ↔
      (∀ m ∈ ms, m.1.isSome = true) ∧ ∀ m ∈ ms, m.2.Fits levels := by
  constructor
  · rintro (_ | _ | _ | _ | _ | ⟨sound, each⟩)
    exact ⟨sound, each⟩
  · rintro ⟨sound, each⟩
    exact .object sound each

theorem checkItems_iff {ts : List Tree} {is : Items}
    (each : ∀ t ∈ ts, ∀ {d : Doc}, d.Renders t → (Decoder.checkDoc levels d = .ok () ↔ t.Fits levels))
    (render : is.Render ts) :
    Decoder.checkItems levels is = .ok () ↔ ∀ t ∈ ts, t.Fits levels := by
  induction ts generalizing is with
  | nil =>
    cases render
    simp [Decoder.checkItems]
  | cons t ts ih =>
    obtain ⟨first, later⟩ := List.forall_mem_cons.mp each
    cases render with
    | @item d _ is _ renders render =>
      rw [List.forall_mem_cons, ← first renders, ← ih later render, Decoder.checkItems]
      cases Decoder.checkDoc levels d with
      | error fault => simp
      | ok u => simp

theorem checkMembers_iff {members : List (Option String × Tree)} {ms : Members}
    (each : ∀ m ∈ members, ∀ {d : Doc}, d.Renders m.2 →
      (Decoder.checkDoc levels d = .ok () ↔ m.2.Fits levels))
    (render : ms.Render members) :
    Decoder.checkMembers levels ms = .ok () ↔
      (∀ m ∈ members, m.1.isSome = true) ∧ ∀ m ∈ members, m.2.Fits levels := by
  induction members generalizing ms with
  | nil =>
    cases render
    simp [Decoder.checkMembers]
  | cons m members ih =>
    obtain ⟨first, later⟩ := List.forall_mem_cons.mp each
    cases render with
    | flawed renders render => simp [Decoder.checkMembers]
    | @member stop next place key d t ms _ renders render =>
      rw [List.forall_mem_cons, List.forall_mem_cons, ← first renders, Decoder.checkMembers]
      cases Decoder.checkDoc levels d with
      | error fault => simp
      | ok u => simp [ih later render]

/-- A value of any form is passed exactly when it fits. -/
theorem checkDoc_iff {d : Doc} {t : Tree} (renders : d.Renders t) :
    Decoder.checkDoc levels d = .ok () ↔ t.Fits levels := by
  induction t using Tree.induct generalizing levels d with
  | null =>
    cases renders
    exact iff_of_true rfl .null
  | bool b =>
    cases renders
    exact iff_of_true rfl .bool
  | text s =>
    cases renders with
    | text => exact iff_of_true rfl .text
    | flawed => exact iff_of_false nofun nofun
  | number l =>
    cases renders
    rw [Decoder.checkDoc, Scalar.fault?]
    cases reading : l.reading with
    | outOfRange unread =>
      refine iff_of_false nofun ?_
      rintro (_ | _ | range)
      exact range unread reading
    | _ => exact iff_of_true rfl (.number fun _ => by rw [reading]; nofun)
  | array ts ih =>
    cases renders with
    | array render =>
      cases levels with
      | zero => exact iff_of_false nofun nofun
      | succ levels =>
        rw [fits_array_iff]
        exact checkItems_iff (fun t mem => ih t mem) render
  | object ms ih =>
    cases renders with
    | object render =>
      cases levels with
      | zero => exact iff_of_false nofun nofun
      | succ levels =>
        rw [fits_object_iff]
        exact checkMembers_iff (fun m mem => ih m mem) render

theorem fits_iff_of_permuted {t u : Tree} (permuted : t.Permuted u) :
    t.Fits levels ↔ u.Fits levels := by
  induction permuted generalizing levels with
  | here perm =>
    cases levels with
    | zero => exact iff_of_false nofun nofun
    | succ levels => simp only [fits_object_iff, perm.mem_iff]
  | item before after inner ih =>
    cases levels with
    | zero => exact iff_of_false nofun nofun
    | succ levels => simp only [fits_array_iff, List.forall_mem_append, List.forall_mem_cons, ih]
  | member before after key inner ih =>
    cases levels with
    | zero => exact iff_of_false nofun nofun
    | succ levels => simp only [fits_object_iff, List.forall_mem_append, List.forall_mem_cons, ih]

theorem outcome_checkDoc_iff {t : Tree} :
    outcome Decoder.checkDoc levels t = some () ↔ t.Fits levels := by
  rw [← checkDoc_iff t.renders_doc, outcome]
  cases Decoder.checkDoc levels t.doc with
  | error fault => simp
  | ok u => simp

theorem plain_checkDoc : Plain Decoder.checkDoc levels where
  places := by
    intro d t renders
    have same : Decoder.checkDoc levels d = .ok () ↔ outcome Decoder.checkDoc levels t = some () :=
      (checkDoc_iff renders).trans outcome_checkDoc_iff.symm
    cases found : Decoder.checkDoc levels d with
    | ok u => exact (same.mp found).symm
    | error fault =>
      have rejected : outcome Decoder.checkDoc levels t ≠ some () := by
        intro accepted
        cases found.symm.trans (same.mpr accepted)
      cases h : outcome Decoder.checkDoc levels t with
      | none => rfl
      | some u => exact (rejected h).elim
  order _ permuted := by
    refine Option.ext fun _ => ?_
    rw [outcome_checkDoc_iff, outcome_checkDoc_iff]
    exact fits_iff_of_permuted permuted

/-- The text of a value that passes, if it is one. -/
def Tree.lenient? (levels : Nat) (t : Tree) : Option (Option String) :=
  (outcome Decoder.checkDoc levels t).map fun _ => t.text?

theorem reads_lenientText : Reads Decoder.lenientText levels (Tree.lenient? levels) := by
  intro d t renders
  rw [Tree.lenient?, ← plain_checkDoc.places renders, Decoder.lenientText, toOption_map]
  cases renders <;> rfl

theorem plain_lenientText : Plain Decoder.lenientText levels := by
  refine plain_of_reads reads_lenientText fun {t u} distinct permuted => ?_
  have text : t.text? = u.text? := eq_of_permuted (fun _ => rfl) (fun _ => rfl) permuted
  rw [Tree.lenient?, Tree.lenient?, plain_checkDoc.order distinct permuted, text]

/-- A value that fits is read as its text, if it has one. -/
theorem outcome_lenientText_of_fits {t : Tree} (fits : t.Fits levels) :
    outcome Decoder.lenientText levels t = some t.text? := by
  rw [reads_lenientText.outcome_eq, Tree.lenient?, outcome_checkDoc_iff.mpr fits, Option.map_some]

/-- A value that does not fit is rejected, although nothing is asked of its form. -/
theorem outcome_lenientText_of_not_fits {t : Tree} (unfit : ¬ t.Fits levels) :
    outcome Decoder.lenientText levels t = none := by
  rw [reads_lenientText.outcome_eq, Tree.lenient?, Option.map_eq_none_iff]
  cases h : outcome Decoder.checkDoc levels t with
  | none => rfl
  | some u => exact (unfit (outcome_checkDoc_iff.mp h)).elim

/-- A text of a tree is decoded to the outcome of the tree. -/
theorem toOption_decodeText {decode : Decoder α} (plain : Plain decode nestingLimit) {t : Tree}
    {text : String} (isText : t.IsText text) :
    (decodeText decode text).toOption = outcome decode nestingLimit t := by
  obtain ⟨d, read, renders⟩ := read_of_isText isText
  rw [← plain.places renders, decodeText]
  simp only [read]
  cases decode nestingLimit d <;> rfl

end AnalysisBrowser.Json
