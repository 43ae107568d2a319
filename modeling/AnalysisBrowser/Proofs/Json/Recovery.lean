import AnalysisBrowser.Json.Decoder
import AnalysisBrowser.Proofs.Json.Compact

/-!
# Decoders that recover what was written

A decoder recovers a value from its JSON form when it returns the value for every document that
denotes the form, as long as the form is not nested deeper than the decoder may go. The property
passes from the parts of a value to the whole: for lists, maps, options and records there is one
lemma each, and a type of the model needs only the list of its fields.
-/
namespace AnalysisBrowser.Json

variable {α β : Type} {levels : Nat}

/-- The decoder returns the value for every document of its JSON form. -/
structure Recovers (decode : Decoder α) (levels : Nat) (j : Json) (a : α) : Prop where
  wellFormed : j.WellFormed
  decodes : j.nesting ≤ levels → ∀ d : Doc, d.Denotes j → decode levels d = .ok a

theorem recovers_text (s : String) : Recovers Decoder.text levels (.string s) s := by
  refine ⟨.string s, fun _ d denotes => ?_⟩
  cases denotes
  rfl

theorem recovers_flag (b : Bool) : Recovers Decoder.flag levels (.bool b) b := by
  refine ⟨.bool b, fun _ d denotes => ?_⟩
  cases denotes
  rfl

theorem wellFormed_ofNat (n : Nat) : (Number.Literal.ofNat n).WellFormed where
  whole := by
    rcases Nat.eq_zero_or_pos n with rfl | pos
    · exact .inl rfl
    · exact .inr (Number.digits_of_pos pos)
  wholeDigits _ mem := Number.isDigit_of_mem_digits mem
  fractionDigits _ mem := by cases mem
  exponent _ none := by cases none

theorem reading_ofNat {n : Nat} (h : n < Number.countLimit) :
    (Number.Literal.ofNat n).reading = .natural n := by
  simp only [Number.Literal.reading, Number.Literal.ofNat, List.isEmpty_nil, Option.isNone_none,
    Bool.and_self, if_true, Number.readDigits_digits h, Bool.not_false]

theorem recovers_count (n : UInt64) : Recovers Decoder.count levels (.word n) n := by
  refine ⟨.number (wellFormed_ofNat _), fun _ d denotes => ?_⟩
  cases denotes
  simp only [Decoder.count, reading_ofNat n.toNat_lt]
  rw [Nat.toUInt64_eq, UInt64.ofNat_toNat]

theorem recovers_lenientText (s : String) :
    Recovers Decoder.lenientText levels (.string s) (some s) := by
  refine ⟨.string s, fun _ d denotes => ?_⟩
  cases denotes
  rfl

/-- A named value is recovered from its name. -/
theorem recovers_choice {variants : List (String × α)} {name : String} {a : α}
    (named : variants.lookup name = some a) :
    Recovers (Decoder.choice variants) levels (.string name) a := by
  refine ⟨.string name, fun _ d denotes => ?_⟩
  cases denotes
  simp only [Decoder.choice, Decoder.variantOf, named]

theorem recovers_none {decode : Decoder α} : Recovers (Decoder.optional decode) levels .null none := by
  refine ⟨.null, fun _ d denotes => ?_⟩
  cases denotes
  rfl

theorem recovers_some {decode : Decoder α} {j : Json} {a : α} (notNull : j ≠ .null)
    (value : Recovers decode levels j a) :
    Recovers (Decoder.optional decode) levels j (some a) := by
  refine ⟨value.wellFormed, fun nested d denotes => ?_⟩
  have found := value.decodes nested d denotes
  cases denotes with
  | null => exact (notNull rfl).elim
  | _ => simp only [Decoder.optional, found, Except.map]

theorem recovers_nullAs {decode : Decoder α} {j : Json} {a default : α} (notNull : j ≠ .null)
    (value : Recovers decode levels j a) :
    Recovers (Decoder.nullAs default decode) levels j a := by
  refine ⟨value.wellFormed, fun nested d denotes => ?_⟩
  have found := (recovers_some notNull value).decodes nested d denotes
  rw [Decoder.nullAs, found]
  rfl

theorem items_of_denote {decode : Decoder α} {form : α → Json} {as : List α} {is : Items}
    (each : ∀ a ∈ as, Recovers decode levels (form a) a)
    (nested : ∀ a ∈ as, (form a).nesting ≤ levels) (denote : is.Denote (as.map form)) :
    Decoder.items (decode levels) is = .ok as := by
  induction as generalizing is with
  | nil =>
    cases denote
    rfl
  | cons a as ih =>
    cases denote with
    | item denotes later =>
      have first := (each a List.mem_cons_self).decodes (nested a List.mem_cons_self) _ denotes
      have rest := ih (fun b mem => each b (List.mem_cons_of_mem a mem))
        (fun b mem => nested b (List.mem_cons_of_mem a mem)) later
      simp only [Decoder.items, first, rest]
      rfl

theorem recovers_list {decode : Decoder α} {form : α → Json} {as : List α}
    (each : ∀ a ∈ as, Recovers decode (levels - 1) (form a) a) :
    Recovers (Decoder.list decode) levels (.list form as) as := by
  refine ⟨.array fun j mem => ?_, fun nested d denotes => ?_⟩
  · obtain ⟨a, found, rfl⟩ := List.mem_map.mp mem
    exact (each a found).wellFormed
  · obtain ⟨levels, rfl, inner⟩ := exists_level_array nested
    cases denotes with
    | array denote =>
      exact items_of_denote each (fun a mem => inner _ (List.mem_map_of_mem mem)) denote

/-- Members in ascending order of their keys are inserted one behind the other. -/
theorem entries_of_denote {decode : Decoder α} {form : α → Json} (found : Entries α)
    {later : List (String × α)} {ms : Members}
    (ascending : (found.toList ++ later).Pairwise fun a b => a.1 < b.1)
    (each : ∀ e ∈ later, Recovers decode levels (form e.2) e.2)
    (nested : ∀ e ∈ later, (form e.2).nesting ≤ levels)
    (denote : ms.Denote (later.map fun (k, a) => (k, form a))) :
    Decoder.entries (decode levels) found ms = .ok ⟨found.toList ++ later, ascending⟩ := by
  induction later generalizing found ms with
  | nil =>
    cases denote
    simp only [Decoder.entries, List.append_nil]
  | cons e later ih =>
    obtain ⟨key, a⟩ := e
    have above : ∀ entry ∈ found.toList, entry.1 < key := fun entry mem =>
      (List.pairwise_append.mp ascending).2.2 entry mem _ List.mem_cons_self
    have inserted : (found.insert key a).toList = found.toList ++ [(key, a)] :=
      insertEntry_of_above a above
    have shifted : (found.insert key a).toList ++ later = found.toList ++ (key, a) :: later := by
      rw [inserted, List.append_assoc, List.singleton_append]
    cases denote with
    | member denotes behind =>
      have value := (each _ List.mem_cons_self).decodes (nested _ List.mem_cons_self) _ denotes
      have rest := ih (found.insert key a) (shifted ▸ ascending)
        (fun b mem => each b (List.mem_cons_of_mem _ mem))
        (fun b mem => nested b (List.mem_cons_of_mem _ mem)) behind
      simp only [Decoder.entries, value, rest, shifted]

theorem recovers_map {decode : Decoder α} {form : α → Json} {entries : Entries α}
    (each : ∀ e ∈ entries.toList, Recovers decode (levels - 1) (form e.2) e.2) :
    Recovers (Decoder.map decode) levels (entries.toJson form) entries := by
  refine ⟨.object fun m mem => ?_, fun nested d denotes => ?_⟩
  · obtain ⟨e, found, rfl⟩ := List.mem_map.mp mem
    exact (each e found).wellFormed
  · obtain ⟨levels, rfl, inner⟩ := exists_level_object nested
    cases denotes with
    | object denote =>
      exact entries_of_denote .empty entries.ascending each
        (fun e mem => inner _ (List.mem_map_of_mem mem)) denote

/-- The members fill the fields in their order, from one value of the record to another. A field
that is not required may be left out. -/
inductive Fills (levels : Nat) : List (Field α) → α → List (String × Json) → α → Prop
  | done {a : α} : Fills levels [] a [] a
  | present {f : Field α} {fields : List (Field α)} {a b : α} {change : α → α} {j : Json}
      {members : List (String × Json)} :
      Recovers f.change levels j change → Fills levels fields (change a) members b →
      Fills levels (f :: fields) a ((f.name, j) :: members) b
  | absent {f : Field α} {fields : List (Field α)} {a b : α} {members : List (String × Json)} :
      f.required = false → Fills levels fields a members b → Fills levels (f :: fields) a members b

theorem Fills.wellFormed {fields : List (Field α)} {a b : α} {members : List (String × Json)}
    (fills : Fills levels fields a members b) : ∀ m ∈ members, m.2.WellFormed := by
  induction fills with
  | done => exact fun m mem => by cases mem
  | present value _ ih => exact List.forall_mem_cons.mpr ⟨value.wellFormed, ih⟩
  | absent _ _ ih => exact ih

/-- A field is found by its name when no two fields share a name. -/
theorem find?_of_distinct {before after : List (Field α)} {f : Field α}
    (distinct : ((before ++ f :: after).map Field.name).Nodup) :
    (before ++ f :: after).find? (fun g => g.name == f.name) = some f := by
  rw [List.map_append, List.map_cons] at distinct
  have apart := (List.nodup_append.mp distinct).2.2
  rw [List.find?_append, List.find?_eq_none.mpr, Option.none_or]
  · simp only [List.find?_cons, beq_self_eq_true]
  · intro g mem same
    exact apart g.name (List.mem_map_of_mem mem) f.name List.mem_cons_self (beq_iff_eq.mp same)

/-- The members of a record are read when its fields are filled in their order. The induction keeps
apart the fields before the present one, which alone can have been seen. -/
theorem fillMembers_of_fills {before rest : List (Field α)} {seen : List String} {a b : α}
    {members : List (String × Json)} {ms : Members}
    (distinct : ((before ++ rest).map Field.name).Nodup)
    (seenBefore : ∀ s ∈ seen, s ∈ before.map Field.name)
    (required : ∀ f ∈ before, f.required = true → f.name ∈ seen)
    (fills : Fills levels rest a members b) (nested : ∀ m ∈ members, m.2.nesting ≤ levels)
    (denote : ms.Denote members) :
    Schema.fillMembers (before ++ rest) levels seen a ms = .ok b := by
  induction fills generalizing before seen ms with
  | done =>
    cases denote with
    | done =>
      have complete : Schema.firstMissing? (before ++ []) seen = none := by
        rw [Schema.firstMissing?, List.append_nil, Option.map_eq_none_iff, List.find?_eq_none]
        intro f mem missing
        rw [Bool.and_eq_true, Bool.not_eq_true', List.contains_eq_mem, decide_eq_false_iff_not]
          at missing
        exact missing.2 (required f mem missing.1)
      simp only [Schema.fillMembers, complete]
  | @present f fields a b change j members value fills ih =>
    have unseen : seen.contains f.name = false := by
      rw [List.contains_eq_mem, decide_eq_false_iff_not]
      intro mem
      rw [List.map_append, List.map_cons] at distinct
      exact (List.nodup_append.mp distinct).2.2 f.name (seenBefore _ mem) f.name
        List.mem_cons_self rfl
    have behind (ms : Members) (later : ms.Denote members) :
        Schema.fillMembers (before ++ f :: fields) levels (f.name :: seen) (change a) ms =
          .ok b := by
      rw [List.append_cons] at distinct ⊢
      refine ih distinct ?_ ?_ (fun m mem => nested m (List.mem_cons_of_mem _ mem)) later
      · rw [List.map_append]
        rintro s (_ | ⟨_, mem⟩)
        · exact List.mem_append_right _ List.mem_cons_self
        · exact List.mem_append_left _ (seenBefore s mem)
      · intro g mem needed
        rcases List.mem_append.mp mem with mem | mem
        · exact List.mem_cons_of_mem _ (required g mem needed)
        · obtain rfl := List.mem_singleton.mp mem
          exact List.mem_cons_self
    cases denote with
    | member denotes later =>
      have changed := value.decodes (nested _ List.mem_cons_self) _ denotes
      simp only [Schema.fillMembers, find?_of_distinct distinct, unseen, changed, behind _ later,
        Bool.false_eq_true, if_false]
  | @absent f fields a b members optional fills ih =>
    rw [List.append_cons] at distinct ⊢
    refine ih distinct ?_ ?_ nested denote
    · rw [List.map_append]
      exact fun s mem => List.mem_append_left _ (seenBefore s mem)
    · intro g mem needed
      rcases List.mem_append.mp mem with mem | mem
      · exact required g mem needed
      · obtain rfl := List.mem_singleton.mp mem
        rw [optional] at needed
        cases needed

/-- A record is recovered from the members that fill its fields. -/
theorem recovers_record {s : Schema α} {a : α} {members : List (String × Json)}
    (distinct : (s.fields.map Field.name).Nodup)
    (fills : Fills (levels - 1) s.fields s.blank members a) :
    Recovers s.decode levels (.object members) a := by
  refine ⟨.object fills.wellFormed, fun nested d denotes => ?_⟩
  obtain ⟨levels, rfl, inner⟩ := exists_level_object nested
  cases denotes with
  | object denote =>
    refine @fillMembers_of_fills _ _ [] _ [] _ _ _ _ distinct ?_ ?_ fills inner denote
    · exact fun s mem => by cases mem
    · exact fun f mem => by cases mem

section Fields

variable {name : String} {decode : Decoder β} {set : β → α → α} {fields : List (Field α)} {a b : α}
  {members : List (String × Json)}

theorem recovers_change {j : Json} {x : β} (value : Recovers decode levels j x) (set : β → α → α) :
    Recovers (fun levels d => (decode levels d).map set) levels j (set x) := by
  refine ⟨value.wellFormed, fun nested d denotes => ?_⟩
  rw [value.decodes nested d denotes]
  rfl

theorem Fills.mandatory {j : Json} {x : β} (value : Recovers decode levels j x)
    (rest : Fills levels fields (set x a) members b) :
    Fills levels (.mandatory name decode set :: fields) a ((name, j) :: members) b :=
  @present _ _ (.mandatory name decode set) _ _ _ _ _ _ (recovers_change value set) rest

theorem Fills.defaulted {j : Json} {x : β} (value : Recovers decode levels j x)
    (rest : Fills levels fields (set x a) members b) :
    Fills levels (.defaulted name decode set :: fields) a ((name, j) :: members) b :=
  @present _ _ (.defaulted name decode set) _ _ _ _ _ _ (recovers_change value set) rest

/-- A field that is left out where there is no value fills as the option does. -/
theorem Fills.member? {γ : Type} {decode : Decoder (Option γ)} {set : Option γ → α → α}
    {form : γ → Json} {o : Option γ}
    (value : ∀ x, o = some x → Recovers decode levels (form x) (some x)) (blank : set none a = a)
    (rest : Fills levels fields (set o a) members b) :
    Fills levels (.defaulted name decode set :: fields) a (Json.member? name form o ++ members) b := by
  cases o with
  | none => exact .absent rfl (blank ▸ rest)
  | some x => exact .defaulted (value x rfl) rest

/-- The same for the field that is written last. -/
theorem Fills.lastMember? {γ : Type} {decode : Decoder (Option γ)} {set : Option γ → α → α}
    {form : γ → Json} {o : Option γ}
    (value : ∀ x, o = some x → Recovers decode levels (form x) (some x)) (blank : set none a = a) :
    Fills levels [.defaulted name decode set] a (Json.member? name form o) (set o a) :=
  List.append_nil (Json.member? name form o) ▸ .member? value blank .done

end Fields

/-- What a decoder recovers at the greatest nesting it gets back from the compact text. -/
theorem decodeText_compact {decode : Decoder α} {j : Json} {a : α}
    (recovers : Recovers decode nestingLimit j a) (nested : j.nesting ≤ nestingLimit) :
    decodeText decode j.compact = .ok a := by
  obtain ⟨d, read, denotes⟩ := read_compact recovers.wellFormed
  simp only [decodeText, read, recovers.decodes nested d denotes]

/-- No compact text belongs to two values when a decoder recovers both of them. -/
theorem eq_of_compact_eq {decode : Decoder α} {j k : Json} {a b : α}
    (first : ∀ levels, Recovers decode levels j a) (second : ∀ levels, Recovers decode levels k b)
    (same : j.compact = k.compact) : a = b := by
  obtain ⟨d, read, denotesFirst⟩ := read_compact (first 0).wellFormed
  obtain ⟨e, read', denotesSecond⟩ := read_compact (second 0).wellFormed
  rw [same, read'] at read
  obtain rfl : e = d := congrArg Document.root read
  have found := (first _).decodes (Nat.le_max_left j.nesting k.nesting) e denotesFirst
  rw [(second _).decodes (Nat.le_max_right j.nesting k.nesting) e denotesSecond] at found
  exact (Except.ok.inj found).symm

end AnalysisBrowser.Json
