import AnalysisBrowser.Proofs.Json.Outcome
import Mathlib.Logic.Basic

/-!
# What record decoders return

A record decoder goes through the members of an object as they come, or through the items of an
array. What it returns depends only on the value under each field name: `fill` asks the fields in
their own order and knows no other order. This needs that the names of the fields differ and that
their changes commute.
-/
namespace AnalysisBrowser.Json

variable {α β γ : Type} {levels : Nat}

/-- The change a field makes of what stands under its name. -/
def Field.reading (f : Field α) (levels : Nat) : Option Tree → Option (α → α)
  | none => if f.required then none else some id
  | some t => outcome f.change levels t

/-- The changes of two fields may be made in either order. -/
def Field.Independent (f g : Field α) : Prop :=
  ∀ (levels : Nat) (d e : Doc) (c k : α → α), f.change levels d = .ok c → g.change levels e = .ok k →
    ∀ a, c (k a) = k (c a)

structure Schema.Lawful (s : Schema α) : Prop where
  names : (s.fields.map Field.name).Nodup
  independent : s.fields.Pairwise Field.Independent

theorem Field.Independent.symm {f g : Field α} (independent : f.Independent g) : g.Independent f :=
  fun levels d e c k left right a => (independent levels e d k c right left a).symm

theorem exists_of_map_eq_ok {x : Except Fault β} {g : β → γ} {c : γ} (h : x.map g = .ok c) :
    ∃ b, x = .ok b ∧ g b = c := by
  cases x with
  | error fault => cases h
  | ok b => exact ⟨b, rfl, Except.ok.inj h⟩

/-- Fields that set parts of a record are independent when setting the parts commutes. -/
theorem Field.independent_of_comm {n m : String} {r q : Bool} {decode : Decoder β}
    {other : Decoder γ} {set : β → α → α} {put : γ → α → α}
    (comm : ∀ b c a, set b (put c a) = put c (set b a)) :
    Field.Independent ⟨n, r, fun levels d => (decode levels d).map set⟩
      ⟨m, q, fun levels d => (other levels d).map put⟩ := by
  intro levels d e c k left right a
  obtain ⟨b, -, rfl⟩ := exists_of_map_eq_ok left
  obtain ⟨x, -, rfl⟩ := exists_of_map_eq_ok right
  exact comm b x a

theorem Field.eq_id_of_reading {f : Field α} {c : α → α} (absent : f.reading levels none = some c) :
    c = id := by
  rw [reading] at absent
  split at absent
  · cases absent
  · exact (Option.some.inj absent).symm

theorem Field.Independent.readings {f g : Field α} (independent : f.Independent g)
    {o p : Option Tree} {c k : α → α} (left : f.reading levels o = some c)
    (right : g.reading levels p = some k) (a : α) : c (k a) = k (c a) := by
  cases o with
  | none =>
    cases eq_id_of_reading left
    rfl
  | some t =>
    cases p with
    | none =>
      cases eq_id_of_reading right
      rfl
    | some u => exact independent _ _ _ _ _ (eq_ok_of_toOption left) (eq_ok_of_toOption right) a

/-- A lawful record can be read with any field first; no other field has its name. -/
theorem Schema.Lawful.exists_others {s : Schema α} {f : Field α} (lawful : s.Lawful)
    (mem : f ∈ s.fields) : ∃ others, s.fields.Perm (f :: others) ∧ ∀ g ∈ others, g.name ≠ f.name := by
  obtain ⟨before, after, split⟩ := List.append_of_mem mem
  have perm : s.fields.Perm (f :: (before ++ after)) := split ▸ List.perm_middle
  have nodup := (perm.map Field.name).nodup_iff.mp lawful.names
  rw [List.map_cons, List.nodup_cons] at nodup
  refine ⟨before ++ after, perm, ?_⟩
  rintro g found same
  exact nodup.1 (same ▸ List.mem_map_of_mem found)

/-- The record after the changes of all fields, in their order. -/
def fill (levels : Nat) (find : String → Option Tree) : List (Field α) → α → Option α
  | [], a => some a
  | f :: fields, a => (f.reading levels (find f.name)).bind fun c => fill levels find fields (c a)

theorem fill_congr {find look : String → Option Tree} {fields : List (Field α)}
    (same : ∀ f ∈ fields, f.reading levels (find f.name) = f.reading levels (look f.name)) (a : α) :
    fill levels find fields a = fill levels look fields a := by
  induction fields generalizing a with
  | nil => rfl
  | cons f fields ih =>
    obtain ⟨first, later⟩ := List.forall_mem_cons.mp same
    simp only [fill, first, ih later]

theorem fill_perm {find : String → Option Tree} {fields others : List (Field α)}
    (perm : fields.Perm others) (independent : fields.Pairwise Field.Independent) (a : α) :
    fill levels find fields a = fill levels find others a := by
  induction perm generalizing a with
  | nil => rfl
  | cons f perm ih => simp only [fill, ih (List.pairwise_cons.mp independent).2]
  | swap f g fields =>
    have apart : g.Independent f := (List.pairwise_cons.mp independent).1 f List.mem_cons_self
    simp only [fill]
    cases left : f.reading levels (find f.name) with
    | none => cases g.reading levels (find g.name) <;> rfl
    | some c =>
      cases right : g.reading levels (find g.name) with
      | none => rfl
      | some k => simp only [Option.bind_some, apart.readings right left]
  | trans first second ihFirst ihSecond =>
    have between := (first.pairwise_iff Field.Independent.symm).mp independent
    rw [ihFirst independent, ihSecond between]

theorem fill_append {find : String → Option Tree} (fields later : List (Field α)) (a : α) :
    fill levels find (fields ++ later) a = (fill levels find fields a).bind (fill levels find later) := by
  induction fields generalizing a with
  | nil => rfl
  | cons f fields ih => simp only [List.cons_append, fill, ih, Option.bind_assoc]

/-- Where nothing is found, only required fields are missed. -/
theorem fill_nothing (fields : List (Field α)) (a : α) :
    fill levels (fun _ => none) fields a = if fields.any Field.required then none else some a := by
  induction fields generalizing a with
  | nil => rfl
  | cons f fields ih =>
    rw [fill, Field.reading]
    cases required : f.required with
    | true => simp [required]
    | false => simp [required, ih]

/-- What a tree has under each field name, as an object or as an array of the fields. A name that
is there twice is a fault, and so is any flawed key. -/
def Tree.record? (names : List String) : Tree → Option (String → Option Tree)
  | .object ms =>
    if (∀ m ∈ ms, m.1.isSome = true) ∧ ∀ n ∈ names, (keys ms).count n ≤ 1 then
      some fun n => ms.lookup (some n)
    else none
  | .array ts =>
    if ts.length ≤ names.length then some fun n => (names.zip ts).lookup n else none
  | _ => none

mutual

theorem skip_doc {d : Doc} {t : Tree} (renders : d.Renders t) : d.skip = .ok () := by
  cases renders with
  | array render =>
    rw [Doc.skip]
    exact skip_items render
  | object render =>
    rw [Doc.skip]
    exact skip_members render
  | _ => rw [Doc.skip]

theorem skip_items {is : Items} {ts : List Tree} (render : is.Render ts) : is.skip = .ok () := by
  cases render with
  | done => rw [Items.skip]
  | item renders render => rw [Items.skip, skip_doc renders, skip_items render]

theorem skip_members {ms : Members} {members : List (Option String × Tree)}
    (render : ms.Render members) : ms.skip = .ok () := by
  cases render with
  | done => rw [Members.skip]
  | member renders render => rw [Members.skip, skip_doc renders, skip_members render]
  | flawed renders render => rw [Members.skip, skip_doc renders, skip_members render]

end

section Object

variable {fields : List (Field α)} {seen : List String}

/-- The fields whose names have not been seen. -/
def pending (fields : List (Field α)) (seen : List String) : List (Field α) :=
  fields.filter fun f => !seen.contains f.name

theorem pending_perm {f : Field α} (distinct : (fields.map Field.name).Nodup) (mem : f ∈ fields)
    (unseen : f.name ∉ seen) :
    (pending fields seen).Perm (f :: pending fields (f.name :: seen)) := by
  obtain ⟨before, after, rfl⟩ := List.append_of_mem mem
  have others : ∀ g ∈ before ++ after, g.name ≠ f.name := by
    have nodup := (List.perm_middle.map Field.name).nodup_iff.mp distinct
    rw [List.map_cons, List.nodup_cons] at nodup
    rintro g found same
    exact nodup.1 (same ▸ List.mem_map_of_mem found)
  have same (gs : List (Field α)) (apart : ∀ g ∈ gs, g.name ≠ f.name) :
      pending gs (f.name :: seen) = pending gs seen :=
    List.filter_congr fun g found => by simp [apart g found]
  have left := same before fun g found => others g (List.mem_append_left _ found)
  have right := same after fun g found => others g (List.mem_append_right _ found)
  simp only [pending] at left right ⊢
  rw [List.filter_append, List.filter_append, List.filter_cons_of_pos (by simpa using unseen),
    List.filter_cons_of_neg (by simp), left, right]
  exact List.perm_middle

theorem firstMissing?_isSome (fields : List (Field α)) (seen : List String) :
    (Schema.firstMissing? fields seen).isSome = (pending fields seen).any Field.required := by
  rw [Bool.eq_iff_iff]
  simp only [Schema.firstMissing?, Option.isSome_map, List.find?_isSome, pending, List.any_eq_true,
    List.mem_filter, Bool.and_eq_true]
  constructor
  · rintro ⟨f, mem, required, unseen⟩
    exact ⟨f, ⟨mem, unseen⟩, required⟩
  · rintro ⟨f, ⟨mem, unseen⟩, required⟩
    exact ⟨f, mem, required, unseen⟩

/-- No key is flawed, and no field comes twice, counted with those already seen. -/
def Admits (fields : List (Field α)) (seen : List String) (ms : List (Option String × Tree)) : Prop :=
  (∀ m ∈ ms, m.1.isSome = true) ∧
    ∀ f ∈ fields, (Tree.keys ms).count f.name + (if f.name ∈ seen then 1 else 0) ≤ 1

instance (ms : List (Option String × Tree)) : Decidable (Admits fields seen ms) :=
  inferInstanceAs (Decidable (_ ∧ _))

theorem admits_nil : Admits fields seen [] := by
  refine ⟨nofun, fun f _ => ?_⟩
  split <;> simp

theorem not_admits_flawed {t : Tree} {ms : List (Option String × Tree)} :
    ¬ Admits fields seen ((none, t) :: ms) := by
  rintro ⟨sound, -⟩
  cases sound _ List.mem_cons_self

theorem admits_unknown_iff {key : String} {t : Tree} {ms : List (Option String × Tree)}
    (unknown : ∀ f ∈ fields, f.name ≠ key) :
    Admits fields seen ((some key, t) :: ms) ↔ Admits fields seen ms := by
  rw [Admits, Admits, List.forall_mem_cons, Tree.keys_cons_some]
  refine and_congr (and_iff_right rfl) (forall₂_congr fun f mem => ?_)
  rw [List.count_cons_of_ne (unknown f mem).symm]

theorem not_admits_seen {f : Field α} {t : Tree} {ms : List (Option String × Tree)}
    (mem : f ∈ fields) (known : f.name ∈ seen) :
    ¬ Admits fields seen ((some f.name, t) :: ms) := by
  rintro ⟨-, once⟩
  have twice := once f mem
  rw [Tree.keys_cons_some, List.count_cons_self, if_pos known] at twice
  omega

theorem admits_field_iff {f : Field α} {t : Tree} {ms : List (Option String × Tree)}
    (unseen : f.name ∉ seen) :
    Admits fields seen ((some f.name, t) :: ms) ↔ Admits fields (f.name :: seen) ms := by
  rw [Admits, Admits, List.forall_mem_cons, Tree.keys_cons_some]
  refine and_congr (and_iff_right rfl) (forall₂_congr fun g _ => ?_)
  by_cases same : g.name = f.name
  · rw [same, List.count_cons_self, if_neg unseen, if_pos List.mem_cons_self, Nat.add_zero]
  · rw [List.count_cons_of_ne (Ne.symm same)]
    simp only [List.mem_cons, same, false_or]

/-- A field that has not been seen is filled first, as its changes commute with the others. -/
theorem fill_pending {f : Field α} {t : Tree} {ms : List (Option String × Tree)}
    (distinct : (fields.map Field.name).Nodup) (independent : fields.Pairwise Field.Independent)
    (mem : f ∈ fields) (unseen : f.name ∉ seen) (a : α) :
    fill levels (fun n => ((some f.name, t) :: ms).lookup (some n)) (pending fields seen) a =
      (outcome f.change levels t).bind fun c =>
        fill levels (fun n => ms.lookup (some n)) (pending fields (f.name :: seen)) (c a) := by
  have perm := pending_perm distinct mem unseen
  have commute : (pending fields seen).Pairwise Field.Independent :=
    independent.sublist List.filter_sublist
  rw [fill_perm perm commute, fill, List.lookup_cons_self, Field.reading]
  refine congrArg _ (funext fun c => fill_congr (fun g later => ?_) (c a))
  have other : g.name ≠ f.name := by
    have behind := (List.mem_filter.mp later).2
    rw [List.contains_cons, Bool.not_or, Bool.and_eq_true, Bool.not_eq_true', beq_eq_false_iff_ne]
      at behind
    exact behind.1
  rw [List.lookup_cons, beq_false_of_ne (by simpa using other)]

theorem toOption_fillMembers {a : α} {ms : Members}
    {members : List (Option String × Tree)} (distinct : (fields.map Field.name).Nodup)
    (independent : fields.Pairwise Field.Independent)
    (reads : ∀ f ∈ fields, Reads f.change levels (outcome f.change levels))
    (render : ms.Render members) :
    (Schema.fillMembers fields levels seen a ms).toOption =
      if Admits fields seen members then
        fill levels (fun n => members.lookup (some n)) (pending fields seen) a
      else none := by
  -- A member of a field moves its name to those seen and takes the field off those pending, so the
  -- claim is made for all of `seen`.
  induction members generalizing seen a ms with
  | nil =>
    cases render
    have missing := firstMissing?_isSome fields seen
    rw [if_pos admits_nil, Schema.fillMembers]
    simp only [List.lookup_nil, fill_nothing, ← missing]
    cases Schema.firstMissing? fields seen <;> rfl
  | cons m members ih =>
    cases render with
    | flawed renders render =>
      rw [if_neg not_admits_flawed]
      rfl
    | @member stop next place key d t ms _ renders render =>
      rw [Schema.fillMembers]
      cases found : fields.find? fun f => f.name == key with
      | none =>
        have unknown : ∀ f ∈ fields, f.name ≠ key := by simpa using found
        simp only [skip_doc renders, ih render, admits_unknown_iff unknown]
        refine if_congr Iff.rfl (fill_congr (fun f mem => ?_) a) rfl
        have other := unknown f (List.mem_filter.mp mem).1
        rw [List.lookup_cons, beq_false_of_ne (by simpa using other)]
      | some f =>
        have mem := List.mem_of_find?_eq_some found
        obtain rfl : f.name = key := by simpa using List.find?_some found
        by_cases known : f.name ∈ seen
        · rw [if_neg (not_admits_seen mem known)]
          simp only [List.contains_iff_mem.mpr known, if_true, toOption_error]
        · have change := reads f mem renders
          rw [fill_pending distinct independent mem known, ← change]
          simp only [List.contains_iff_mem, known, if_false, admits_field_iff known]
          cases f.change levels d with
          | error fault => simp
          | ok c =>
            simp only [ih render, toOption_ok, Option.bind_some]

end Object

theorem toOption_fillItems {name : String} {size index : Nat} {fields : List (Field α)} {a : α}
    {is : Items} {ts : List Tree} (distinct : (fields.map Field.name).Nodup)
    (reads : ∀ f ∈ fields, Reads f.change levels (outcome f.change levels))
    (render : is.Render ts) :
    (Schema.fillItems name size levels index fields a is).toOption =
      if ts.length ≤ fields.length then
        fill levels (fun n => ((fields.map Field.name).zip ts).lookup n) fields a
      else none := by
  induction fields generalizing index a is ts with
  | nil => cases render <;> rfl
  | cons f fields ih =>
    obtain ⟨apart, distinct⟩ := List.nodup_cons.mp distinct
    obtain ⟨first, later⟩ := List.forall_mem_cons.mp reads
    have other : ∀ g ∈ fields, g.name ≠ f.name := by
      rintro g mem same
      exact apart (same ▸ List.mem_map_of_mem mem)
    cases render with
    | @done stop =>
      have rest : (Schema.fillItems name size levels (index + 1) fields a (.done stop)).toOption = _ :=
        ih distinct later .done
      simp only [List.zip_nil_right, List.lookup_nil, fill, Field.reading, List.length_nil,
        Nat.zero_le, if_true] at rest ⊢
      rw [Schema.fillItems]
      cases f.required with
      | true => rfl
      | false => exact rest
    | @item d t is ts renders render =>
      have change := first renders
      simp only [List.map_cons, List.zip_cons_cons, fill, List.lookup_cons_self, Field.reading,
        ← change, List.length_cons, Nat.add_le_add_iff_right, Schema.fillItems]
      cases f.change levels d with
      | error fault => simp
      | ok c =>
        simp only [ih distinct later render, toOption_ok, Option.bind_some]
        refine if_congr Iff.rfl (fill_congr (fun g mem => ?_) (c a)) rfl
        rw [List.lookup_cons, beq_false_of_ne (other g mem)]

variable {s : Schema α}

/-- The record filled from what the tree has under the field names. -/
def Schema.filled? (s : Schema α) (levels : Nat) (t : Tree) : Option α :=
  (t.record? (s.fields.map Field.name)).bind fun find => fill levels find s.fields s.blank

theorem admits_nil_seen_iff {fields : List (Field α)} {ms : List (Option String × Tree)} :
    Admits fields [] ms ↔
      (∀ m ∈ ms, m.1.isSome = true) ∧ ∀ n ∈ fields.map Field.name, (Tree.keys ms).count n ≤ 1 := by
  simp [Admits]

theorem reads_record (lawful : s.Lawful)
    (reads : ∀ f ∈ s.fields, Reads f.change levels (outcome f.change levels)) :
    Reads s.decode (levels + 1) (s.filled? levels) := by
  intro d t renders
  cases renders with
  | @object start ms members render =>
    have all : pending s.fields [] = s.fields := List.filter_eq_self.mpr fun _ _ => rfl
    rw [Schema.decode, toOption_fillMembers lawful.names lawful.independent reads render, all,
      Schema.filled?, Tree.record?]
    simp only [admits_nil_seen_iff]
    split <;> rfl
  | @array start is ts render =>
    rw [Schema.decode, toOption_fillItems lawful.names reads render, Schema.filled?, Tree.record?,
      List.length_map]
    split <;> rfl
  | _ => rfl

theorem reads_record_zero : Reads s.decode 0 fun _ => none := by
  intro d t renders
  cases renders <;> rfl

theorem outcome_record (lawful : s.Lawful) (each : ∀ f ∈ s.fields, Plain f.change levels) :
    outcome s.decode (levels + 1) = s.filled? levels :=
  (reads_record lawful fun f mem => (each f mem).places).outcome_eq

end AnalysisBrowser.Json
