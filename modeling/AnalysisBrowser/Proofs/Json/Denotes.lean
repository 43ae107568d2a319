import AnalysisBrowser.Json.Document
import AnalysisBrowser.Json.Value

/-!
# What a document stands for

A document denotes a JSON value when it is whole and has the parts of the value in their order. The
places in it do not matter. Two measures of a value matter for reading it: its literals must be
numbers as JSON writes them, and its arrays and objects must not be nested too deep.
-/
namespace AnalysisBrowser

/-- The literals that JSON allows: integer digits without a leading zero, and digits in the exponent
where there is one. -/
structure Number.Literal.WellFormed (l : Number.Literal) : Prop where
  whole : l.whole = ['0'] ∨ ∃ c rest, l.whole = c :: rest ∧ c ≠ '0'
  wholeDigits : ∀ c ∈ l.whole, c.isDigit = true
  fractionDigits : ∀ c ∈ l.fraction, c.isDigit = true
  exponent : ∀ e, l.exponent = some e → e.digits ≠ [] ∧ ∀ c ∈ e.digits, c.isDigit = true

namespace Json

/-- A value all of whose literals are well-formed. -/
inductive WellFormed : Json → Prop
  | null : WellFormed .null
  | bool (b : Bool) : WellFormed (.bool b)
  | number {l : Number.Literal} (literal : l.WellFormed) : WellFormed (.number l)
  | string (s : String) : WellFormed (.string s)
  | array {items : List Json} (each : ∀ j ∈ items, WellFormed j) : WellFormed (.array items)
  | object {members : List (String × Json)} (each : ∀ m ∈ members, WellFormed m.2) :
      WellFormed (.object members)

mutual

/-- How many arrays and objects stand inside each other, at most. -/
def nesting : Json → Nat
  | .null => 0
  | .bool _ => 0
  | .number _ => 0
  | .string _ => 0
  | .array items => 1 + itemsNesting items
  | .object members => 1 + membersNesting members

/-- The greatest nesting of an item. -/
def itemsNesting : List Json → Nat
  | [] => 0
  | item :: rest => max item.nesting (itemsNesting rest)

/-- The greatest nesting of a value of a member. -/
def membersNesting : List (String × Json) → Nat
  | [] => 0
  | (_, value) :: rest => max value.nesting (membersNesting rest)

end

theorem itemsNesting_le_iff {items : List Json} {n : Nat} :
    itemsNesting items ≤ n ↔ ∀ j ∈ items, j.nesting ≤ n := by
  induction items with
  | nil => simp [itemsNesting]
  | cons item rest ih => rw [itemsNesting, Nat.max_le, ih, List.forall_mem_cons]

theorem membersNesting_le_iff {members : List (String × Json)} {n : Nat} :
    membersNesting members ≤ n ↔ ∀ m ∈ members, m.2.nesting ≤ n := by
  induction members with
  | nil => simp [membersNesting]
  | cons member rest ih => rw [membersNesting, Nat.max_le, ih, List.forall_mem_cons]

/-- There is a level left for the items of an array. -/
theorem exists_level_array {items : List Json} {levels : Nat}
    (h : (Json.array items).nesting ≤ levels) :
    ∃ n, levels = n + 1 ∧ ∀ j ∈ items, j.nesting ≤ n := by
  rw [nesting] at h
  exact ⟨levels - 1, by omega, itemsNesting_le_iff.mp (by omega)⟩

/-- There is a level left for the members of an object. -/
theorem exists_level_object {members : List (String × Json)} {levels : Nat}
    (h : (Json.object members).nesting ≤ levels) :
    ∃ n, levels = n + 1 ∧ ∀ m ∈ members, m.2.nesting ≤ n := by
  rw [nesting] at h
  exact ⟨levels - 1, by omega, membersNesting_le_iff.mp (by omega)⟩

theorem membersNesting_append (as bs : List (String × Json)) :
    membersNesting (as ++ bs) = max (membersNesting as) (membersNesting bs) := by
  induction as with
  | nil => simp [membersNesting]
  | cons a rest ih => rw [List.cons_append, membersNesting, membersNesting, ih, Nat.max_assoc]

theorem nesting_object_le {members : List (String × Json)} {k : Nat}
    (each : ∀ m ∈ members, m.2.nesting ≤ k) : (Json.object members).nesting ≤ k + 1 := by
  rw [nesting, Nat.add_comm]
  exact Nat.succ_le_succ (membersNesting_le_iff.mpr each)

theorem nesting_list_le {α : Type} {form : α → Json} {k : Nat} (each : ∀ a, (form a).nesting ≤ k)
    (as : List α) : (list form as).nesting ≤ k + 1 := by
  rw [list, nesting, Nat.add_comm]
  refine Nat.succ_le_succ (itemsNesting_le_iff.mpr fun j mem => ?_)
  obtain ⟨a, found, rfl⟩ := List.mem_map.mp mem
  exact each a

theorem forall_mem_member? {α : Type} {key : String} {form : α → Json} {o : Option α}
    {P : String × Json → Prop} :
    (∀ m ∈ member? key form o, P m) ↔ ∀ a, o = some a → P (key, form a) := by
  cases o with
  | none => simp [member?]
  | some a => simp [member?]

mutual

/-- The document is whole and has the parts of the value. -/
inductive Doc.Denotes : Doc → Json → Prop
  | null {start stop : Position} : Doc.Denotes (.scalar start stop .null) .null
  | bool {start stop : Position} {b : Bool} : Doc.Denotes (.scalar start stop (.bool b)) (.bool b)
  | number {start stop : Position} {l : Number.Literal} :
      Doc.Denotes (.scalar start stop (.number l)) (.number l)
  | string {start stop : Position} {s : String} :
      Doc.Denotes (.scalar start stop (.string s none)) (.string s)
  | array {start : Position} {is : Items} {items : List Json} :
      is.Denote items → Doc.Denotes (.array start is) (.array items)
  | object {start : Position} {ms : Members} {members : List (String × Json)} :
      ms.Denote members → Doc.Denotes (.object start ms) (.object members)

/-- The items come one after the other up to the bracket. -/
inductive Items.Denote : Items → List Json → Prop
  | done {stop : Position} : Items.Denote (.done stop) []
  | item {d : Doc} {j : Json} {is : Items} {items : List Json} :
      d.Denotes j → is.Denote items → Items.Denote (.item d is) (j :: items)

/-- The members come one after the other up to the brace. -/
inductive Members.Denote : Members → List (String × Json) → Prop
  | done {stop : Position} : Members.Denote (.done stop) []
  | member {stop next place : Position} {key : String} {d : Doc} {j : Json} {ms : Members}
      {members : List (String × Json)} :
      d.Denotes j → ms.Denote members →
      Members.Denote (.member ⟨key, none, stop, place⟩ d next ms) ((key, j) :: members)

end

end Json

end AnalysisBrowser
