import AnalysisBrowser.Json.Decoder

/-!
# Documents without their places

A tree is what a whole document says: its values, the members of its objects in order, and no
places. Of a string in which a surrogate lacks its partner it keeps only that the text is missing.
Decoders report places, but what they return never depends on one, so a decoder can be known by
what it returns for trees. For that every tree has a document of its own, `Tree.doc`.
-/
namespace AnalysisBrowser.Json

/-- What a whole document says. -/
inductive Tree where
  | null
  | bool (b : Bool)
  | number (l : Number.Literal)
  | text (s : Option String)
  | array (items : List Tree)
  | object (members : List (Option String × Tree))

namespace Tree

/-- Induction over a tree: a property that passes from all parts to the whole holds everywhere. -/
@[elab_as_elim]
theorem induct {motive : Tree → Prop} (null : motive .null) (bool : ∀ b, motive (.bool b))
    (number : ∀ l, motive (.number l)) (text : ∀ s, motive (.text s))
    (array : ∀ ts, (∀ t ∈ ts, motive t) → motive (.array ts))
    (object : ∀ ms, (∀ m ∈ ms, motive m.2) → motive (.object ms)) : ∀ t, motive t
  | .null => null
  | .bool b => bool b
  | .number l => number l
  | .text s => text s
  | .array ts => array ts fun t _ => induct null bool number text array object t
  | .object ms => object ms fun m _ => induct null bool number text array object m.2
termination_by t => sizeOf t
decreasing_by
  · have part := List.sizeOf_lt_of_mem (by assumption : t ∈ ts)
    rw [Tree.array.sizeOf_spec]
    omega
  · have part := List.sizeOf_lt_of_mem (by assumption : m ∈ ms)
    obtain ⟨key, t⟩ := m
    rw [Prod.mk.sizeOf_spec] at part
    rw [Tree.object.sizeOf_spec]
    change sizeOf t < 1 + sizeOf ms
    omega

/-- The text of a string that is sound. -/
def text? : Tree → Option String
  | .text s => s
  | _ => none

/-- The keys of members, as far as they are sound. -/
def keys (members : List (Option String × Tree)) : List String := members.filterMap Prod.fst

@[simp] theorem keys_nil : keys [] = [] := rfl

@[simp] theorem keys_cons_some (k : String) (t : Tree) (ms : List (Option String × Tree)) :
    keys ((some k, t) :: ms) = k :: keys ms := rfl

@[simp] theorem keys_cons_none (t : Tree) (ms : List (Option String × Tree)) :
    keys ((none, t) :: ms) = keys ms := rfl

@[simp] theorem keys_append (as bs : List (Option String × Tree)) :
    keys (as ++ bs) = keys as ++ keys bs := List.filterMap_append

theorem keys_perm {as bs : List (Option String × Tree)} (perm : as.Perm bs) :
    (keys as).Perm (keys bs) := perm.filterMap _

end Tree

mutual

/-- The document is whole and says what the tree says. -/
inductive Doc.Renders : Doc → Tree → Prop
  | null {start stop : Position} : Doc.Renders (.scalar start stop .null) .null
  | bool {start stop : Position} {b : Bool} : Doc.Renders (.scalar start stop (.bool b)) (.bool b)
  | number {start stop : Position} {l : Number.Literal} :
      Doc.Renders (.scalar start stop (.number l)) (.number l)
  | text {start stop : Position} {s : String} :
      Doc.Renders (.scalar start stop (.string s none)) (.text (some s))
  | flawed {start stop : Position} {s : String} {fault : Fault} :
      Doc.Renders (.scalar start stop (.string s (some fault))) (.text none)
  | array {start : Position} {is : Items} {ts : List Tree} :
      is.Render ts → Doc.Renders (.array start is) (.array ts)
  | object {start : Position} {ms : Members} {members : List (Option String × Tree)} :
      ms.Render members → Doc.Renders (.object start ms) (.object members)

inductive Items.Render : Items → List Tree → Prop
  | done {stop : Position} : Items.Render (.done stop) []
  | item {d : Doc} {t : Tree} {is : Items} {ts : List Tree} :
      d.Renders t → is.Render ts → Items.Render (.item d is) (t :: ts)

inductive Members.Render : Members → List (Option String × Tree) → Prop
  | done {stop : Position} : Members.Render (.done stop) []
  | member {stop next place : Position} {key : String} {d : Doc} {t : Tree} {ms : Members}
      {members : List (Option String × Tree)} :
      d.Renders t → ms.Render members →
      Members.Render (.member ⟨key, none, stop, place⟩ d next ms) ((some key, t) :: members)
  | flawed {stop next place : Position} {key : String} {fault : Fault} {d : Doc} {t : Tree}
      {ms : Members} {members : List (Option String × Tree)} :
      d.Renders t → ms.Render members →
      Members.Render (.member ⟨key, some fault, stop, place⟩ d next ms) ((none, t) :: members)

end

namespace Tree

def flaw : Fault := Flaw.loneSurrogate.at .origin

mutual

/-- A document that says what the tree says, with the same place everywhere. -/
def doc : Tree → Doc
  | .null => .scalar .origin .origin .null
  | .bool b => .scalar .origin .origin (.bool b)
  | .number l => .scalar .origin .origin (.number l)
  | .text (some s) => .scalar .origin .origin (.string s none)
  | .text none => .scalar .origin .origin (.string "" (some flaw))
  | .array ts => .array .origin (itemsDoc ts)
  | .object ms => .object .origin (membersDoc ms)

def itemsDoc : List Tree → Items
  | [] => .done .origin
  | t :: ts => .item t.doc (itemsDoc ts)

def membersDoc : List (Option String × Tree) → Members
  | [] => .done .origin
  | (some k, t) :: ms => .member ⟨k, none, .origin, .origin⟩ t.doc .origin (membersDoc ms)
  | (none, t) :: ms => .member ⟨"", some flaw, .origin, .origin⟩ t.doc .origin (membersDoc ms)

end

theorem render_itemsDoc {ts : List Tree} (each : ∀ t ∈ ts, t.doc.Renders t) :
    (itemsDoc ts).Render ts := by
  induction ts with
  | nil => exact .done
  | cons t ts ih =>
    obtain ⟨first, later⟩ := List.forall_mem_cons.mp each
    exact .item first (ih later)

theorem render_membersDoc {ms : List (Option String × Tree)}
    (each : ∀ m ∈ ms, m.2.doc.Renders m.2) : (membersDoc ms).Render ms := by
  induction ms with
  | nil => exact .done
  | cons m ms ih =>
    obtain ⟨first, later⟩ := List.forall_mem_cons.mp each
    obtain ⟨k, t⟩ := m
    cases k with
    | none => exact .flawed first (ih later)
    | some k => exact .member first (ih later)

theorem renders_doc (t : Tree) : t.doc.Renders t := by
  induction t using induct with
  | null => exact .null
  | bool b => exact .bool
  | number l => exact .number
  | text s =>
    cases s with
    | none => exact .flawed
    | some s => exact .text
  | array ts ih => exact .array (render_itemsDoc ih)
  | object ms ih => exact .object (render_membersDoc ih)

/-- No object has two members of the same key. -/
inductive Distinct : Tree → Prop
  | null : Distinct .null
  | bool (b : Bool) : Distinct (.bool b)
  | number (l : Number.Literal) : Distinct (.number l)
  | text (s : Option String) : Distinct (.text s)
  | array {ts : List Tree} (each : ∀ t ∈ ts, Distinct t) : Distinct (.array ts)
  | object {ms : List (Option String × Tree)} (once : (keys ms).Nodup)
      (each : ∀ m ∈ ms, Distinct m.2) : Distinct (.object ms)

/-- The members of one object, at any depth, are put in another order. -/
inductive Permuted : Tree → Tree → Prop
  | here {ms ns : List (Option String × Tree)} (perm : ms.Perm ns) :
      Permuted (.object ms) (.object ns)
  | item {t u : Tree} (before after : List Tree) (inner : Permuted t u) :
      Permuted (.array (before ++ t :: after)) (.array (before ++ u :: after))
  | member {t u : Tree} (before after : List (Option String × Tree)) (key : Option String)
      (inner : Permuted t u) :
      Permuted (.object (before ++ (key, t) :: after)) (.object (before ++ (key, u) :: after))

end Tree

end AnalysisBrowser.Json
