import AnalysisBrowser.Model.NodeType
import AnalysisBrowser.Model.Symbol
import AnalysisBrowser.Text.Blank

/-!
# Nodes

The tree that the analyzer delivers. Every node owns its children and keeps the name of its type
as it was sent, known or not. A root whose type is absent or blank stands for a tree that is not
available.
-/
namespace AnalysisBrowser

open Json (Decoder Field Schema)

/-- A node with its children. -/
structure Node where
  typeName : Option String
  value : Option String
  line : UInt64
  position : UInt64
  children : List Node
  attributes : Option Attributes
  deriving Repr

namespace Node

/-- A node about which nothing was sent. -/
def empty : Node := ⟨none, none, 0, 0, [], none⟩

instance : Inhabited Node := ⟨empty⟩

/-- A childless node of a known type. -/
def ofType (type : NodeType) (line position : UInt64) : Node :=
  { empty with typeName := some type.name, line, position }

/-- The node with one attribute more; a key it already has takes the new value. -/
def withAttribute (n : Node) (key value : String) : Node :=
  { n with attributes := some ((n.attributes.getD .empty).insert key value) }

/-- The type of a node, if it is a known one. -/
def type? (n : Node) : Option NodeType := n.typeName.bind NodeType.ofName?

/-- The name of the type as sent, unless it is blank. -/
def rawType? (n : Node) : Option String := n.typeName.filter fun t => !Text.isBlankText t

/-- Whether a node can stand as the root of a tree to show. -/
def isAvailable (n : Node) : Bool := n.rawType?.isSome

def hasChildren (n : Node) : Bool := !n.children.isEmpty

/-- The value, unless it is empty. -/
def displayValue? (n : Node) : Option String := n.value.filter fun v => v ≠ ""

/-- The attributes in order of their keys. -/
def attributePairs (n : Node) : List (String × String) := (n.attributes.getD .empty).toList

/-- What a node is called for readers. -/
def label (n : Node) : String :=
  match n.type? with
  | some t => t.label
  | none => "Unknown"

mutual

/-- The number of nodes in a tree. -/
def size : Node → Nat
  | ⟨_, _, _, _, children, _⟩ => 1 + sizeAll children

/-- The number of nodes in several trees. -/
def sizeAll : List Node → Nat
  | [] => 0
  | n :: rest => n.size + sizeAll rest

end

theorem size_eq (n : Node) : n.size = 1 + sizeAll n.children := by
  cases n
  simp [size]

theorem sizeAll_append (ns ms : List Node) : sizeAll (ns ++ ms) = sizeAll ns + sizeAll ms := by
  induction ns with
  | nil => simp [sizeAll]
  | cons n rest ih => simp [sizeAll, ih, Nat.add_assoc]

theorem sizeAll_reverse (ns : List Node) : sizeAll ns.reverse = sizeAll ns := by
  induction ns with
  | nil => rfl
  | cons n rest ih => simp [sizeAll_append, sizeAll, ih, Nat.add_comm]

theorem size_le_sizeAll {n : Node} {ns : List Node} (h : n ∈ ns) : n.size ≤ sizeAll ns := by
  induction h with
  | head => exact Nat.le_add_right _ _
  | tail _ _ ih => exact Nat.le_add_left_of_le ih

/-- Induction over a tree: a property that passes from all children to their parent holds
everywhere. -/
@[elab_as_elim]
theorem induct {motive : Node → Prop} (node : ∀ n, (∀ c ∈ n.children, motive c) → motive n)
    (n : Node) : motive n :=
  node n fun c _ => induct node c
termination_by n.size
decreasing_by
  have child := size_le_sizeAll (by assumption : c ∈ n.children)
  have whole := size_eq n
  omega

mutual

/-- The JSON form of a node. -/
def toJson : Node → Json
  | ⟨typeName, value, line, position, children, attributes⟩ =>
    .object
      (Json.member? "type" .string typeName ++ Json.member? "value" .string value ++
        [("line", .word line), ("position", .word position),
          ("children", .array (childrenJson children))] ++
        Json.member? "attributes" Attributes.toJson attributes)

/-- The JSON forms of the children. -/
def childrenJson : List Node → List Json
  | [] => []
  | n :: rest => toJson n :: childrenJson rest

end

/-- The fields of a node whose children are read by `child`. -/
def schema (child : Decoder Node) : Schema Node where
  name := "SyntaxNode"
  fields :=
    [ .defaulted "type" Decoder.lenientText fun typeName n => { n with typeName }
    , .defaulted "value" (Decoder.optional Decoder.text) fun value n => { n with value }
    , .defaulted "line" Decoder.count fun line n => { n with line }
    , .defaulted "position" Decoder.count fun position n => { n with position }
    , .defaulted "children" (Decoder.nullAs [] (Decoder.list child))
        fun children n => { n with children }
    , .defaulted "attributes" (Decoder.optional (Decoder.map Decoder.text))
        fun attributes n => { n with attributes } ]
  blank := empty

/-- Reads a node. A child lies two levels deeper: in the record of its parent and in the array of
its siblings. -/
def decode : Decoder Node
  | 0 => (schema fun _ d => .error d.tooDeep).decode 0
  | 1 => (schema fun _ d => .error d.tooDeep).decode 1
  | levels + 2 => (schema fun _ d => decode levels d).decode (levels + 2)

end Node

end AnalysisBrowser
