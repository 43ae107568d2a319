import AnalysisBrowser.Model.Node
import AnalysisBrowser.Text.Joining

/-!
# Paths

A path leads from the root of a tree to a node: at each step it says which child to take. It is
written as the indices with points between them, and the path of the root as a single point.
-/
namespace AnalysisBrowser

/-- The child indices on the way from the root to a node. -/
structure NodePath where
  indices : List Nat
  deriving DecidableEq, Repr

namespace NodePath

def root : NodePath := ⟨[]⟩

def isRoot (p : NodePath) : Bool := p.indices.isEmpty

/-- The number of steps. -/
def depth (p : NodePath) : Nat := p.indices.length

def child (p : NodePath) (index : Nat) : NodePath := ⟨p.indices ++ [index]⟩

/-- The node that is reached by taking the children with these indices. -/
def follow : List Nat → Node → Option Node
  | [], n => some n
  | i :: rest, n => n.children[i]?.bind (follow rest)

/-- The node that a path leads to, if every step exists. -/
def resolve (p : NodePath) (root : Node) : Option Node := follow p.indices root

/-- The written form. -/
def text (p : NodePath) : String :=
  match p.indices with
  | [] => "."
  | is => Text.joinWith "." (is.map Number.decimal)

/-- A part of a text that is no child index. -/
structure ParseError where
  input : String
  part : String
  deriving DecidableEq, Repr

/-- The wording of the error. -/
def ParseError.message (e : ParseError) : String :=
  "invalid node path " ++ Text.quoted e.input ++ ": " ++ Text.quoted e.part ++
    " is not a child index"

/-- Reads the indices between the points of a text. -/
def readIndices (input : String) : List (List Char) → Except ParseError (List Nat)
  | [] => .ok []
  | part :: rest =>
    match Number.readNatural Number.countLimit part with
    | .error _ => .error ⟨input, String.ofList part⟩
    | .ok i => (readIndices input rest).map (i :: ·)

/-- Reads a path. Blank text, a point and the word for the root all stand for the root. -/
def parse (s : String) : Except ParseError NodePath :=
  let cs := Text.trimChars s.toList
  if cs.isEmpty || cs = ['.'] || Text.equalsIgnoringAsciiCase (String.ofList cs) "root" then
    .ok root
  else
    (readIndices s (Text.splitAt '.' cs)).map NodePath.mk

@[simp] theorem resolve_root (n : Node) : root.resolve n = some n := rfl

@[simp] theorem depth_child (p : NodePath) (i : Nat) : (p.child i).depth = p.depth + 1 := by
  simp [depth, child]

theorem child_inj {p q : NodePath} {i j : Nat} : p.child i = q.child j ↔ p = q ∧ i = j := by
  obtain ⟨is⟩ := p
  obtain ⟨js⟩ := q
  simp [child]

theorem child_ne_root (p : NodePath) (i : Nat) : p.child i ≠ root := by
  simp [child, root]

theorem follow_append (is js : List Nat) (n : Node) :
    follow (is ++ js) n = (follow is n).bind (follow js) := by
  induction is generalizing n with
  | nil => rfl
  | cons i rest ih =>
    simp only [List.cons_append, follow]
    cases n.children[i]? with
    | none => rfl
    | some c => exact ih c

end NodePath

end AnalysisBrowser
