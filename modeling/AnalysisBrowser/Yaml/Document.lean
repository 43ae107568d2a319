import AnalysisBrowser.Text.Quoted
import AnalysisBrowser.Yaml.Event
import AnalysisBrowser.Yaml.Resolved

/-!
# YAML documents

A document is the list of the nodes of a text as far as it can be read, with what was wrong where
it breaks off. Every node that has an anchor is kept by its number, from there on. The numbers
count the names in use, so that a name which is given twice shares the number of the next new one.
-/
namespace AnalysisBrowser.Yaml

/-- A node of a document as it begins or ends. -/
inductive Item where
  | alias (number : Nat)
  | scalar (s : Scalar)
  | sequenceStart
  | sequenceEnd
  | mappingStart
  | mappingEnd
  /-- A text without any document. -/
  | absent

/-- The items of a document with their places. -/
abbrev Items := List (Item × Mark)

/-- Why a text cannot be read as a document. -/
inductive Failure where
  | flaw (flaw : Flaw)
  | unknownAnchor (mark : Mark)
  deriving DecidableEq, Repr

/-- A document as far as it can be read. -/
structure Document where
  items : Items
  /-- How many items come before the node with a number. -/
  anchors : List (Nat × Nat)
  failure : Option Failure

namespace Document

/-- A document that is being collected. -/
structure Draft where
  /-- The items in reverse. -/
  items : Items
  /-- The numbers of the names in use. -/
  names : List (List Char × Nat)
  anchors : List (Nat × Nat)

namespace Draft

def empty : Draft := ⟨[], [], []⟩

/-- The document that has been collected. -/
def close (d : Draft) (failure : Option Failure) : Document :=
  ⟨d.items.reverse, d.anchors, failure⟩

/-- Puts an item at the end. -/
def push (d : Draft) (item : Item) (mark : Mark) : Draft :=
  { d with items := (item, mark) :: d.items }

/-- Notes the name of the node that comes next. -/
def name (d : Draft) : Option (List Char) → Draft
  | none => d
  | some name =>
    let number := d.names.length
    { d with
      names := (name, number) :: d.names.filter fun n => n.1 ≠ name
      anchors := (number, d.items.length) :: d.anchors.filter fun a => a.1 ≠ number }

/-- The draft after an event, or what ends the document. -/
def add (d : Draft) (e : Placed) : Except (Option Failure) Draft :=
  match e.event with
  | .streamStart | .documentStart => .ok d
  | .streamEnd => .error none
  | .documentEnd => .error none
  | .alias name =>
    match d.names.lookup name with
    | some number => .ok (d.push (.alias number) e.mark)
    | none => .error (some (.unknownAnchor e.mark))
  | .scalar s => .ok ((d.name s.anchor).push (.scalar s) e.mark)
  | .sequenceStart anchor => .ok ((d.name anchor).push .sequenceStart e.mark)
  | .sequenceEnd => .ok (d.push .sequenceEnd e.mark)
  | .mappingStart anchor => .ok ((d.name anchor).push .mappingStart e.mark)
  | .mappingEnd => .ok (d.push .mappingEnd e.mark)

end Draft

/-- Collects a document; the stream after it, or nothing where there is none left. -/
def collect : Nat → Draft → EventStream → Option (Document × EventStream)
  | 0, d, s => some (d.close none, s)
  | fuel + 1, d, s =>
    match s.next with
    | .error flaw => some (d.close (some (.flaw flaw)), s)
    | .ok (e, next) =>
      match e.event, d.add e with
      | .streamEnd, _ => none
      | _, .ok d => collect fuel d next
      | _, .error failure => some (d.close failure, next)

/-- A bound on the events that are left. -/
def fuel (s : EventStream) : Nat := 16 * (s.tokens.cursor.rest.length + 8)

/-- The bytes before the first character that no text may hold. -/
def forbiddenAt? : Nat → List Char → Option Nat
  | _, [] => none
  | offset, c :: rest =>
    let n := c.toNat
    if n = 0x09 || n = 0x0A || n = 0x0D || (0x20 ≤ n && n ≤ 0x7E) || n = 0x85 ||
        (0xA0 ≤ n && n ≤ 0xFFFD) || 0x10000 ≤ n then
      forbiddenAt? (offset + c.utf8Size) rest
    else some offset

/-- The document without content of a text that has none. -/
def absent : Document := ⟨[(.absent, Mark.origin)], [], none⟩

/-- The first document of a text, and whether another one follows. -/
def read (text : String) : Document × Bool :=
  let cs := text.toList
  match forbiddenAt? 0 cs with
  | some offset => (⟨[], [], some (.flaw (.forbiddenCharacter offset))⟩, false)
  | none =>
    let s := EventStream.ofChars (if cs.head? = some '\uFEFF' then cs.tail else cs)
    match collect (fuel s) Draft.empty s with
    | none => (absent, false)
    | some (d, s) => (d, (collect (fuel s) Draft.empty s).isSome)

/-- The items from the node with a number on. -/
def anchored (d : Document) (number : Nat) : Items :=
  d.items.drop ((d.anchors.lookup number).getD d.items.length)

end Document

end AnalysisBrowser.Yaml
