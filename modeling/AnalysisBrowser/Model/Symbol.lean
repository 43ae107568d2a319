import AnalysisBrowser.Json.Value
import AnalysisBrowser.Json.Decoder
import AnalysisBrowser.Text.Casing

/-!
# Symbols

The declared names of the analyzed source, with their JSON form. Attributes may be absent, which is
not the same as empty.
-/
namespace AnalysisBrowser

open Json (Decoder Field Schema)

/-- The kinds of declared names. -/
inductive SymbolKind where
  | variable
  | function
  | classType
  | interface
  | parameter
  | property
  | method
  deriving DecidableEq, Repr

namespace SymbolKind

def all : List SymbolKind :=
  [.variable, .function, .classType, .interface, .parameter, .property, .method]

/-- The name of a kind in JSON. -/
def name : SymbolKind → String
  | .variable => "VARIABLE"
  | .function => "FUNCTION"
  | .classType => "CLASS"
  | .interface => "INTERFACE"
  | .parameter => "PARAMETER"
  | .property => "PROPERTY"
  | .method => "METHOD"

/-- The name of a kind for readers. -/
def label : SymbolKind → String
  | .variable => "Variable"
  | .function => "Function"
  | .classType => "Class"
  | .interface => "Interface"
  | .parameter => "Parameter"
  | .property => "Property"
  | .method => "Method"

/-- The kinds by name. -/
def variants : List (String × SymbolKind) := all.map fun k => (k.name, k)

/-- The kind that a text names in any letter case. -/
def ofText? (s : String) : Option SymbolKind := variants.lookup (Text.upper s)

/-- The wording for a text that names no kind. -/
def unknownMessage (s : String) : String := "unknown symbol kind: " ++ s

theorem lookup_name (k : SymbolKind) : variants.lookup k.name = some k := by
  cases k <;> decide

end SymbolKind

/-- Attributes by their keys. -/
abbrev Attributes := Json.Entries String

/-- The object of the attributes. -/
def Attributes.toJson (attributes : Attributes) : Json :=
  Json.Entries.toJson .string attributes

/-- A declared name. -/
structure Symbol where
  name : String
  type : String
  kind : SymbolKind
  line : UInt64
  position : UInt64
  scope : String
  used : Bool
  attributes : Option Attributes
  deriving DecidableEq, Repr

namespace Symbol

/-- Whether a symbol carries at least one attribute. -/
def hasAttributes (s : Symbol) : Bool :=
  match s.attributes with
  | some attributes => !attributes.toList.isEmpty
  | none => false

/-- The attributes in order of their keys. -/
def attributePairs (s : Symbol) : List (String × String) :=
  (s.attributes.getD .empty).toList

def toJson (s : Symbol) : Json :=
  .object
    ([("name", .string s.name), ("type", .string s.type), ("kind", .string s.kind.name),
      ("line", .word s.line), ("position", .word s.position), ("scope", .string s.scope),
      ("used", .bool s.used)] ++
      Json.member? "attributes" Attributes.toJson s.attributes)

def schema : Schema Symbol where
  name := "Symbol"
  fields :=
    [ .mandatory "name" Decoder.text fun name s => { s with name }
    , .mandatory "type" Decoder.text fun type s => { s with type }
    , .mandatory "kind" (Decoder.choice SymbolKind.variants) fun kind s => { s with kind }
    , .mandatory "line" Decoder.count fun line s => { s with line }
    , .mandatory "position" Decoder.count fun position s => { s with position }
    , .mandatory "scope" Decoder.text fun scope s => { s with scope }
    , .mandatory "used" Decoder.flag fun used s => { s with used }
    , .defaulted "attributes" (Decoder.optional (Decoder.map Decoder.text))
        fun attributes s => { s with attributes } ]
  blank := ⟨"", "", .variable, 0, 0, "", false, none⟩

def decode : Decoder Symbol := schema.decode

end Symbol

end AnalysisBrowser
