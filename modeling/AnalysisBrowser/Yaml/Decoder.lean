import AnalysisBrowser.Yaml.Document

/-!
# Decoding YAML documents

A decoder turns the node that comes next into a value and leaves the items after it. A fault names
the field it is in and the place of the node; neither is shown at the very start of a text. The
faults of a node come before what is wrong further down in the text.
-/
namespace AnalysisBrowser.Yaml

/-- What stands where something else was expected. -/
inductive Found where
  | plain (r : Resolved)
  | sequence
  | map

/-- The wording of what was found. -/
def Found.phrase : Found → String
  | .plain .nothing => "unit value"
  | .plain (.bool true) => "boolean `true`"
  | .plain (.bool false) => "boolean `false`"
  | .plain (.integer n) => "integer `" ++ integerText n ++ "`"
  | .plain (.wideInteger n) =>
    "integer `" ++ integerText n ++ if n < 0 then "` as i128" else "` as u128"
  | .plain (.real x) => "floating point `" ++ Number.floatText .positional x ++ "`"
  | .plain (.text s) => "string " ++ Text.quoted s
  | .sequence => "sequence"
  | .map => "map"
where
  integerText (n : Int) : String := (if n < 0 then "-" else "") ++ Number.decimal n.natAbs

/-- Why a node cannot be read as a value of some form. -/
inductive Cause where
  | wrongKind (found : Found) (expected : String)
  | wrongValue (text expected : String)
  | duplicateField (name : String)

/-- The wording of each cause. -/
def Cause.message : Cause → String
  | .wrongKind found expected => "invalid type: " ++ found.phrase ++ ", expected " ++ expected
  | .wrongValue text expected =>
    "invalid value: string " ++ Text.quoted text ++ ", expected " ++ expected
  | .duplicateField name => "duplicate field `" ++ name ++ "`"

/-- The names of the fields on the way to a node, outermost first. -/
abbrev FieldPath := List String

/-- Why a text cannot be read as a value. -/
inductive Fault where
  | failure (f : Failure)
  /-- The text ends before its value. -/
  | endOfText
  | severalDocuments
  | wrong (cause : Cause) (place : Option (FieldPath × Mark))

namespace Fault

/-- The wording of a fault. -/
def message : Fault → String
  | .failure (.flaw flaw) => flaw.message
  | .failure (.unknownAnchor mark) => "unknown anchor" ++ mark.suffix
  | .endOfText => "EOF while parsing a value"
  | .severalDocuments => "deserializing from YAML containing more than one document is not supported"
  | .wrong cause none => cause.message
  | .wrong cause (some (path, mark)) =>
    (if path.isEmpty then "" else Text.joinWith "." path ++ ": ") ++ cause.message ++ mark.suffix

/-- The fault with a place, where it has none. -/
def locate (path : FieldPath) (mark : Mark) : Fault → Fault
  | .wrong cause none => .wrong cause (some (path, mark))
  | f => f

end Fault

/-- What a decoder knows of its surroundings. -/
structure Scope where
  document : Document
  path : FieldPath

/-- A reader of the node that comes next. -/
abbrev Decoder (α : Type) := Scope → Items → Except Fault (α × Items)

namespace Decoder

/-- The fault where a document has no further items. -/
def exhausted (scope : Scope) : Fault :=
  match scope.document.failure with
  | some f => .failure f
  | none => .endOfText

/-- The tags of the values that a scalar may be declared to be. -/
def standardTag (name : String) : List Char := ("tag:yaml.org,2002:" ++ name).toList

/-- What a scalar is, for a fault: declared by its tag, plain, or text. -/
def foundScalar (expected : String) (s : Scalar) : Cause :=
  let text := String.ofList s.text
  let kind (r : Resolved) : Cause := .wrongKind (.plain r) expected
  let whenPlain : Cause := kind (if s.style = .plain then .ofPlain text else .text text)
  match s.tag with
  | none => whenPlain
  | some tag =>
    if tag = standardTag "bool" then
      match boolWord? text with
      | some b => kind (.bool b)
      | none => .wrongValue text "a boolean"
    else if tag = standardTag "int" then
      match (integer? s.text).bind Resolved.ofInteger? with
      | some r => kind r
      | none => .wrongValue text "an integer"
    else if tag = standardTag "float" then
      match real? text with
      | some x => kind (.real x)
      | none => .wrongValue text "a float"
    else if tag = standardTag "null" then
      if isNothingWord text then kind .nothing else .wrongValue text "null"
    else if tag.head? = some '!' then whenPlain
    else kind (.text text)

def mismatch (expected : String) (item : Item) : Fault :=
  match item with
  | .scalar s => .wrong (foundScalar expected s) none
  | .sequenceStart => .wrong (.wrongKind .sequence expected) none
  | .mappingStart => .wrong (.wrongKind .map expected) none
  | _ => .endOfText

/-- Reads the node that an alias stands for in its place. -/
def throughAlias {α : Type} (decode : Decoder α) : Decoder α := fun scope items =>
  match items with
  | (.alias number, _) :: rest =>
    (decode scope (scope.document.anchored number)).map fun r => (r.1, rest)
  | _ => decode scope items

def placed {α : Type} (read : Scope → Item → Items → Except Fault (α × Items)) : Decoder α :=
  throughAlias fun scope items =>
    match items with
    | [] => .error (exhausted scope)
    | (item, mark) :: rest => (read scope item rest).mapError (Fault.locate scope.path mark)

/-- The text of a scalar, however it is written. -/
def textNamed (expected : String) : Decoder String :=
  placed fun _ item rest =>
    match item with
    | .scalar s => .ok (String.ofList s.text, rest)
    | item => .error (mismatch expected item)

def text : Decoder String := textNamed "a string"

def mayBeInteger (s : Scalar) : Bool :=
  s.style = .plain || (s.style = .literal && s.tag = some (standardTag "int"))

/-- A natural number of 64 bits. -/
def count (expected : String) : Decoder UInt64 :=
  placed fun _ item rest =>
    match item with
    | .scalar s =>
      match if mayBeInteger s then count? (String.ofList s.text) else none with
      | some n => .ok (n.toUInt64, rest)
      | none => .error (mismatch expected item)
    | item => .error (mismatch expected item)

/-- Whether a scalar stands for nothing; a plain one that is declared as null must be. -/
def isNothing (s : Scalar) : Except Fault Bool :=
  let text := String.ofList s.text
  if s.style ≠ .plain then .ok false
  else if s.tag = some (standardTag "null") then
    if isNothingWord text then .ok true else .error (.wrong (.wrongValue text "null") none)
  else if s.tag.isSome then .ok false
  else .ok (text.isEmpty || isNothingWord text)

/-- A value, or nothing. -/
def optional {α : Type} (decode : Decoder α) : Decoder (Option α) :=
  throughAlias fun scope items =>
    match items with
    | [] => .error (exhausted scope)
    | (.absent, _) :: rest => .ok (none, rest)
    | (.scalar s, _) :: rest =>
      match isNothing s with
      | .error fault => .error fault
      | .ok true => .ok (none, rest)
      | .ok false => (decode scope items).map fun r => (some r.1, r.2)
    | _ => (decode scope items).map fun r => (some r.1, r.2)

/-- Passes over a node; `depth` counts the collections that are open in it. -/
def skipNode (scope : Scope) : Nat → Items → Except Fault Items
  | _, [] => .error (exhausted scope)
  | depth, (item, _) :: rest =>
    let depth := match item with
      | .sequenceStart | .mappingStart => depth + 1
      | .sequenceEnd | .mappingEnd => depth - 1
      | _ => depth
    if depth = 0 then .ok rest else skipNode scope depth rest

end Decoder

/-- A field of a record of type `α`: reading its value gives a change of the record. -/
structure Field (α : Type) where
  name : String
  change : Decoder (α → α)

/-- A field whose value is put into the record by `set`. -/
def Field.of {α β : Type} (name : String) (decode : Decoder β) (set : β → α → α) : Field α :=
  ⟨name, fun scope items => (decode scope items).map fun r => (set r.1, r.2)⟩

/-- A record: its name, its fields, and its value before any field is read. -/
structure Schema (α : Type) where
  name : String
  fields : List (Field α)
  blank : α

namespace Schema

variable {α : Type}

/-- The name of a field in a path: an alias has none. -/
def keyName : Item → String
  | .scalar s => String.ofList s.text
  | _ => "?"

/-- Reads the keys and values of a mapping up to its end. -/
def fill (fields : List (Field α)) (scope : Scope) :
    Nat → List String → α → Items → Except Fault (α × Items)
  | 0, _, _, _ => .error (Decoder.exhausted scope)
  | _ + 1, _, _, [] => .error (Decoder.exhausted scope)
  | _ + 1, _, a, (.mappingEnd, _) :: rest => .ok (a, rest)
  | fuel + 1, seen, a, (item, mark) :: rest => do
    let (key, items) ← Decoder.textNamed "field identifier" scope ((item, mark) :: rest)
    match fields.find? fun f => f.name == key with
    | none => fill fields scope fuel seen a (← Decoder.skipNode scope 0 items)
    | some f =>
      if seen.contains key then .error (.wrong (.duplicateField key) none)
      else
        let (change, items) ← f.change { scope with path := scope.path ++ [keyName item] } items
        fill fields scope fuel (key :: seen) (change a) items

/-- Reads a record from a mapping; an empty value is a record without fields. -/
def decode (s : Schema α) : Decoder α :=
  Decoder.placed fun scope item rest =>
    match item with
    | .mappingStart => fill s.fields scope (rest.length + 1) [] s.blank rest
    | .absent => .ok (s.blank, rest)
    | .scalar scalar =>
      if scalar.style = .plain && scalar.text.isEmpty then .ok (s.blank, rest)
      else .error (Decoder.mismatch ("struct " ++ s.name) item)
    | item => .error (Decoder.mismatch ("struct " ++ s.name) item)

end Schema

/-- Reads a text that holds one document. -/
def decodeText {α : Type} (decode : Decoder α) (text : String) : Except Fault α := do
  let (document, more) := Document.read text
  let (a, _) ← decode ⟨document, []⟩ document.items
  match document.failure with
  | some f => .error (.failure f)
  | none => if more then .error .severalDocuments else return a

end AnalysisBrowser.Yaml
