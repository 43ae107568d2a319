import AnalysisBrowser.Json.Entries
import AnalysisBrowser.Json.Reader

/-!
# Decoders

A decoder turns a document into a value of some type or a fault. Its first argument is the number
of arrays and objects that may still be nested; a whole text starts with `nestingLimit`.

A record is read from an object, whose members may stand in any order and may be mixed with unknown
ones, or from an array of its fields in their order. A record decoder goes through the text once
and applies a change for every field it meets, so the first fault in the text is the one reported.
-/
namespace AnalysisBrowser.Json

/-- A reader of values of one type. -/
abbrev Decoder (α : Type) := Nat → Doc → Except Fault α

/-- How many arrays and objects may be nested. -/
def nestingLimit : Nat := 127

namespace Decoder

def text : Decoder String
  | _, .scalar _ _ (.string s none) => .ok s
  | _, d => .error (d.mismatch .text)

def flag : Decoder Bool
  | _, .scalar _ _ (.bool b) => .ok b
  | _, d => .error (d.mismatch .flag)

/-- A natural number that fits in 64 bits. -/
def count : Decoder UInt64
  | _, .scalar start stop (.number l) =>
    match l.reading with
    | .natural n => .ok n.toUInt64
    | .negative n => .error ((Cause.wrongValue (.negative n) .count).at stop)
    | _ => .error ((Doc.scalar start stop (.number l)).mismatch .count)
  | _, d => .error (d.mismatch .count)

/-- A value, or nothing where the text has null. -/
def optional {α : Type} (decode : Decoder α) : Decoder (Option α)
  | _, .scalar _ _ .null => .ok none
  | levels, d => (decode levels d).map some

/-- A value, or `default` where the text has null. -/
def nullAs {α : Type} (default : α) (decode : Decoder α) : Decoder α
  | levels, d => (optional decode levels d).map (·.getD default)

/-- The items of an array, each decoded in turn. -/
def items {α : Type} (decode : Doc → Except Fault α) : Items → Except Fault (List α)
  | .done _ => .ok []
  | .broken broke _ => .error broke.read
  | .item value rest =>
    match decode value with
    | .error fault => .error fault
    | .ok a => (items decode rest).map (a :: ·)
  | .lost value => (decode value).map ([·])

/-- An array of values of one kind. -/
def list {α : Type} (decode : Decoder α) : Decoder (List α)
  | 0, .array start is => .error (Doc.array start is).tooDeep
  | levels + 1, .array _ is => items (decode levels) is
  | _, d => .error (d.mismatch .sequence)

/-- The members of an object of free keys, inserted in turn. -/
def entries {α : Type} (decode : Doc → Except Fault α) :
    Entries α → Members → Except Fault (Entries α)
  | found, .done _ => .ok found
  | _, .broken broke _ => .error broke.read
  | _, .bare key broke => .error (key.flaw.getD broke.read)
  | found, .member key value _ rest =>
    match key.flaw, decode value with
    | some fault, _ => .error fault
    | none, .error fault => .error fault
    | none, .ok a => entries decode (found.insert key.text a) rest
  | found, .lost key value =>
    match key.flaw with
    | some fault => .error fault
    | none => (decode value).map (found.insert key.text ·)

/-- An object of free keys. -/
def map {α : Type} (decode : Decoder α) : Decoder (Entries α)
  | 0, .object start ms => .error (Doc.object start ms).tooDeep
  | levels + 1, .object _ ms => entries (decode levels) .empty ms
  | _, d => .error (d.mismatch .map)

mutual

/-- Reads a value of any form by the rules for values that are read. -/
def checkDoc : Nat → Doc → Except Fault Unit
  | _, .scalar _ stop value =>
    match value.fault? stop with
    | some fault => .error fault
    | none => .ok ()
  | 0, .array start is => .error (Doc.array start is).tooDeep
  | levels + 1, .array _ is => checkItems levels is
  | 0, .object start ms => .error (Doc.object start ms).tooDeep
  | levels + 1, .object _ ms => checkMembers levels ms
  | _, .broken _ _ broke => .error broke.read

def checkItems : Nat → Items → Except Fault Unit
  | _, .done _ => .ok ()
  | _, .broken broke _ => .error broke.read
  | levels, .item value rest =>
    match checkDoc levels value with
    | .error fault => .error fault
    | .ok () => checkItems levels rest
  | levels, .lost value => checkDoc levels value

def checkMembers : Nat → Members → Except Fault Unit
  | _, .done _ => .ok ()
  | _, .broken broke _ => .error broke.read
  | _, .bare key broke => .error (key.flaw.getD broke.read)
  | levels, .member key value _ rest =>
    match key.flaw with
    | some fault => .error fault
    | none =>
      match checkDoc levels value with
      | .error fault => .error fault
      | .ok () => checkMembers levels rest
  | levels, .lost key value =>
    match key.flaw with
    | some fault => .error fault
    | none => checkDoc levels value

end

/-- The string that a document is, if it is one. -/
def stringOf? : Doc → Option String
  | .scalar _ _ (.string s _) => some s
  | _ => none

/-- A string, or nothing for a value of any other form. -/
def lenientText : Decoder (Option String)
  | levels, d => (checkDoc levels d).map fun _ => stringOf? d

/-- The value of a variant that is written as a string. -/
def variantOf {α : Type} (variants : List (String × α)) (name : String) (stop : Position) :
    Except Fault α :=
  match variants.lookup name with
  | some a => .ok a
  | none => .error ((Cause.unknownVariant name (variants.map Prod.fst)).at stop)

/-- The null that a variant carries when it is written as an object. -/
def unit : Doc → Except Fault Unit
  | .scalar _ _ .null => .ok ()
  | d => .error (d.mismatch .unit)

/-- The end of an object that holds one variant. -/
def variantEnd (next : Position) : Members → Except Fault Unit
  | .done _ => .ok ()
  | .broken broke _ =>
    match broke.read.cause with
    | .flaw .endInObject => .error broke.read
    | _ => .error (Flaw.expectedValue.at next)
  | _ => .error (Flaw.expectedValue.at next)

/-- A variant that is written as an object with one member, whose value is null. -/
def variantMember {α : Type} (variants : List (String × α)) : Members → Except Fault α
  | .done stop => .error (Flaw.expectedValue.at stop)
  | .broken _ name => .error name
  | .bare key broke =>
    match key.flaw with
    | some fault => .error fault
    | none => do
      let _ ← variantOf variants key.text key.stop
      .error broke.read
  | .member key value next rest =>
    match key.flaw with
    | some fault => .error fault
    | none => do
      let a ← variantOf variants key.text key.stop
      unit value
      variantEnd next rest
      return a
  | .lost key value =>
    match key.flaw with
    | some fault => .error fault
    | none => do
      let a ← variantOf variants key.text key.stop
      unit value
      return a

/-- One of several named values. -/
def choice {α : Type} (variants : List (String × α)) : Decoder α
  | _, .scalar _ stop (.string s flaw) =>
    match flaw with
    | some fault => .error fault
    | none => variantOf variants s stop
  | 0, .object start ms => .error (Doc.object start ms).tooDeep
  | _ + 1, .object _ ms => variantMember variants ms
  | _, .broken .nothing _ broke => .error broke.read
  | _, .broken .quote _ broke => .error broke.read
  | _, d => .error (Flaw.expectedValue.at (d.start.right 1))

end Decoder

/-- A field of a record of type `α`: reading its value gives a change of the record. -/
structure Field (α : Type) where
  name : String
  required : Bool
  change : Decoder (α → α)

/-- A field that must be present. -/
def Field.mandatory {α β : Type} (name : String) (decode : Decoder β) (set : β → α → α) : Field α :=
  ⟨name, true, fun levels d => (decode levels d).map set⟩

/-- A field that may be left out. -/
def Field.defaulted {α β : Type} (name : String) (decode : Decoder β) (set : β → α → α) : Field α :=
  ⟨name, false, fun levels d => (decode levels d).map set⟩

/-- A record: its name, its fields in order, and its value before any field is read. -/
structure Schema (α : Type) where
  name : String
  fields : List (Field α)
  blank : α

namespace Schema

variable {α : Type}

/-- The first required field that has not been seen. -/
def firstMissing? (fields : List (Field α)) (seen : List String) : Option String :=
  (fields.find? fun f => f.required && !seen.contains f.name).map Field.name

/-- Reads the members of an object in turn. -/
def fillMembers (fields : List (Field α)) (levels : Nat) :
    List String → α → Members → Except Fault α
  | seen, a, .done stop =>
    match firstMissing? fields seen with
    | some name => .error ((Cause.missingField name).at stop)
    | none => .ok a
  | _, _, .broken broke _ => .error broke.read
  | seen, _, .bare key broke =>
    match key.flaw with
    | some fault => .error fault
    | none =>
      if seen.contains key.text then .error ((Cause.duplicateField key.text).at key.next)
      else .error broke.read
  | seen, a, .member key value _ rest =>
    match key.flaw with
    | some fault => .error fault
    | none =>
      match fields.find? fun f => f.name == key.text with
      | none =>
        match value.skip with
        | .error fault => .error fault
        | .ok () => fillMembers fields levels seen a rest
      | some f =>
        if seen.contains f.name then .error ((Cause.duplicateField f.name).at key.next)
        else
          match f.change levels value with
          | .error fault => .error fault
          | .ok change => fillMembers fields levels (f.name :: seen) (change a) rest
  | seen, a, .lost key value =>
    match key.flaw with
    | some fault => .error fault
    | none =>
      match fields.find? fun f => f.name == key.text with
      | none => value.skip.map fun _ => a
      | some f =>
        if seen.contains f.name then .error ((Cause.duplicateField f.name).at key.next)
        else (f.change levels value).map (· a)

/-- The end of an array after its last field. -/
def itemsClosed : Items → Except Fault Unit
  | .done _ => .ok ()
  | .broken _ close => .error close
  | .item value _ => .error (Flaw.trailingCharacters.at (value.start.right 1))
  | .lost value => .error (Flaw.trailingCharacters.at (value.start.right 1))

/-- Reads the items of an array, one for each field. -/
def fillItems (name : String) (size levels : Nat) :
    Nat → List (Field α) → α → Items → Except Fault α
  | _, [], a, is => (itemsClosed is).map fun _ => a
  | index, f :: fields, a, .done stop =>
    if f.required then .error ((Cause.recordTooShort index name size).at stop)
    else fillItems name size levels (index + 1) fields a (.done stop)
  | _, _ :: _, _, .broken broke _ => .error broke.read
  | index, f :: fields, a, .item value rest =>
    match f.change levels value with
    | .error fault => .error fault
    | .ok change => fillItems name size levels (index + 1) fields (change a) rest
  | _, f :: _, a, .lost value => (f.change levels value).map (· a)

/-- Reads a record. -/
def decode (s : Schema α) : Decoder α
  | 0, .object start ms => .error (Doc.object start ms).tooDeep
  | 0, .array start is => .error (Doc.array start is).tooDeep
  | levels + 1, .object _ ms => fillMembers s.fields levels [] s.blank ms
  | levels + 1, .array _ is => fillItems s.name s.fields.length levels 0 s.fields s.blank is
  | _, d => .error (d.mismatch (.record s.name))

end Schema

/-- Reads a whole text with a decoder. -/
def decodeText {α : Type} (decode : Decoder α) (text : String) : Except Fault α :=
  let document := Document.read text
  match decode nestingLimit document.root with
  | .error fault => .error fault
  | .ok a =>
    match document.trailing with
    | some place => .error (Flaw.trailingCharacters.at place)
    | none => .ok a

end AnalysisBrowser.Json
