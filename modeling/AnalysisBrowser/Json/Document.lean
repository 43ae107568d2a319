import AnalysisBrowser.Json.Fault

/-!
# JSON documents with places

A document is a JSON text as far as it can be read: every value with its place, down to the point
where the text breaks, if it does. What is wrong is kept beside the value and becomes a fault only
when a decoder gets there, so of several faults the one that is met first in the text is reported.

Values that a decoder ignores are held to weaker rules. A break therefore carries two faults: the
one for a value that is read and the one for a value that is skipped. A number out of range or a
surrogate without its partner is a fault of a read value only.
-/
namespace AnalysisBrowser.Json

/-- The faults of a text that breaks off. -/
structure Break where
  /-- The fault where the value is read. -/
  read : Fault
  /-- The fault where the value is skipped. -/
  skip : Fault

/-- A break that is the same for both. -/
def Flaw.break (f : Flaw) (p : Position) : Break := ⟨f.at p, f.at p⟩

/-- A value without parts. -/
inductive Scalar where
  | null
  | bool (b : Bool)
  | number (literal : Number.Literal)
  | string (s : String) (flaw : Option Fault)

/-- How a value begins that the text breaks in. -/
inductive Lead where
  | nothing
  | quote
  | other
  deriving DecidableEq, Repr

/-- The key of a member. -/
structure Key where
  text : String
  flaw : Option Fault
  /-- The place after the closing quote. -/
  stop : Position
  /-- The place before what follows the key, or after it where that is a closing brace. -/
  next : Position

mutual

/-- A value with its place. -/
inductive Doc where
  | scalar (start stop : Position) (value : Scalar)
  | array (start : Position) (items : Items)
  | object (start : Position) (members : Members)
  | broken (lead : Lead) (start : Position) (broke : Break)

/-- The items of an array and how it ends. -/
inductive Items where
  /-- The closing bracket, with the place after it. -/
  | done (stop : Position)
  /-- No further item and no bracket; `close` is the fault where only the bracket is expected. -/
  | broken (broke : Break) (close : Fault)
  | item (value : Doc) (rest : Items)
  /-- The text breaks inside the item. -/
  | lost (value : Doc)

/-- The members of an object and how it ends. -/
inductive Members where
  /-- The closing brace, with the place after it. -/
  | done (stop : Position)
  /-- No further key and no brace; `name` is the fault where the name of a variant is expected. -/
  | broken (broke : Break) (name : Fault)
  /-- A key without a colon. -/
  | bare (key : Key) (broke : Break)
  /-- A member, with the place before what follows it. -/
  | member (key : Key) (value : Doc) (next : Position) (rest : Members)
  /-- The text breaks inside the value. -/
  | lost (key : Key) (value : Doc)

end

/-- A whole text: its value, and the place of further characters if there are any. -/
structure Document where
  root : Doc
  trailing : Option Position

/-- The place before a value. -/
def Doc.start : Doc → Position
  | .scalar start _ _ => start
  | .array start _ => start
  | .object start _ => start
  | .broken _ start _ => start

/-- The fault of a scalar that is read, whatever is expected of it. -/
def Scalar.fault? (stop : Position) : Scalar → Option Fault
  | .string _ flaw => flaw
  | .number l =>
    match l.reading with
    | .outOfRange unread => some (Flaw.numberOutOfRange.at ⟨stop.line, stop.column - unread⟩)
    | _ => none
  | _ => none

def Scalar.found : Scalar → Found
  | .null => .null
  | .bool b => .bool b
  | .string s _ => .string s
  | .number l =>
    match l.reading with
    | .natural n => .natural n
    | .negative n => .negative n
    | .real x => .real x
    | .outOfRange _ => .null

/-- The fault of a value that has not the form expected of it. -/
def Doc.mismatch (expected : Expectation) : Doc → Fault
  | .scalar _ stop value =>
    match value.fault? stop with
    | some fault => fault
    | none => (Cause.wrongKind value.found expected).at stop
  | .array start _ => (Cause.wrongKind .sequence expected).at start
  | .object start _ => (Cause.wrongKind .map expected).at start
  | .broken _ _ broke => broke.read

/-- The fault of an array or object that is nested too deep. -/
def Doc.tooDeep (d : Doc) : Fault := Flaw.nestedTooDeep.at (d.start.right 1)

mutual

/-- Passes over a value whose content does not matter. -/
def Doc.skip : Doc → Except Fault Unit
  | .scalar _ _ _ => .ok ()
  | .array _ items => items.skip
  | .object _ members => members.skip
  | .broken _ _ broke => .error broke.skip

def Items.skip : Items → Except Fault Unit
  | .done _ => .ok ()
  | .broken broke _ => .error broke.skip
  | .item value rest =>
    match value.skip with
    | .error fault => .error fault
    | .ok () => rest.skip
  | .lost value => value.skip

def Members.skip : Members → Except Fault Unit
  | .done _ => .ok ()
  | .broken broke _ => .error broke.skip
  | .bare _ broke => .error broke.skip
  | .member _ value _ rest =>
    match value.skip with
    | .error fault => .error fault
    | .ok () => rest.skip
  | .lost _ value => value.skip

end

end AnalysisBrowser.Json
