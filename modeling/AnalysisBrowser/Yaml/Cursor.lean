import AnalysisBrowser.Yaml.Flaw

/-!
# Reading a YAML text

A cursor is the rest of a text and the place it begins at. A carriage return with a line feed is
one line break; so is either of them alone, the next line character, and the line and paragraph
separators.
-/
namespace AnalysisBrowser.Yaml

/-- Whether a character breaks a line. -/
def isBreak (c : Char) : Bool :=
  c = '\n' || c = '\r' || c = '\u0085' || c = '\u2028' || c = '\u2029'

def isSpaceOrTab (c : Char) : Bool := c = ' ' || c = '\t'

/-- Whether a character can stand in the name of an anchor or a directive. -/
def isNameChar (c : Char) : Bool := c.isAlphanum || c = '_' || c = '-'

/-- The value of a hexadecimal digit. -/
def hexValue? (c : Char) : Option Nat :=
  if c.isDigit then some (c.toNat - '0'.toNat)
  else if 'a' ≤ c && c ≤ 'f' then some (c.toNat - 'a'.toNat + 10)
  else if 'A' ≤ c && c ≤ 'F' then some (c.toNat - 'A'.toNat + 10)
  else none

/-- The rest of a text with its place. -/
structure Cursor where
  rest : List Char
  mark : Mark

namespace Cursor

/-- The character so many places ahead. -/
def at? (c : Cursor) (n : Nat) : Option Char := c.rest[n]?

/-- Whether the next character is this one. -/
def startsWith (c : Cursor) (x : Char) : Bool := c.rest.head? = some x

/-- Whether a character of a class stands so many places ahead. -/
def has (c : Cursor) (n : Nat) (p : Char → Bool) : Bool := (c.at? n).any p

/-- Whether a blank, a line break or the end stands so many places ahead. -/
def isGapAt (c : Cursor) (n : Nat) : Bool :=
  match c.at? n with
  | none => true
  | some x => isSpaceOrTab x || isBreak x

/-- Whether a line break or the end comes next. -/
def isLineEnd (c : Cursor) : Bool :=
  match c.rest with
  | [] => true
  | x :: _ => isBreak x

/-- One character further on the same line. -/
def skip (c : Cursor) : Cursor :=
  ⟨c.rest.tail, ⟨c.mark.index + 1, c.mark.line, c.mark.column + 1⟩⟩

/-- So many characters further on the same line. -/
def skips (c : Cursor) (n : Nat) : Cursor :=
  ⟨c.rest.drop n, ⟨c.mark.index + n, c.mark.line, c.mark.column + n⟩⟩

/-- Past a line break, if one comes next. -/
def skipLine (c : Cursor) : Cursor :=
  match c.rest with
  | '\r' :: '\n' :: rest => ⟨rest, ⟨c.mark.index + 2, c.mark.line + 1, 0⟩⟩
  | x :: rest => if isBreak x then ⟨rest, ⟨c.mark.index + 1, c.mark.line + 1, 0⟩⟩ else c
  | [] => c

/-- What a line break that comes next stands for. -/
def lineBreak (c : Cursor) : List Char :=
  match c.rest with
  | x :: _ => if x = '\u2028' || x = '\u2029' then [x] else if isBreak x then ['\n'] else []
  | [] => []

/-- Takes the characters of a class from a line. -/
def takeFrom (p : Char → Bool) (m : Mark) : List Char → List Char × Cursor
  | [] => ([], ⟨[], m⟩)
  | x :: rest =>
    if p x then
      let taken := takeFrom p ⟨m.index + 1, m.line, m.column + 1⟩ rest
      (x :: taken.1, taken.2)
    else
      ([], ⟨x :: rest, m⟩)

/-- The characters of a class that come next, and what is left. -/
def take (c : Cursor) (p : Char → Bool) : List Char × Cursor := takeFrom p c.mark c.rest

/-- Past the characters of a class. -/
def dropWhile (c : Cursor) (p : Char → Bool) : Cursor := (c.take p).2

/-- Past blanks. -/
def skipBlanks (c : Cursor) : Cursor := c.dropWhile isSpaceOrTab

/-- Past a comment, if one comes next. -/
def skipComment (c : Cursor) : Cursor :=
  if c.startsWith '#' then c.dropWhile fun x => !isBreak x else c

/-- Whether three marks of a document boundary stand at the start of a line. -/
def isDocumentMarker (c : Cursor) (x : Char) : Bool :=
  c.mark.column = 0 && c.at? 0 = some x && c.at? 1 = some x && c.at? 2 = some x && c.isGapAt 3

/-- Whether a document starts or ends here. -/
def isDocumentBoundary (c : Cursor) : Bool := c.isDocumentMarker '-' || c.isDocumentMarker '.'

/-- A problem at the cursor, in something that began at `start`. -/
def problem (c : Cursor) (p : Problem) (context : Context) (start : Mark) : Flaw :=
  .met p c.mark (some (context, start))

end Cursor

/-- Blanks and line breaks between two stretches of a scalar. -/
structure Gap where
  /-- The blanks before the first line break. -/
  blanks : List Char
  /-- The first line break. -/
  first : List Char
  /-- The line breaks after the first one. -/
  more : List Char
  /-- Whether a line has ended. -/
  broken : Bool

namespace Gap

def empty : Gap := ⟨[], [], [], false⟩

/-- What several lines are joined by: one break becomes a space, further ones stay. -/
def fold (first more : List Char) : List Char :=
  if first.head? = some '\n' then (if more.isEmpty then [' '] else more) else first ++ more

/-- What a gap stands for inside a scalar. -/
def text (g : Gap) : List Char := if g.broken then fold g.first g.more else g.blanks

/-- Reads on from a gap. A blank is refused where `refuse` says so. -/
def read (refuse : Gap → Cursor → Option Flaw) : Nat → Gap → Cursor → Except Flaw (Gap × Cursor)
  | 0, g, c => .ok (g, c)
  | fuel + 1, g, c =>
    if c.has 0 isSpaceOrTab then
      match refuse g c with
      | some flaw => .error flaw
      | none =>
        let blanks := if g.broken then g.blanks else g.blanks ++ c.rest.take 1
        read refuse fuel { g with blanks } c.skip
    else if c.has 0 isBreak then
      if g.broken then read refuse fuel { g with more := g.more ++ c.lineBreak } c.skipLine
      else read refuse fuel ⟨[], c.lineBreak, g.more, true⟩ c.skipLine
    else .ok (g, c)

end Gap

end AnalysisBrowser.Yaml
