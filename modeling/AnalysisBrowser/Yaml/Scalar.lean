import AnalysisBrowser.Yaml.Cursor

/-!
# Scalars in a YAML text

The three ways to write a scalar: plain, in quotes, and as a block of lines. Each reader stops at
the end of its scalar and gives the text that the scalar stands for.
-/
namespace AnalysisBrowser.Yaml

/-- How a scalar is written. -/
inductive ScalarStyle where
  | plain
  | singleQuoted
  | doubleQuoted
  | literal
  | folded
  deriving DecidableEq, Repr

/-- An escape sequence: one character, or the number of hexadecimal digits of its code. -/
inductive Escape where
  | char (c : Char)
  | code (digits : Nat)

/-- The escape sequence that a character after a backslash starts. -/
def Escape.of? : Char → Option Escape
  | '0' => some (.char '\x00')
  | 'a' => some (.char '\x07')
  | 'b' => some (.char '\x08')
  | 't' => some (.char '\t')
  | '\t' => some (.char '\t')
  | 'n' => some (.char '\n')
  | 'v' => some (.char '\x0b')
  | 'f' => some (.char '\x0c')
  | 'r' => some (.char '\r')
  | 'e' => some (.char '\x1b')
  | ' ' => some (.char ' ')
  | '"' => some (.char '"')
  | '/' => some (.char '/')
  | '\\' => some (.char '\\')
  | 'N' => some (.char '\u0085')
  | '_' => some (.char '\u00a0')
  | 'L' => some (.char '\u2028')
  | 'P' => some (.char '\u2029')
  | 'x' => some (.code 2)
  | 'u' => some (.code 4)
  | 'U' => some (.code 8)
  | _ => none

/-- The number that hexadecimal digits stand for. -/
def hexNumber? (cs : List Char) : Option Nat :=
  cs.foldl (fun n x => n.bind fun n => (hexValue? x).map (n * 16 + ·)) (some 0)

/-- The character with a code written in so many digits. -/
def readCode (start : Mark) (digits : Nat) (c : Cursor) : Except Flaw (Char × Cursor) :=
  let cs := c.rest.take digits
  match if cs.length = digits then hexNumber? cs else none with
  | none => .error (c.problem .hexDigitExpected .quotedEscape start)
  | some n =>
    if (0xD800 ≤ n && n ≤ 0xDFFF) || 0x10FFFF < n then
      .error (c.problem .escapeOutOfRange .quotedEscape start)
    else .ok (Char.ofNat n, c.skips digits)

/-- The character that an escape sequence stands for. -/
def readEscape (start : Mark) (c : Cursor) : Except Flaw (Char × Cursor) :=
  match (c.at? 1).bind Escape.of? with
  | none => .error (c.problem .unknownEscape .quotedEscape start)
  | some (.char x) => .ok (x, c.skips 2)
  | some (.code digits) => readCode start digits (c.skips 2)

/-- The characters between quotes up to a gap, the closing quote or the end; whether an escaped
line break ends them. The characters are collected in reverse. -/
def readQuotedWord (single : Bool) (start : Mark) :
    Nat → List Char → Cursor → Except Flaw (List Char × Cursor × Bool)
  | 0, taken, c => .ok (taken, c, false)
  | fuel + 1, taken, c =>
    match c.rest with
    | [] => .ok (taken, c, false)
    | x :: rest =>
      if c.isGapAt 0 then .ok (taken, c, false)
      else if single && x = '\'' && rest.head? = some '\'' then
        readQuotedWord single start fuel ('\'' :: taken) (c.skips 2)
      else if x = (if single then '\'' else '"') then .ok (taken, c, false)
      else if !single && x = '\\' && c.has 1 isBreak then .ok (taken, c.skip.skipLine, true)
      else if !single && x = '\\' then
        match readEscape start c with
        | .error flaw => .error flaw
        | .ok (y, next) => readQuotedWord single start fuel (y :: taken) next
      else readQuotedWord single start fuel (x :: taken) c.skip

/-- The lines of a quoted scalar after its opening quote. -/
def readQuotedLines (single : Bool) (start : Mark) :
    Nat → List Char → Cursor → Except Flaw (List Char × Cursor)
  | 0, taken, c => .ok (taken.reverse, c)
  | fuel + 1, taken, c =>
    if c.isDocumentBoundary then .error (c.problem .documentMarkerInQuotes .quotedScalar start)
    else if c.rest.isEmpty then .error (c.problem .quoteUnclosed .quotedScalar start)
    else
      match readQuotedWord single start (c.rest.length + 1) taken c with
      | .error flaw => .error flaw
      | .ok (taken, c, escaped) =>
        if c.startsWith (if single then '\'' else '"') then .ok (taken.reverse, c.skip)
        else
          match Gap.read (fun _ _ => none) (c.rest.length + 1) { Gap.empty with broken := escaped }
            c with
          | .error flaw => .error flaw
          | .ok (gap, c) => readQuotedLines single start fuel (gap.text.reverse ++ taken) c

def readQuoted (single : Bool) (c : Cursor) : Except Flaw (List Char × Cursor) :=
  readQuotedLines single c.mark (c.rest.length + 1) [] c.skip

/-- A plain scalar that has been read. -/
structure PlainScalar where
  text : List Char
  /-- The place after its last character. -/
  stop : Mark
  /-- Whether a line has ended after it. -/
  broken : Bool
  next : Cursor

/-- Whether a character is a bracket or comma of a collection in brackets. -/
def isFlowMark (c : Char) : Bool :=
  c = ',' || c = '[' || c = ']' || c = '\x7b' || c = '\x7d'

/-- The characters of a plain scalar up to a gap or its end. -/
def readPlainWord (inFlow : Bool) (start : Mark) :
    Nat → List Char → Mark → Gap → Cursor → Except Flaw (List Char × Mark × Gap × Cursor)
  | 0, taken, stop, gap, c => .ok (taken, stop, gap, c)
  | fuel + 1, taken, stop, gap, c =>
    match c.rest with
    | [] => .ok (taken, stop, gap, c)
    | x :: _ =>
      if c.isGapAt 0 then .ok (taken, stop, gap, c)
      else if inFlow && x = ':' && c.has 1 (fun y => isFlowMark y || y = '?') then
        .error (c.problem .unexpectedColon .plainScalar start)
      else if (x = ':' && c.isGapAt 1) || (inFlow && isFlowMark x) then .ok (taken, stop, gap, c)
      else
        let next := c.skip
        readPlainWord inFlow start fuel (x :: (gap.text.reverse ++ taken)) next.mark Gap.empty next

/-- A tab where the indentation of a further line belongs. -/
def refuseTab (indent : Int) (start : Mark) (g : Gap) (c : Cursor) : Option Flaw :=
  if g.broken && (c.mark.column : Int) < indent && c.startsWith '\t' then
    some (c.problem .tabInIndentation .plainScalar start)
  else none

/-- The lines of a plain scalar; the further ones are indented by at least `indent`. -/
def readPlainLines (inFlow : Bool) (indent : Int) (start : Mark) :
    Nat → List Char → Mark → Gap → Cursor → Except Flaw PlainScalar
  | 0, taken, stop, gap, c => .ok ⟨taken.reverse, stop, gap.broken, c⟩
  | fuel + 1, taken, stop, gap, c =>
    if c.isDocumentBoundary || c.startsWith '#' then .ok ⟨taken.reverse, stop, gap.broken, c⟩
    else
      match readPlainWord inFlow start (c.rest.length + 1) taken stop gap c with
      | .error flaw => .error flaw
      | .ok (taken, stop, gap, c) =>
        if !(c.has 0 fun x => isSpaceOrTab x || isBreak x) then
          .ok ⟨taken.reverse, stop, gap.broken, c⟩
        else
          match Gap.read (refuseTab indent start) (c.rest.length + 1) gap c with
          | .error flaw => .error flaw
          | .ok (gap, c) =>
            if !inFlow && (c.mark.column : Int) < indent then
              .ok ⟨taken.reverse, stop, gap.broken, c⟩
            else readPlainLines inFlow indent start fuel taken stop gap c

/-- A plain scalar inside a collection whose indentation is `indent`. -/
def readPlain (inFlow : Bool) (indent : Int) (c : Cursor) : Except Flaw PlainScalar :=
  readPlainLines inFlow (indent + 1) c.mark (c.rest.length + 1) [] c.mark Gap.empty c

/-- What happens to the line breaks at the end of a block. -/
inductive Chomping where
  | strip
  | clip
  | keep
  deriving DecidableEq, Repr

/-- The sign that decides about the last line breaks, if one comes next. -/
def readChomping (c : Cursor) : Option (Chomping × Cursor) :=
  if c.startsWith '+' then some (.keep, c.skip)
  else if c.startsWith '-' then some (.strip, c.skip)
  else none

/-- The digit that sets the indentation of a block, if one comes next. -/
def readIncrement (start : Mark) (c : Cursor) : Except Flaw (Option Nat × Cursor) :=
  match c.rest with
  | x :: _ =>
    if x = '0' then .error (c.problem .zeroIndentation .blockScalar start)
    else if x.isDigit then .ok (some (x.toNat - '0'.toNat), c.skip)
    else .ok (none, c)
  | [] => .ok (none, c)

/-- The header of a block after its first character: the sign and the digit in either order. -/
def readBlockHeader (start : Mark) (c : Cursor) : Except Flaw (Chomping × Option Nat × Cursor) :=
  match readChomping c with
  | some (chomping, c) => do
    let (increment, c) ← readIncrement start c
    return (chomping, increment, c)
  | none => do
    let (increment, c) ← readIncrement start c
    match increment.bind fun _ => readChomping c with
    | some (chomping, c) => return (chomping, increment, c)
    | none => return (.clip, increment, c)

/-- Past the spaces of an indentation; all of them while it is not known. -/
def skipIndentation (indent : Option Nat) : Nat → Cursor → Cursor
  | 0, c => c
  | fuel + 1, c =>
    if c.startsWith ' ' && indent.all (c.mark.column < ·) then skipIndentation indent fuel c.skip
    else c

/-- The empty lines before a line of a block, and the deepest indentation seen. -/
def readEmptyLines (start : Mark) (indent : Option Nat) :
    Nat → Nat → List Char → Cursor → Except Flaw (Nat × List Char × Cursor)
  | 0, deepest, breaks, c => .ok (deepest, breaks, c)
  | fuel + 1, deepest, breaks, c =>
    let c := skipIndentation indent (c.rest.length + 1) c
    let deepest := max deepest c.mark.column
    if c.startsWith '\t' && indent.all (c.mark.column < ·) then
      .error (c.problem .tabForIndentation .blockScalar start)
    else if c.has 0 isBreak then
      readEmptyLines start indent fuel deepest (breaks ++ c.lineBreak) c.skipLine
    else .ok (deepest, breaks, c)

/-- The lines of a block whose indentation is known. `last` is the break that ended the latest line
and `breaks` are those of the empty lines after it. -/
def readBlockLines (literal : Bool) (start : Mark) (indent : Nat) :
    Nat → List Char → List Char → List Char → Bool → Cursor →
      Except Flaw (List Char × List Char × List Char × Cursor)
  | 0, taken, last, breaks, _, c => .ok (taken, last, breaks, c)
  | fuel + 1, taken, last, breaks, wasBlank, c =>
    if c.mark.column ≠ indent || c.rest.isEmpty then .ok (taken, last, breaks, c)
    else
      let isBlank := c.has 0 isSpaceOrTab
      let joint :=
        if !literal && last.head? = some '\n' && !wasBlank && !isBlank then
          if breaks.isEmpty then [' '] else breaks
        else last ++ breaks
      let (line, c) := c.take fun x => !isBreak x
      let last := c.lineBreak
      match readEmptyLines start (some indent) (c.rest.length + 1) 0 [] c.skipLine with
      | .error flaw => .error flaw
      | .ok (_, breaks, c) =>
        readBlockLines literal start indent fuel (line.reverse ++ joint.reverse ++ taken) last
          breaks isBlank c

/-- A block scalar inside a collection whose indentation is `indent`. -/
def readBlock (literal : Bool) (indent : Int) (c : Cursor) : Except Flaw (List Char × Cursor) := do
  let start := c.mark
  let (chomping, increment, c) ← readBlockHeader start c.skip
  let c := c.skipBlanks.skipComment
  if !c.isLineEnd then .error (c.problem .lineEndExpected .blockScalar start)
  else
    let c := c.skipLine
    let known := increment.map fun n => (if 0 ≤ indent then indent.toNat else 0) + n
    let (deepest, breaks, c) ← readEmptyLines start known (c.rest.length + 1) 0 [] c
    let width := known.getD (max deepest (max (indent + 1).toNat 1))
    let (taken, last, breaks, c) ←
      readBlockLines literal start width (c.rest.length + 1) [] [] breaks false c
    let tail :=
      match chomping with
      | .strip => []
      | .clip => last
      | .keep => last ++ breaks
    return (taken.reverse ++ tail, c)

end AnalysisBrowser.Yaml
