import AnalysisBrowser.Yaml.Scalar
import AnalysisBrowser.Yaml.Tag

/-!
# Tokens of a YAML text

The tokens are fetched as they are asked for. A mapping key is only known as one when its colon is
met, so the places where a key may have begun are kept, one for each collection in brackets around
them, and the marks of the key are put before it afterwards. Indentation opens and closes the
collections that are written as blocks.
-/
namespace AnalysisBrowser.Yaml

/-- The kinds of tokens. -/
inductive TokenKind where
  | streamStart
  | streamEnd
  | directive (d : Directive)
  | documentStart
  | documentEnd
  | blockSequenceStart
  | blockMappingStart
  | blockEnd
  | flowSequenceStart
  | flowSequenceEnd
  | flowMappingStart
  | flowMappingEnd
  | blockEntry
  | flowEntry
  | key
  | value
  | alias (name : List Char)
  | anchor (name : List Char)
  | tag (handle suffix : List Char)
  | scalar (style : ScalarStyle) (text : List Char)

/-- A token with its place. -/
structure Token where
  kind : TokenKind
  start : Mark
  stop : Mark

/-- A place where a key may have begun. -/
structure KeyCandidate where
  /-- Whether nothing but a key can stand there. -/
  required : Bool
  /-- The number of the token that begins there. -/
  number : Nat
  mark : Mark

/-- A text that is being read as tokens. -/
structure TokenStream where
  cursor : Cursor
  started : Bool
  /-- The tokens that have been fetched and not taken. -/
  queue : List Token
  /-- The number of tokens taken. -/
  taken : Nat
  /-- The column of the innermost block, or -1. -/
  indent : Int
  /-- The columns of the blocks around it. -/
  outer : List Int
  keyAllowed : Bool
  /-- A possible key for each collection in brackets, innermost first, and one for the document. -/
  candidates : List (Option KeyCandidate)

namespace TokenStream

/-- The beginning of a text. -/
def ofChars (cs : List Char) : TokenStream where
  cursor := ⟨cs, Mark.origin⟩
  started := false
  queue := []
  taken := 0
  indent := -1
  outer := []
  keyAllowed := true
  candidates := [none]

/-- Whether the cursor is inside a collection in brackets. -/
def inFlow (s : TokenStream) : Bool := 1 < s.candidates.length

def column (s : TokenStream) : Int := s.cursor.mark.column

/-- Puts a token at the end of the queue. -/
def push (s : TokenStream) (t : Token) : TokenStream := { s with queue := s.queue ++ [t] }

/-- Puts a token before the one with a number. -/
def insert (s : TokenStream) (number : Nat) (t : Token) : TokenStream :=
  let before := number - s.taken
  { s with queue := s.queue.take before ++ t :: s.queue.drop before }

def colonMissing (s : TokenStream) (k : KeyCandidate) : Flaw :=
  s.cursor.problem .colonExpected .simpleKey k.mark

/-- Whether a key that began there must have ended. -/
def isStale (s : TokenStream) (k : KeyCandidate) : Bool :=
  k.mark.line < s.cursor.mark.line || k.mark.index + 1024 < s.cursor.mark.index

/-- Gives up the candidates that are on an earlier line or too far back. -/
def dropStale (s : TokenStream) : Except Flaw TokenStream :=
  -- Candidates are looked at from the outermost one on.
  match s.candidates.reverse.findSome? fun k =>
      k.filter fun k => s.isStale k && k.required with
  | some k => .error (s.colonMissing k)
  | none =>
    .ok { s with candidates := s.candidates.map fun k => k.filter fun k => !s.isStale k }

/-- Gives up the innermost candidate. -/
def dropCandidate (s : TokenStream) : Except Flaw TokenStream :=
  match s.candidates with
  | some k :: rest =>
    if k.required then .error (s.colonMissing k) else .ok { s with candidates := none :: rest }
  | _ => .ok s

/-- Notes that a key may begin here, where one is allowed. -/
def noteCandidate (s : TokenStream) : Except Flaw TokenStream :=
  if s.keyAllowed then do
    let k : KeyCandidate :=
      { required := !s.inFlow && s.indent = s.column
        number := s.taken + s.queue.length
        mark := s.cursor.mark }
    let s ← s.dropCandidate
    return { s with candidates := some k :: s.candidates.tail }
  else .ok s

/-- Opens a block where the indentation grows. -/
def openBlock (s : TokenStream) (column : Int) (kind : TokenKind) (mark : Mark)
    (number : Option Nat) : TokenStream :=
  if s.inFlow then s
  else if s.indent < column then
    let opened := { s with outer := s.indent :: s.outer, indent := column }
    match number with
    | none => opened.push ⟨kind, mark, mark⟩
    | some n => opened.insert n ⟨kind, mark, mark⟩
  else s

/-- The blocks that are closed at a column, and the columns that stay. -/
def closedBlocks (column : Int) : Int → List Int → Nat × Int × List Int
  | indent, [] => (if column < indent then 1 else 0, if column < indent then -1 else indent, [])
  | indent, next :: outer =>
    if column < indent then
      let closed := closedBlocks column next outer
      (closed.1 + 1, closed.2)
    else (0, indent, next :: outer)

/-- Closes the blocks that are indented beyond a column. -/
def closeBlocks (s : TokenStream) (column : Int) : TokenStream :=
  if s.inFlow then s
  else
    let closed := closedBlocks column s.indent s.outer
    let mark := s.cursor.mark
    { s with
      queue := s.queue ++ List.replicate closed.1 ⟨.blockEnd, mark, mark⟩
      indent := closed.2.1
      outer := closed.2.2 }

/-- Takes so many characters as a token. -/
def takeMark (s : TokenStream) (kind : TokenKind) (length : Nat) : TokenStream :=
  let next := s.cursor.skips length
  { s with cursor := next }.push ⟨kind, s.cursor.mark, next.mark⟩

/-- Past blanks, comments and line breaks. A tab is no blank where a key may begin in a block. -/
def skipGap : Nat → TokenStream → TokenStream
  | 0, s => s
  | fuel + 1, s =>
    let c := if s.cursor.mark.index = 0 && s.cursor.startsWith '\uFEFF' then s.cursor.skip
      else s.cursor
    let c := c.dropWhile fun x => x = ' ' || ((s.inFlow || !s.keyAllowed) && x = '\t')
    let c := c.skipComment
    if c.has 0 isBreak then
      skipGap fuel { s with cursor := c.skipLine, keyAllowed := s.keyAllowed || !s.inFlow }
    else { s with cursor := c }

/-- The end of the text closes every block. -/
def fetchStreamEnd (s : TokenStream) : Except Flaw TokenStream := do
  let m := s.cursor.mark
  let m : Mark := if m.column = 0 then m else ⟨m.index, m.line + 1, 0⟩
  let s := { s with cursor := ⟨s.cursor.rest, m⟩ }.closeBlocks (-1)
  let s ← s.dropCandidate
  return { s with keyAllowed := false }.push ⟨.streamEnd, m, m⟩

def fetchDirective (s : TokenStream) : Except Flaw TokenStream := do
  let s ← (s.closeBlocks (-1)).dropCandidate
  let (d, stop, c) ← readDirective s.cursor
  return { s with cursor := c, keyAllowed := false }.push ⟨.directive d, s.cursor.mark, stop⟩

def fetchDocumentMarker (s : TokenStream) (kind : TokenKind) : Except Flaw TokenStream := do
  let s ← (s.closeBlocks (-1)).dropCandidate
  return { s with keyAllowed := false }.takeMark kind 3

def fetchFlowStart (s : TokenStream) (kind : TokenKind) : Except Flaw TokenStream := do
  let s ← s.noteCandidate
  return { s with candidates := none :: s.candidates, keyAllowed := true }.takeMark kind 1

def fetchFlowEnd (s : TokenStream) (kind : TokenKind) : Except Flaw TokenStream := do
  let s ← s.dropCandidate
  let candidates := if s.inFlow then s.candidates.tail else s.candidates
  return { s with candidates, keyAllowed := false }.takeMark kind 1

def fetchFlowEntry (s : TokenStream) : Except Flaw TokenStream := do
  let s ← s.dropCandidate
  return { s with keyAllowed := true }.takeMark .flowEntry 1

def fetchBlockEntry (s : TokenStream) : Except Flaw TokenStream := do
  if !s.inFlow && !s.keyAllowed then .error (.met .entryNotAllowed s.cursor.mark none)
  else
    let s := s.openBlock s.column .blockSequenceStart s.cursor.mark none
    let s ← s.dropCandidate
    return { s with keyAllowed := true }.takeMark .blockEntry 1

def fetchKey (s : TokenStream) : Except Flaw TokenStream := do
  if !s.inFlow && !s.keyAllowed then .error (.met .keyNotAllowed s.cursor.mark none)
  else
    let s := s.openBlock s.column .blockMappingStart s.cursor.mark none
    let s ← s.dropCandidate
    return { s with keyAllowed := !s.inFlow }.takeMark .key 1

/-- A colon makes the innermost candidate a key; without one it follows a key that was marked. -/
def fetchValue (s : TokenStream) : Except Flaw TokenStream :=
  match s.candidates with
  | some k :: rest =>
    let s := { s with candidates := none :: rest, keyAllowed := false }
    let s := s.insert k.number ⟨.key, k.mark, k.mark⟩
    let s := s.openBlock k.mark.column .blockMappingStart k.mark (some k.number)
    .ok (s.takeMark .value 1)
  | _ =>
    if s.inFlow then .ok ({ s with keyAllowed := false }.takeMark .value 1)
    else if !s.keyAllowed then .error (.met .valueNotAllowed s.cursor.mark none)
    else
      let s := s.openBlock s.column .blockMappingStart s.cursor.mark none
      .ok ({ s with keyAllowed := true }.takeMark .value 1)

def fetchAnchor (s : TokenStream) (context : Context) (kind : List Char → TokenKind) :
    Except Flaw TokenStream := do
  let s ← s.noteCandidate
  let (name, c) ← readAnchorName context s.cursor
  return { s with cursor := c, keyAllowed := false }.push ⟨kind name, s.cursor.mark, c.mark⟩

def fetchTag (s : TokenStream) : Except Flaw TokenStream := do
  let s ← s.noteCandidate
  let (handle, suffix, c) ← readTag s.inFlow s.cursor
  return { s with cursor := c, keyAllowed := false }.push
    ⟨.tag handle suffix, s.cursor.mark, c.mark⟩

def fetchBlockScalar (s : TokenStream) (style : ScalarStyle) : Except Flaw TokenStream := do
  let s ← s.dropCandidate
  let (text, c) ← readBlock (style = .literal) s.indent s.cursor
  return { s with cursor := c, keyAllowed := true }.push
    ⟨.scalar style text, s.cursor.mark, c.mark⟩

def fetchQuotedScalar (s : TokenStream) (style : ScalarStyle) : Except Flaw TokenStream := do
  let s ← s.noteCandidate
  let (text, c) ← readQuoted (style = .singleQuoted) s.cursor
  return { s with cursor := c, keyAllowed := false }.push
    ⟨.scalar style text, s.cursor.mark, c.mark⟩

def fetchPlainScalar (s : TokenStream) : Except Flaw TokenStream := do
  let s ← s.noteCandidate
  let p ← readPlain s.inFlow s.indent s.cursor
  return { s with cursor := p.next, keyAllowed := p.broken }.push
    ⟨.scalar .plain p.text, s.cursor.mark, p.stop⟩

/-- Whether no plain scalar starts with this character, whatever follows. -/
def isIndicator (c : Char) : Bool :=
  isFlowMark c || c.toNat = 0x60 ||
    ['-', '?', ':', '#', '&', '*', '!', '|', '>', '\'', '"', '%', '@'].contains c

/-- Whether a plain scalar starts here. -/
def startsPlain (s : TokenStream) (x : Char) : Bool :=
  !(s.cursor.isGapAt 0 || isIndicator x) ||
    (x = '-' && !s.cursor.has 1 isSpaceOrTab) ||
    (!s.inFlow && (x = '?' || x = ':') && !s.cursor.isGapAt 1)

def fetchAt (s : TokenStream) (x : Char) : Except Flaw TokenStream :=
  let marksHere := s.inFlow || s.cursor.isGapAt 1
  if s.cursor.mark.column = 0 && x = '%' then s.fetchDirective
  else if s.cursor.isDocumentMarker '-' then s.fetchDocumentMarker .documentStart
  else if s.cursor.isDocumentMarker '.' then s.fetchDocumentMarker .documentEnd
  else if x = '[' then s.fetchFlowStart .flowSequenceStart
  else if x = '\x7b' then s.fetchFlowStart .flowMappingStart
  else if x = ']' then s.fetchFlowEnd .flowSequenceEnd
  else if x = '\x7d' then s.fetchFlowEnd .flowMappingEnd
  else if x = ',' then s.fetchFlowEntry
  else if x = '-' && s.cursor.isGapAt 1 then s.fetchBlockEntry
  else if x = '?' && marksHere then s.fetchKey
  else if x = ':' && marksHere then s.fetchValue
  else if x = '*' then s.fetchAnchor .alias .alias
  else if x = '&' then s.fetchAnchor .anchor .anchor
  else if x = '!' then s.fetchTag
  else if x = '|' && !s.inFlow then s.fetchBlockScalar .literal
  else if x = '>' && !s.inFlow then s.fetchBlockScalar .folded
  else if x = '\'' then s.fetchQuotedScalar .singleQuoted
  else if x = '"' then s.fetchQuotedScalar .doubleQuoted
  else if s.startsPlain x then s.fetchPlainScalar
  else .error (s.cursor.problem .noToken .nextToken s.cursor.mark)

/-- Fetches the tokens that the next stretch of the text gives. -/
def fetchNext (s : TokenStream) : Except Flaw TokenStream :=
  if !s.started then
    .ok ({ s with started := true }.push ⟨.streamStart, s.cursor.mark, s.cursor.mark⟩)
  else do
    let s ← (skipGap (s.cursor.rest.length + 1) s).dropStale
    let s := s.closeBlocks s.column
    match s.cursor.rest with
    | [] => s.fetchStreamEnd
    | x :: _ => s.fetchAt x

/-- Whether the first token of the queue may still turn out to be a key. -/
def headMayBeKey (s : TokenStream) : Bool :=
  s.candidates.any fun k => k.any fun k => k.number = s.taken

/-- Fetches until the first token of the queue is certain. -/
def fill : Nat → TokenStream → Except Flaw TokenStream
  | 0, s => .ok s
  | fuel + 1, s =>
    if s.queue.isEmpty then do fill fuel (← s.fetchNext)
    else do
      let s ← s.dropStale
      if s.headMayBeKey then fill fuel (← s.fetchNext) else return s

/-- The next token, which stays in the stream. -/
def peek (s : TokenStream) : Except Flaw (Token × TokenStream) := do
  let s ← fill (s.cursor.rest.length + 4) s
  match s.queue with
  | t :: _ => return (t, s)
  | [] => return (⟨.streamEnd, s.cursor.mark, s.cursor.mark⟩, s)

/-- The stream without its next token, which has been looked at. -/
def drop (s : TokenStream) : TokenStream :=
  { s with queue := s.queue.tail, taken := s.taken + 1 }

end TokenStream

end AnalysisBrowser.Yaml
