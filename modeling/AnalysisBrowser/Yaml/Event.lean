import AnalysisBrowser.Yaml.Token

/-!
# Events of a YAML text

The nodes of a text in the order in which they begin and end. What is expected next is a stack of
situations; a step looks at the next token, gives one event and leaves the stack that says how to
go on. A value that is left out is an empty plain scalar.
-/
namespace AnalysisBrowser.Yaml

/-- A scalar node. -/
structure Scalar where
  anchor : Option (List Char)
  tag : Option (List Char)
  style : ScalarStyle
  text : List Char

/-- The beginning or the end of a node or of a part of the text. -/
inductive Event where
  | streamStart
  | streamEnd
  | documentStart
  | documentEnd
  | alias (name : List Char)
  | scalar (s : Scalar)
  | sequenceStart (anchor : Option (List Char))
  | sequenceEnd
  | mappingStart (anchor : Option (List Char))
  | mappingEnd

/-- An event with the place where it begins. -/
structure Placed where
  event : Event
  mark : Mark

/-- What is expected next. -/
inductive Situation where
  | streamStart
  | firstDocument
  | nextDocument
  | documentContent
  | documentEnd
  | blockNode
  | blockSequenceEntry
  | indentlessEntry
  | blockMappingKey
  | blockMappingValue
  | flowSequenceFirst
  | flowSequenceEntry
  | flowPairKey
  | flowPairValue
  | flowPairEnd
  | flowMappingFirst
  | flowMappingKey
  | flowMappingValue
  | flowMappingNoValue
  | finished
  deriving DecidableEq, Repr

/-- A text that is being read as events. -/
structure EventStream where
  tokens : TokenStream
  situation : Situation
  /-- What is expected after the current node, innermost first. -/
  pending : List Situation
  /-- Where the collections around the current node began, innermost first. -/
  opened : List Mark
  /-- The meanings of tag handles in the current document. -/
  handles : List (List Char × List Char)

namespace EventStream

def ofChars (cs : List Char) : EventStream := ⟨.ofChars cs, .streamStart, [], [], []⟩

/-- An event and the stream after it. -/
abbrev Step := Except Flaw (Placed × EventStream)

/-- The next token and the stream in which it has been looked at. -/
def peek (s : EventStream) : Except Flaw (Token × EventStream) := do
  let (t, tokens) ← s.tokens.peek
  return (t, { s with tokens })

/-- The stream without its next token. -/
def drop (s : EventStream) : EventStream := { s with tokens := s.tokens.drop }

/-- The stream in another situation. -/
def goto (s : EventStream) (situation : Situation) : EventStream := { s with situation }

/-- The stream in the situation that was pending. -/
def resume (s : EventStream) : EventStream :=
  match s.pending with
  | next :: pending => { s with situation := next, pending }
  | [] => s.goto .finished

/-- The stream with a situation to come back to. -/
def pend (s : EventStream) (situation : Situation) : EventStream :=
  { s with pending := situation :: s.pending }

/-- An empty scalar in place of a value that is left out. -/
def empty (s : EventStream) (mark : Mark) : Step :=
  .ok (⟨.scalar ⟨none, none, .plain, []⟩, mark⟩, s)

/-- The stream inside a collection whose first token comes next. -/
def enter (s : EventStream) (t : Token) : EventStream :=
  { s.drop with opened := t.start :: s.opened }

/-- The end of a collection whose last token comes next. -/
def leave (s : EventStream) (event : Event) (t : Token) : Step :=
  let s := s.resume
  .ok (⟨event, t.start⟩, { s with opened := s.opened.tail }.drop)

/-- A flaw in the innermost collection. -/
def broken (s : EventStream) (p : Problem) (context : Context) (t : Token) : Flaw :=
  .met p t.start (some (context, s.opened.head?.getD t.start))

/-- What may stand before the content of a node. -/
structure Properties where
  start : Mark
  anchor : Option (List Char)
  /-- The handle and the rest of a tag, with its place. -/
  tag : Option (List Char × List Char × Mark)

/-- Reads an anchor and a tag in either order; gives the token after them. -/
def readProperties (t : Token) (s : EventStream) :
    Except Flaw (Properties × Token × EventStream) := do
  match t.kind with
  | .anchor name =>
    let (t', s) ← s.drop.peek
    match t'.kind with
    | .tag handle suffix =>
      let (t'', s) ← s.drop.peek
      return (⟨t.start, some name, some (handle, suffix, t'.start)⟩, t'', s)
    | _ => return (⟨t.start, some name, none⟩, t', s)
  | .tag handle suffix =>
    let (t', s) ← s.drop.peek
    match t'.kind with
    | .anchor name =>
      let (t'', s) ← s.drop.peek
      return (⟨t.start, some name, some (handle, suffix, t.start)⟩, t'', s)
    | _ => return (⟨t.start, none, some (handle, suffix, t.start)⟩, t', s)
  | _ => return (⟨t.start, none, none⟩, t, s)

/-- The whole tag of a node. -/
def resolveTag (s : EventStream) (p : Properties) : Except Flaw (Option (List Char)) :=
  match p.tag with
  | none => .ok none
  | some ([], suffix, _) => .ok (some suffix)
  | some (handle, suffix, mark) =>
    match s.handles.lookup handle with
    | some replacement => .ok (some (replacement ++ suffix))
    | none => .error (.met .undefinedTagHandle mark (some (.node, p.start)))

/-- The beginning of a node: a whole scalar, an alias, or the start of a collection. A sequence may
stand in a block mapping without an indentation of its own. -/
def node (s : EventStream) (inBlock indentless : Bool) : Step := do
  let (t, s) ← s.peek
  match t.kind with
  | .alias name => return (⟨.alias name, t.start⟩, s.resume.drop)
  | _ =>
    let (p, t, s) ← readProperties t s
    let tag ← s.resolveTag p
    match t.kind, inBlock, indentless with
    | .blockEntry, _, true => return (⟨.sequenceStart p.anchor, p.start⟩, s.goto .indentlessEntry)
    | .scalar style text, _, _ =>
      return (⟨.scalar ⟨p.anchor, tag, style, text⟩, p.start⟩, s.resume.drop)
    | .flowSequenceStart, _, _ =>
      return (⟨.sequenceStart p.anchor, p.start⟩, (s.enter t).goto .flowSequenceFirst)
    | .flowMappingStart, _, _ =>
      return (⟨.mappingStart p.anchor, p.start⟩, (s.enter t).goto .flowMappingFirst)
    | .blockSequenceStart, true, _ =>
      return (⟨.sequenceStart p.anchor, p.start⟩, (s.enter t).goto .blockSequenceEntry)
    | .blockMappingStart, true, _ =>
      return (⟨.mappingStart p.anchor, p.start⟩, (s.enter t).goto .blockMappingKey)
    | _, _, _ =>
      if p.anchor.isSome || tag.isSome then
        return (⟨.scalar ⟨p.anchor, tag, .plain, []⟩, p.start⟩, s.resume)
      else
        .error (.met .contentExpected t.start
          (some (if inBlock then .blockNode else .flowNode, p.start)))

/-- A node, after which a situation is expected. -/
def nodeThen (s : EventStream) (inBlock indentless : Bool) (next : Situation) : Step :=
  (s.pend next).node inBlock indentless

/-- The handles that every document knows. -/
def standardHandles : List (List Char × List Char) :=
  [("!".toList, "!".toList), ("!!".toList, "tag:yaml.org,2002:".toList)]

/-- Reads the directives before a document. -/
def readDirectives : Nat → Bool → EventStream → Except Flaw EventStream
  | 0, _, s => .ok s
  | fuel + 1, versioned, s => do
    let (t, s) ← s.peek
    match t.kind with
    | .directive (.version major minor) =>
      if versioned then .error (.met .duplicateVersion t.start none)
      else if major ≠ 1 || (minor ≠ 1 && minor ≠ 2) then
        .error (.met .incompatibleVersion t.start none)
      else readDirectives fuel true s.drop
    | .directive (.tag handle replacement) =>
      if (s.handles.lookup handle).isSome then .error (.met .duplicateTagHandle t.start none)
      else
        let known := { s.drop with handles := s.handles ++ [(handle, replacement)] }
        readDirectives fuel versioned known
    | _ =>
      let known := standardHandles.filter fun h => (s.handles.lookup h.1).isNone
      return { s with handles := s.handles ++ known }

/-- Past the marks that end a document. -/
def skipDocumentEnds : Nat → EventStream → Except Flaw EventStream
  | 0, s => .ok s
  | fuel + 1, s => do
    let (t, s) ← s.peek
    match t.kind with
    | .documentEnd => skipDocumentEnds fuel s.drop
    | _ => return s

/-- A bound on the tokens that are left. -/
def fuel (s : EventStream) : Nat := s.tokens.queue.length + s.tokens.cursor.rest.length + 2

/-- The start of a document, or the end of the text. Only the first one needs no mark. -/
def document (s : EventStream) (first : Bool) : Step := do
  let s ← if first then .ok s else skipDocumentEnds s.fuel s
  let (t, s) ← s.peek
  match t.kind, first with
  | .streamEnd, _ => return (⟨.streamEnd, t.start⟩, s.drop.goto .finished)
  | .directive _, _ | .documentStart, _ | _, false =>
    let start := t.start
    let s ← readDirectives s.fuel false s
    let (t, s) ← s.peek
    match t.kind with
    | .documentStart =>
      return (⟨.documentStart, start⟩, ((s.pend .documentEnd).goto .documentContent).drop)
    | _ => .error (.met .documentStartExpected t.start none)
  | _, true =>
    let s ← readDirectives s.fuel false s
    return (⟨.documentStart, t.start⟩, (s.pend .documentEnd).goto .blockNode)

/-- The content of a document after its mark. -/
def content (s : EventStream) : Step := do
  let (t, s) ← s.peek
  match t.kind with
  | .directive _ | .documentStart | .documentEnd | .streamEnd => s.resume.empty t.start
  | _ => s.node true false

/-- The end of a document, marked or not. -/
def documentClose (s : EventStream) : Step := do
  let (t, s) ← s.peek
  let s := match t.kind with
    | .documentEnd => s.drop
    | _ => s
  return (⟨.documentEnd, t.start⟩, { s with handles := [] }.goto .nextDocument)

def blockSequenceEntry (s : EventStream) : Step := do
  let (t, s) ← s.peek
  match t.kind with
  | .blockEntry =>
    let (t', s) ← s.drop.peek
    match t'.kind with
    | .blockEntry | .blockEnd => (s.goto .blockSequenceEntry).empty t.stop
    | _ => s.nodeThen true false .blockSequenceEntry
  | .blockEnd => s.leave .sequenceEnd t
  | _ => .error (s.broken .dashExpected .blockSequence t)

def indentlessEntry (s : EventStream) : Step := do
  let (t, s) ← s.peek
  match t.kind with
  | .blockEntry =>
    let (t', s) ← s.drop.peek
    match t'.kind with
    | .blockEntry | .key | .value | .blockEnd => (s.goto .indentlessEntry).empty t.stop
    | _ => s.nodeThen true false .indentlessEntry
  | _ => return (⟨.sequenceEnd, t.start⟩, s.resume)

def blockMappingKey (s : EventStream) : Step := do
  let (t, s) ← s.peek
  match t.kind with
  | .key =>
    let (t', s) ← s.drop.peek
    match t'.kind with
    | .key | .value | .blockEnd => (s.goto .blockMappingValue).empty t.stop
    | _ => s.nodeThen true true .blockMappingValue
  | .blockEnd => s.leave .mappingEnd t
  | _ => .error (s.broken .keyExpected .blockMapping t)

def blockMappingValue (s : EventStream) : Step := do
  let (t, s) ← s.peek
  match t.kind with
  | .value =>
    let (t', s) ← s.drop.peek
    match t'.kind with
    | .key | .value | .blockEnd => (s.goto .blockMappingKey).empty t.stop
    | _ => s.nodeThen true true .blockMappingKey
  | _ => (s.goto .blockMappingKey).empty t.start

/-- The token after the comma between two items, or the first one. -/
def afterComma (s : EventStream) (first : Bool) (p : Problem) (context : Context) :
    Except Flaw (Token × EventStream) := do
  let (t, s) ← s.peek
  if first then return (t, s)
  else
    match t.kind with
    | .flowEntry => s.drop.peek
    | _ => .error (s.broken p context t)

def flowSequenceEntry (s : EventStream) (first : Bool) : Step := do
  let (t, s) ← s.peek
  match t.kind with
  | .flowSequenceEnd => s.leave .sequenceEnd t
  | _ =>
    let (t, s) ← s.afterComma first .sequenceEndExpected .flowSequence
    match t.kind with
    | .key => return (⟨.mappingStart none, t.start⟩, s.drop.goto .flowPairKey)
    | .flowSequenceEnd => s.leave .sequenceEnd t
    | _ => s.nodeThen false false .flowSequenceEntry

/-- The key of a mapping of one pair that stands in a sequence. -/
def flowPairKey (s : EventStream) : Step := do
  let (t, s) ← s.peek
  match t.kind with
  | .value | .flowEntry | .flowSequenceEnd => (s.drop.goto .flowPairValue).empty t.stop
  | _ => s.nodeThen false false .flowPairValue

def flowPairValue (s : EventStream) : Step := do
  let (t, s) ← s.peek
  match t.kind with
  | .value =>
    let (t, s) ← s.drop.peek
    match t.kind with
    | .flowEntry | .flowSequenceEnd => (s.goto .flowPairEnd).empty t.start
    | _ => s.nodeThen false false .flowPairEnd
  | _ => (s.goto .flowPairEnd).empty t.start

def flowPairEnd (s : EventStream) : Step := do
  let (t, s) ← s.peek
  return (⟨.mappingEnd, t.start⟩, s.goto .flowSequenceEntry)

def flowMappingKey (s : EventStream) (first : Bool) : Step := do
  let (t, s) ← s.peek
  match t.kind with
  | .flowMappingEnd => s.leave .mappingEnd t
  | _ =>
    let (t, s) ← s.afterComma first .mappingEndExpected .flowMapping
    match t.kind with
    | .key =>
      let (t, s) ← s.drop.peek
      match t.kind with
      | .value | .flowEntry | .flowMappingEnd => (s.goto .flowMappingValue).empty t.start
      | _ => s.nodeThen false false .flowMappingValue
    | .flowMappingEnd => s.leave .mappingEnd t
    | _ => s.nodeThen false false .flowMappingNoValue

def flowMappingValue (s : EventStream) : Step := do
  let (t, s) ← s.peek
  match t.kind with
  | .value =>
    let (t, s) ← s.drop.peek
    match t.kind with
    | .flowEntry | .flowMappingEnd => (s.goto .flowMappingKey).empty t.start
    | _ => s.nodeThen false false .flowMappingKey
  | _ => (s.goto .flowMappingKey).empty t.start

/-- The value of a key that has no mark. -/
def flowMappingNoValue (s : EventStream) : Step := do
  let (t, s) ← s.peek
  (s.goto .flowMappingKey).empty t.start

/-- The start of the whole text. -/
def streamOpen (s : EventStream) : Step := do
  let (t, s) ← s.peek
  return (⟨.streamStart, t.start⟩, (s.goto .firstDocument).drop)

def next (s : EventStream) : Step :=
  match s.situation with
  | .streamStart => s.streamOpen
  | .firstDocument => s.document true
  | .nextDocument => s.document false
  | .documentContent => s.content
  | .documentEnd => s.documentClose
  | .blockNode => s.node true false
  | .blockSequenceEntry => s.blockSequenceEntry
  | .indentlessEntry => s.indentlessEntry
  | .blockMappingKey => s.blockMappingKey
  | .blockMappingValue => s.blockMappingValue
  | .flowSequenceFirst => s.flowSequenceEntry true
  | .flowSequenceEntry => s.flowSequenceEntry false
  | .flowPairKey => s.flowPairKey
  | .flowPairValue => s.flowPairValue
  | .flowPairEnd => s.flowPairEnd
  | .flowMappingFirst => s.flowMappingKey true
  | .flowMappingKey => s.flowMappingKey false
  | .flowMappingValue => s.flowMappingValue
  | .flowMappingNoValue => s.flowMappingNoValue
  | .finished => .ok (⟨.streamEnd, Mark.origin⟩, s)

end EventStream

end AnalysisBrowser.Yaml
