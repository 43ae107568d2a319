import AnalysisBrowser.Number.Natural

/-!
# Flaws of a YAML text

A flaw says what was met, where, and what was being read at the time. Places are counted from zero
and shown from one; the very first place is not shown, and neither is the start of what was being
read where it is the place of the flaw itself.
-/
namespace AnalysisBrowser.Yaml

/-- A place in a text: the characters before it, its line and its column, all from zero. -/
structure Mark where
  index : Nat
  line : Nat
  column : Nat
  deriving DecidableEq, Repr

namespace Mark

/-- The start of a text. -/
def origin : Mark := ⟨0, 0, 0⟩

/-- Whether a place is the first one of a text. -/
def isOrigin (m : Mark) : Bool := m.line = 0 && m.column = 0

/-- Whether two places are the same, whatever stands before them. -/
def samePlace (m n : Mark) : Bool := m.line = n.line && m.column = n.column

/-- The wording of a place. -/
def text (m : Mark) : String :=
  "line " ++ Number.decimal (m.line + 1) ++ " column " ++ Number.decimal (m.column + 1)

/-- The wording of a place after a message; nothing for the first place. -/
def suffix (m : Mark) : String := if m.isOrigin then "" else " at " ++ m.text

end Mark

/-- What was met. -/
inductive Problem where
  | unknownDirective
  | lineEndExpected
  | directiveNameExpected
  | directiveNameUnclosed
  | versionPointExpected
  | versionTooLong
  | versionExpected
  | blankExpected
  | blankOrBreakExpected
  | nameExpected
  | tagCloserExpected
  | tagOpenerExpected
  | tagExpected
  | octetExpected
  | wrongLeadingOctet
  | wrongTrailingOctet
  | zeroIndentation
  | tabForIndentation
  | documentMarkerInQuotes
  | quoteUnclosed
  | unknownEscape
  | hexDigitExpected
  | escapeOutOfRange
  | unexpectedColon
  | tabInIndentation
  | colonExpected
  | entryNotAllowed
  | keyNotAllowed
  | valueNotAllowed
  | noToken
  | documentStartExpected
  | undefinedTagHandle
  | contentExpected
  | dashExpected
  | keyExpected
  | sequenceEndExpected
  | mappingEndExpected
  | duplicateVersion
  | incompatibleVersion
  | duplicateTagHandle
  deriving DecidableEq, Repr

/-- The wording of each problem. -/
def Problem.message : Problem → String
  | .unknownDirective => "found unknown directive name"
  | .lineEndExpected => "did not find expected comment or line break"
  | .directiveNameExpected => "could not find expected directive name"
  | .directiveNameUnclosed => "found unexpected non-alphabetical character"
  | .versionPointExpected => "did not find expected digit or '.' character"
  | .versionTooLong => "found extremely long version number"
  | .versionExpected => "did not find expected version number"
  | .blankExpected => "did not find expected whitespace"
  | .blankOrBreakExpected => "did not find expected whitespace or line break"
  | .nameExpected => "did not find expected alphabetic or numeric character"
  | .tagCloserExpected => "did not find the expected '>'"
  | .tagOpenerExpected => "did not find expected '!'"
  | .tagExpected => "did not find expected tag URI"
  | .octetExpected => "did not find URI escaped octet"
  | .wrongLeadingOctet => "found an incorrect leading UTF-8 octet"
  | .wrongTrailingOctet => "found an incorrect trailing UTF-8 octet"
  | .zeroIndentation => "found an indentation indicator equal to 0"
  | .tabForIndentation => "found a tab character where an indentation space is expected"
  | .documentMarkerInQuotes => "found unexpected document indicator"
  | .quoteUnclosed => "found unexpected end of stream"
  | .unknownEscape => "found unknown escape character"
  | .hexDigitExpected => "did not find expected hexdecimal number"
  | .escapeOutOfRange => "found invalid Unicode character escape code"
  | .unexpectedColon => "found unexpected ':'"
  | .tabInIndentation => "found a tab character that violates indentation"
  | .colonExpected => "could not find expected ':'"
  | .entryNotAllowed => "block sequence entries are not allowed in this context"
  | .keyNotAllowed => "mapping keys are not allowed in this context"
  | .valueNotAllowed => "mapping values are not allowed in this context"
  | .noToken => "found character that cannot start any token"
  | .documentStartExpected => "did not find expected <document start>"
  | .undefinedTagHandle => "found undefined tag handle"
  | .contentExpected => "did not find expected node content"
  | .dashExpected => "did not find expected '-' indicator"
  | .keyExpected => "did not find expected key"
  | .sequenceEndExpected => "did not find expected ',' or ']'"
  | .mappingEndExpected => "did not find expected ',' or '\x7d'"
  | .duplicateVersion => "found duplicate %YAML directive"
  | .incompatibleVersion => "found incompatible YAML document"
  | .duplicateTagHandle => "found duplicate %TAG directive"

/-- What was being read. -/
inductive Context where
  | directive
  | versionDirective
  | tagDirective
  | tagHandle
  | tagHandleEnd
  | tagPrefix
  | tagToken
  | tagContent
  | anchor
  | alias
  | blockScalar
  | quotedScalar
  | quotedEscape
  | plainScalar
  | simpleKey
  | nextToken
  | node
  | blockNode
  | flowNode
  | blockSequence
  | blockMapping
  | flowSequence
  | flowMapping
  deriving DecidableEq, Repr

/-- The wording of each context. -/
def Context.phrase : Context → String
  | .directive => "while scanning a directive"
  | .versionDirective => "while scanning a %YAML directive"
  | .tagDirective => "while scanning a %TAG directive"
  | .tagHandle => "while scanning a tag directive"
  | .tagHandleEnd => "while parsing a tag directive"
  | .tagPrefix => "while parsing a %TAG directive"
  | .tagToken => "while scanning a tag"
  | .tagContent => "while parsing a tag"
  | .anchor => "while scanning an anchor"
  | .alias => "while scanning an alias"
  | .blockScalar => "while scanning a block scalar"
  | .quotedScalar => "while scanning a quoted scalar"
  | .quotedEscape => "while parsing a quoted scalar"
  | .plainScalar => "while scanning a plain scalar"
  | .simpleKey => "while scanning a simple key"
  | .nextToken => "while scanning for the next token"
  | .node => "while parsing a node"
  | .blockNode => "while parsing a block node"
  | .flowNode => "while parsing a flow node"
  | .blockSequence => "while parsing a block collection"
  | .blockMapping => "while parsing a block mapping"
  | .flowSequence => "while parsing a flow sequence"
  | .flowMapping => "while parsing a flow mapping"

/-- A flaw of a text. -/
inductive Flaw where
  /-- A character that no text may hold, after so many bytes. -/
  | forbiddenCharacter (offset : Nat)
  /-- A problem at a place, with what was being read and where that began. -/
  | met (problem : Problem) (place : Mark) (context : Option (Context × Mark))
  deriving DecidableEq, Repr

/-- The wording of a flaw. -/
def Flaw.message : Flaw → String
  | .forbiddenCharacter offset =>
    "control characters are not allowed" ++
      if offset = 0 then "" else " at position " ++ Number.decimal offset
  | .met problem place none => problem.message ++ place.suffix
  | .met problem place (some (context, start)) =>
    problem.message ++ place.suffix ++ ", " ++ context.phrase ++
      if start.samePlace place then "" else start.suffix

end AnalysisBrowser.Yaml
