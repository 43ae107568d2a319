import AnalysisBrowser.Yaml.Cursor

/-!
# Directives, anchors and tags

The marks of a YAML text that say something about a node or a document. An octet that a tag writes
with a percent sign is kept as the character with that number.
-/
namespace AnalysisBrowser.Yaml

/-- The name of an anchor or of an alias, after its first character. -/
def readAnchorName (context : Context) (c : Cursor) : Except Flaw (List Char × Cursor) :=
  let start := c.mark
  let (name, c) := c.skip.take isNameChar
  let closes (x : Char) : Bool :=
    x = '?' || x = ':' || x = ',' || x = ']' || x = '\x7d' || x = '%' || x = '@' || x.toNat = 0x60
  if name.isEmpty || !(c.isGapAt 0 || c.has 0 closes) then
    .error (c.problem .nameExpected context start)
  else .ok (name, c)

/-- Whether a character can stand in a tag. -/
def isTagChar (verbatim : Bool) (c : Char) : Bool :=
  isNameChar c ||
    [';', '/', '?', ':', '@', '&', '=', '+', '$', '.', '%', '!', '~', '*', '\'', '(', ')'].contains
      c ||
    (verbatim && (c = ',' || c = '[' || c = ']'))

/-- The number of octets of a character that begins with this one. -/
def octetCount? (octet : Nat) : Option Nat :=
  if octet < 0x80 then some 1
  else if 0xC0 ≤ octet && octet < 0xE0 then some 2
  else if 0xE0 ≤ octet && octet < 0xF0 then some 3
  else if 0xF0 ≤ octet && octet < 0xF8 then some 4
  else none

/-- One octet written with a percent sign. -/
def readOctet (context : Context) (start : Mark) (c : Cursor) : Except Flaw (Nat × Cursor) :=
  match c.rest with
  | '%' :: a :: b :: _ =>
    match hexValue? a, hexValue? b with
    | some high, some low => .ok (high * 16 + low, c.skips 3)
    | _, _ => .error (c.problem .octetExpected context start)
  | _ => .error (c.problem .octetExpected context start)

/-- The octets of a character after the first one. -/
def readTrailingOctets (context : Context) (start : Mark) :
    Nat → Cursor → Except Flaw (List Char × Cursor)
  | 0, c => .ok ([], c)
  | missing + 1, c => do
    let (octet, next) ← readOctet context start c
    if 0x80 ≤ octet && octet < 0xC0 then
      let (octets, c) ← readTrailingOctets context start missing next
      return (Char.ofNat octet :: octets, c)
    else .error (c.problem .wrongTrailingOctet context start)

/-- A character written as octets. -/
def readOctets (context : Context) (start : Mark) (c : Cursor) :
    Except Flaw (List Char × Cursor) := do
  let (octet, next) ← readOctet context start c
  match octetCount? octet with
  | none => .error (c.problem .wrongLeadingOctet context start)
  | some n =>
    let (octets, c) ← readTrailingOctets context start (n - 1) next
    return (Char.ofNat octet :: octets, c)

def readTagChars (verbatim : Bool) (context : Context) (start : Mark) :
    Nat → Cursor → Except Flaw (List Char × Cursor)
  | 0, c => .ok ([], c)
  | fuel + 1, c =>
    match c.rest with
    | [] => .ok ([], c)
    | x :: _ =>
      if !isTagChar verbatim x then .ok ([], c)
      else if x = '%' then do
        let (octets, c) ← readOctets context start c
        let (more, c) ← readTagChars verbatim context start fuel c
        return (octets ++ more, c)
      else do
        let (more, c) ← readTagChars verbatim context start fuel c.skip
        return (x :: more, c)

/-- The text of a tag, after the part of it that was read as a handle. It is empty only where that
part holds more than its first character. -/
def readTagText (verbatim : Bool) (context : Context) (start : Mark) (head : List Char)
    (c : Cursor) : Except Flaw (List Char × Cursor) := do
  let (text, next) ← readTagChars verbatim context start (c.rest.length + 1) c
  if head.isEmpty && text.isEmpty then .error (next.problem .tagExpected context start)
  else return (head.tail ++ text, next)

/-- A handle: an exclamation mark, a name and perhaps a second exclamation mark. -/
def readTagHandle (inDirective : Bool) (start : Mark) (c : Cursor) :
    Except Flaw (List Char × Cursor) :=
  if !c.startsWith '!' then
    .error (c.problem .tagOpenerExpected (if inDirective then .tagHandle else .tagToken) start)
  else
    let (name, c) := c.skip.take isNameChar
    if c.startsWith '!' then .ok ('!' :: name ++ ['!'], c.skip)
    else if inDirective && !name.isEmpty then
      .error (c.problem .tagOpenerExpected .tagHandleEnd start)
    else .ok ('!' :: name, c)

/-- A tag as a handle and the text after it. A tag in angle brackets has an empty handle, and so
has the exclamation mark that stands alone. -/
def readTag (inFlow : Bool) (c : Cursor) : Except Flaw (List Char × List Char × Cursor) := do
  let start := c.mark
  let (handle, suffix, c) ←
    if c.at? 1 = some '<' then do
      let (text, c) ← readTagText true .tagContent start [] (c.skips 2)
      if c.startsWith '>' then .ok (([] : List Char), text, c.skip)
      else .error (c.problem .tagCloserExpected .tagToken start)
    else do
      let (handle, c) ← readTagHandle false start c
      if 1 < handle.length && handle.getLast? = some '!' then
        let (text, c) ← readTagText false .tagContent start [] c
        .ok (handle, text, c)
      else
        let (text, c) ← readTagText false .tagContent start handle c
        .ok (if text.isEmpty then ([], ['!'], c) else (['!'], text, c))
  if (inFlow && c.startsWith ',') || c.isGapAt 0 then .ok (handle, suffix, c)
  else .error (c.problem .blankOrBreakExpected .tagToken start)

/-- A line that says something about the document after it. -/
inductive Directive where
  | version (major minor : Nat)
  | tag (handle replacement : List Char)

/-- The digits of a version, at most nine of them. -/
def readVersionDigits (start : Mark) :
    Nat → Nat → Nat → Cursor → Except Flaw (Nat × Nat × Cursor)
  | 0, count, value, c => .ok (count, value, c)
  | fuel + 1, count, value, c =>
    match c.rest with
    | x :: _ =>
      if x.isDigit then
        if 9 ≤ count then .error (c.problem .versionTooLong .versionDirective start)
        else readVersionDigits start fuel (count + 1) (value * 10 + (x.toNat - '0'.toNat)) c.skip
      else .ok (count, value, c)
    | [] => .ok (count, value, c)

/-- A part of a version. -/
def readVersionNumber (start : Mark) (c : Cursor) : Except Flaw (Nat × Cursor) := do
  let (count, value, c) ← readVersionDigits start (c.rest.length + 1) 0 0 c
  if count = 0 then .error (c.problem .versionExpected .versionDirective start)
  else return (value, c)

/-- The version that a directive names. -/
def readVersion (start : Mark) (c : Cursor) : Except Flaw (Directive × Cursor) := do
  let (major, c) ← readVersionNumber start c.skipBlanks
  if !c.startsWith '.' then .error (c.problem .versionPointExpected .versionDirective start)
  else
    let (minor, c) ← readVersionNumber start c.skip
    return (.version major minor, c)

/-- The handle that a directive gives a meaning to. -/
def readTagDirective (start : Mark) (c : Cursor) : Except Flaw (Directive × Cursor) := do
  let (handle, c) ← readTagHandle true start c.skipBlanks
  if !c.has 0 isSpaceOrTab then .error (c.problem .blankExpected .tagDirective start)
  else
    let (text, c) ← readTagText true .tagPrefix start [] c.skipBlanks
    if !c.isGapAt 0 then .error (c.problem .blankOrBreakExpected .tagDirective start)
    else return (.tag handle text, c)

/-- A directive, up to its end and past the end of its line. -/
def readDirective (c : Cursor) : Except Flaw (Directive × Mark × Cursor) := do
  let start := c.mark
  let (name, c) := c.skip.take isNameChar
  if name.isEmpty then .error (c.problem .directiveNameExpected .directive start)
  else if !c.isGapAt 0 then .error (c.problem .directiveNameUnclosed .directive start)
  else
    let (directive, c) ←
      if name = ['Y', 'A', 'M', 'L'] then readVersion start c
      else if name = ['T', 'A', 'G'] then readTagDirective start c
      else .error (c.problem .unknownDirective .directive start)
    let stop := c.mark
    let c := c.skipBlanks.skipComment
    if !c.isLineEnd then .error (c.problem .lineEndExpected .directive start)
    else return (directive, stop, c.skipLine)

end AnalysisBrowser.Yaml
