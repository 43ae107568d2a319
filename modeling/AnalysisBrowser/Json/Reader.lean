import AnalysisBrowser.Json.Document
import AnalysisBrowser.Text.Utf16

/-!
# Reading a JSON text

The reader goes through the characters once and never fails: what it cannot read ends the document
with a break. It recurses on a budget that the length of the text covers, since every value takes
at least one character.
-/
namespace AnalysisBrowser.Json

open Text (isLeadUnit isTrailUnit pairChar)

/-- A place in a text together with what follows it. -/
structure Cursor where
  position : Position
  rest : List Char

/-- White space between the parts of a JSON text. -/
def isGap (c : Char) : Bool := c = ' ' || c = '\n' || c = '\t' || c = '\r'

/-- Passes over white space. -/
def skipGap (p : Position) : List Char → Cursor
  | [] => ⟨p, []⟩
  | c :: rest => if isGap c then skipGap (p.after c) rest else ⟨p, c :: rest⟩

def readWord (p : Position) : List Char → List Char → Except Break Cursor
  | [], cs => .ok ⟨p, cs⟩
  | _ :: _, [] => .error (Flaw.endInValue.break p)
  | w :: word, c :: rest =>
    if c = w then readWord (p.right 1) word rest
    else .error (Flaw.expectedWord.break (p.touch c))

/-- The digits at the front and what follows them. -/
def spanDigits : List Char → List Char × List Char
  | [] => ([], [])
  | c :: rest =>
    if c.isDigit then
      let (ds, more) := spanDigits rest
      (c :: ds, more)
    else ([], c :: rest)

/-- The end of the text in a number. -/
def endInNumber (p : Position) : Break := ⟨Flaw.endInValue.at p, Flaw.invalidNumber.at p⟩

/-- A character that a number cannot have here, or the end of the text. -/
def brokenNumber (p : Position) : List Char → Break
  | [] => endInNumber p
  | c :: _ => Flaw.invalidNumber.break (p.touch c)

/-- Reads the integer digits: a single zero, or digits that do not start with one. -/
def readWhole (p : Position) : List Char → Except Break (List Char × Cursor)
  | '0' :: c :: rest =>
    if c.isDigit then .error (Flaw.invalidNumber.break (p.right 2))
    else .ok (['0'], ⟨p.right 1, c :: rest⟩)
  | cs =>
    match spanDigits cs with
    | ([], _) => .error (brokenNumber p cs)
    | (ds, rest) => .ok (ds, ⟨p.right ds.length, rest⟩)

/-- Reads a point and the digits after it, if there is one. -/
def readFraction (c : Cursor) : Except Break (List Char × Cursor) :=
  match c.rest with
  | '.' :: cs =>
    let p := c.position.right 1
    match spanDigits cs with
    | ([], _) => .error (brokenNumber p cs)
    | (ds, rest) => .ok (ds, ⟨p.right ds.length, rest⟩)
  | _ => .ok ([], c)

/-- Reads the sign of an exponent. -/
def readSign (p : Position) : List Char → Bool × Cursor
  | '+' :: cs => (false, ⟨p.right 1, cs⟩)
  | '-' :: cs => (true, ⟨p.right 1, cs⟩)
  | cs => (false, ⟨p, cs⟩)

/-- Reads the digits of an exponent after its mark. -/
def readPower (p : Position) (cs : List Char) : Except Break (Option Number.Exponent × Cursor) :=
  let (negative, c) := readSign p cs
  match spanDigits c.rest with
  | ([], _) => .error (brokenNumber c.position c.rest)
  | (ds, rest) => .ok (some ⟨negative, ds⟩, ⟨c.position.right ds.length, rest⟩)

def readExponent (c : Cursor) : Except Break (Option Number.Exponent × Cursor) :=
  match c.rest with
  | 'e' :: cs => readPower (c.position.right 1) cs
  | 'E' :: cs => readPower (c.position.right 1) cs
  | _ => .ok (none, c)

/-- Reads a number after its sign. -/
def readNumber (negative : Bool) (p : Position) (cs : List Char) :
    Except Break (Number.Literal × Cursor) :=
  match readWhole p cs with
  | .error broke => .error broke
  | .ok (whole, afterWhole) =>
    match readFraction afterWhole with
    | .error broke => .error broke
    | .ok (fraction, afterFraction) =>
      match readExponent afterFraction with
      | .error broke => .error broke
      | .ok (exponent, afterExponent) => .ok (⟨negative, whole, fraction, exponent⟩, afterExponent)

/-- One element of a string as written. -/
inductive Mark where
  | plain (c : Char)
  | short (c : Char)
  /-- A code unit in four hexadecimal digits. -/
  | unit (code : Nat)

/-- An element and the place after it. -/
structure PlacedMark where
  mark : Mark
  after : Position

/-- How a string ends. -/
inductive StringEnd where
  | closed (after : Position) (rest : List Char)
  /-- `afterLead` is where a leading surrogate just before this point is missed its partner. -/
  | stopped (broke : Break) (afterLead : Option Position)

/-- The value of a hexadecimal digit. -/
def hexValue? (c : Char) : Option Nat :=
  if '0' ≤ c && c ≤ '9' then some (c.toNat - '0'.toNat)
  else if 'a' ≤ c && c ≤ 'f' then some (c.toNat - 'a'.toNat + 10)
  else if 'A' ≤ c && c ≤ 'F' then some (c.toNat - 'A'.toNat + 10)
  else none

/-- The value of four hexadecimal digits. -/
def hexUnit? (a b c d : Char) : Option Nat :=
  match hexValue? a, hexValue? b, hexValue? c, hexValue? d with
  | some a, some b, some c, some d => some (((a * 16 + b) * 16 + c) * 16 + d)
  | _, _, _, _ => none

/-- The break in an escape whose next four bytes are no hexadecimal digits. -/
def brokenHex (p : Position) : Nat → List Char → Break
  | 0, _ => Flaw.invalidEscape.break p
  | _ + 1, [] => Flaw.endInString.break p
  | bytes + 1, c :: rest =>
    if c.utf8Size ≤ bytes + 1 then brokenHex (p.after c) (bytes + 1 - c.utf8Size) rest
    else Flaw.invalidEscape.break (p.right (bytes + 1))

/-- The character that a letter after a backslash stands for. -/
def shortEscape? : Char → Option Char
  | '"' => some '"'
  | '\\' => some '\\'
  | '/' => some '/'
  | 'b' => some '\x08'
  | 'f' => some '\x0c'
  | 'n' => some '\n'
  | 'r' => some '\r'
  | 't' => some '\t'
  | _ => none

/-- Reads the elements of a string after the opening quote. -/
def readMarks (p : Position) : List Char → List PlacedMark × StringEnd
  | [] => ([], .stopped (Flaw.endInString.break p) none)
  | '"' :: rest => ([], .closed (p.right 1) rest)
  | ['\\'] => ([], .stopped (Flaw.endInString.break (p.right 1)) none)
  | '\\' :: 'u' :: a :: b :: c :: d :: rest =>
    match hexUnit? a b c d with
    | none => ([], .stopped (brokenHex (p.right 2) 4 (a :: b :: c :: d :: rest)) none)
    | some code =>
      let after := p.right 6
      let (marks, stop) := readMarks after rest
      (⟨.unit code, after⟩ :: marks, stop)
  | '\\' :: 'u' :: rest => ([], .stopped (brokenHex (p.right 2) 4 rest) none)
  | '\\' :: e :: rest =>
    match shortEscape? e with
    | none =>
      let place := (p.right 1).touch e
      ([], .stopped (Flaw.invalidEscape.break place) (some place))
    | some c =>
      let after := p.right 2
      let (marks, stop) := readMarks after rest
      (⟨.short c, after⟩ :: marks, stop)
  | c :: rest =>
    if c.toNat < 0x20 then
      let place := p.after c
      ([], .stopped ⟨Flaw.controlCharacter.at place, Flaw.controlCharacter.at p⟩ (some place))
    else
      let after := p.after c
      let (marks, stop) := readMarks after rest
      (⟨.plain c, after⟩ :: marks, stop)

/-- The place after the first byte of an element that should have been an escape. -/
def PlacedMark.touched (m : PlacedMark) : Position :=
  match m.mark with
  | .plain c => ⟨m.after.line, m.after.column + 1 - c.utf8Size⟩
  | _ => m.after

/-- The text of a string, up to the first surrogate without its partner. -/
def assemble (stop : StringEnd) : Option Nat → List PlacedMark → List Char × Option Fault
  | none, [] => ([], none)
  | some _, [] =>
    match stop with
    | .closed after _ => ([], some (Flaw.unfinishedPair.at after))
    | .stopped _ (some place) => ([], some (Flaw.unfinishedPair.at place))
    | .stopped _ none => ([], none)
  | none, m :: rest =>
    match m.mark with
    | .plain c =>
      let (cs, flaw) := assemble stop none rest
      (c :: cs, flaw)
    | .short c =>
      let (cs, flaw) := assemble stop none rest
      (c :: cs, flaw)
    | .unit n =>
      if isTrailUnit n then ([], some (Flaw.loneSurrogate.at m.after))
      else if isLeadUnit n then assemble stop (some n) rest
      else
        let (cs, flaw) := assemble stop none rest
        (Char.ofNat n :: cs, flaw)
  | some lead, m :: rest =>
    match m.mark with
    | .unit n =>
      if isTrailUnit n then
        let (cs, flaw) := assemble stop none rest
        (pairChar lead n :: cs, flaw)
      else ([], some (Flaw.loneSurrogate.at m.after))
    | _ => ([], some (Flaw.unfinishedPair.at m.touched))

/-- A string that ends. -/
structure StringToken where
  text : String
  flaw : Option Fault
  after : Cursor

/-- Reads a string after its opening quote. -/
def readString (p : Position) (cs : List Char) : Except Break StringToken :=
  let (marks, stop) := readMarks p cs
  let (text, flaw) := assemble stop none marks
  match stop with
  | .closed after rest => .ok ⟨String.ofList text, flaw, ⟨after, rest⟩⟩
  | .stopped broke _ => .error ⟨flaw.getD broke.read, broke.skip⟩

/-- The end of an array that has no further item. -/
def itemsEnd (p : Position) : List Char → Items
  | [] => .broken (Flaw.endInArray.break p) (Flaw.endInArray.at p)
  | cs => .broken (Flaw.expectedItemEnd.break (p.peek cs)) (Flaw.trailingCharacters.at (p.peek cs))

/-- The scalar, or the break, at a character that starts no array and no object. -/
def readScalar (p : Position) (cs : List Char) : Doc × Option Cursor :=
  let word (letters : List Char) (value : Scalar) (rest : List Char) : Doc × Option Cursor :=
    match readWord (p.right 1) letters rest with
    | .error broke => (.broken .other p broke, none)
    | .ok c => (.scalar p c.position value, some c)
  let number (negative : Bool) (start : Position) (rest : List Char) : Doc × Option Cursor :=
    match readNumber negative start rest with
    | .error broke => (.broken .other p broke, none)
    | .ok (l, c) => (.scalar p c.position (.number l), some c)
  match cs with
  | [] => (.broken .nothing p (Flaw.endInValue.break p), none)
  | 'n' :: rest => word ['u', 'l', 'l'] .null rest
  | 't' :: rest => word ['r', 'u', 'e'] (.bool true) rest
  | 'f' :: rest => word ['a', 'l', 's', 'e'] (.bool false) rest
  | '"' :: rest =>
    match readString (p.right 1) rest with
    | .error broke => (.broken .quote p broke, none)
    | .ok token => (.scalar p token.after.position (.string token.text token.flaw), some token.after)
  | '-' :: rest => number true (p.right 1) rest
  | c :: rest =>
    if c.isDigit then number false p (c :: rest)
    else (.broken .other p (Flaw.expectedValue.break (p.touch c)), none)

/-- The fault of a key that is no string, where the name of a variant is expected. -/
def nameFault (p : Position) (cs : List Char) : Fault :=
  match cs with
  | '[' :: _ => (Cause.wrongKind .sequence .variantName).at p
  | '\x7b' :: _ => (Cause.wrongKind .map .variantName).at p
  | _ => (readScalar p cs).1.mismatch .variantName

/-- The end of an object that has no first key. -/
def brokenFirstKey (p : Position) : List Char → Members
  | [] => .broken (Flaw.endInObject.break p) (Flaw.endInValue.at p)
  | cs => .broken (Flaw.keyNotString.break (p.peek cs)) (nameFault p cs)

/-- The end of an object that has no key after a comma. -/
def brokenNextKey (p : Position) (cs : List Char) : Members :=
  let broke : Break :=
    match cs with
    | [] => ⟨Flaw.endInValue.at p, Flaw.endInObject.at p⟩
    | '\x7d' :: _ => ⟨Flaw.trailingComma.at (p.peek cs), Flaw.keyNotString.at (p.peek cs)⟩
    | _ => Flaw.keyNotString.break (p.peek cs)
  .broken broke broke.read

/-- The end of an object that has neither a comma nor a brace after a member. -/
def brokenMemberEnd (p : Position) (cs : List Char) : Members :=
  let broke : Break :=
    match cs with
    | [] => Flaw.endInObject.break p
    | _ => Flaw.expectedMemberEnd.break (p.peek cs)
  .broken broke broke.read

/-- The place that a repeated key is reported at. -/
def keyNext (c : Cursor) : Position :=
  match c.rest with
  | '\x7d' :: _ => c.position.right 1
  | _ => c.position

mutual

/-- Reads a value after white space. -/
def readValue : Nat → Position → List Char → Doc × Option Cursor
  | 0, p, _ => (.broken .nothing p (Flaw.endInValue.break p), none)
  | budget + 1, p, cs =>
    let c := skipGap p cs
    match c.rest with
    | '[' :: rest =>
      let (items, after) := readFirstItem budget (c.position.right 1) rest
      (.array c.position items, after)
    | '\x7b' :: rest =>
      let (members, after) := readFirstMember budget (c.position.right 1) rest
      (.object c.position members, after)
    | rest => readScalar c.position rest

/-- Reads an array after its opening bracket. -/
def readFirstItem : Nat → Position → List Char → Items × Option Cursor
  | 0, p, _ => (itemsEnd p [], none)
  | budget + 1, p, cs =>
    let c := skipGap p cs
    match c.rest with
    | [] => (itemsEnd c.position [], none)
    | ']' :: rest => (.done (c.position.right 1), some ⟨c.position.right 1, rest⟩)
    | rest => readItem budget c.position rest

/-- Reads an item and the rest of its array. -/
def readItem : Nat → Position → List Char → Items × Option Cursor
  | 0, p, _ => (itemsEnd p [], none)
  | budget + 1, p, cs =>
    match readValue budget p cs with
    | (value, none) => (.lost value, none)
    | (value, some after) =>
      let c := skipGap after.position after.rest
      match c.rest with
      | ']' :: rest =>
        (.item value (.done (c.position.right 1)), some ⟨c.position.right 1, rest⟩)
      | ',' :: rest =>
        let n := skipGap (c.position.right 1) rest
        match n.rest with
        | [] =>
          (.item value
            (.broken (Flaw.endInValue.break n.position) (Flaw.trailingCharacters.at n.position)),
            none)
        | ']' :: _ =>
          let place := n.position.right 1
          (.item value
            (.broken ⟨Flaw.trailingComma.at place, Flaw.expectedValue.at place⟩
              (Flaw.trailingComma.at place)),
            none)
        | rest =>
          let (more, last) := readItem budget n.position rest
          (.item value more, last)
      | rest => (.item value (itemsEnd c.position rest), none)

/-- Reads an object after its opening brace. -/
def readFirstMember : Nat → Position → List Char → Members × Option Cursor
  | 0, p, _ => (brokenFirstKey p [], none)
  | budget + 1, p, cs =>
    let c := skipGap p cs
    match c.rest with
    | '\x7d' :: rest => (.done (c.position.right 1), some ⟨c.position.right 1, rest⟩)
    | '"' :: rest => readMember budget (c.position.right 1) rest
    | rest => (brokenFirstKey c.position rest, none)

/-- Reads a member after the opening quote of its key, and the rest of its object. -/
def readMember : Nat → Position → List Char → Members × Option Cursor
  | 0, p, _ => (brokenFirstKey p [], none)
  | budget + 1, p, cs =>
    match readString p cs with
    | .error broke => (.broken broke broke.read, none)
    | .ok token =>
      let c := skipGap token.after.position token.after.rest
      let key : Key := ⟨token.text, token.flaw, token.after.position, keyNext c⟩
      match c.rest with
      | [] => (.bare key (Flaw.endInObject.break c.position), none)
      | ':' :: rest =>
        match readValue budget (c.position.right 1) rest with
        | (value, none) => (.lost key value, none)
        | (value, some after) =>
          let m := skipGap after.position after.rest
          match m.rest with
          | '\x7d' :: rest =>
            (.member key value m.position (.done (m.position.right 1)),
              some ⟨m.position.right 1, rest⟩)
          | ',' :: rest =>
            let n := skipGap (m.position.right 1) rest
            match n.rest with
            | '"' :: rest =>
              let (more, last) := readMember budget (n.position.right 1) rest
              (.member key value m.position more, last)
            | rest => (.member key value m.position (brokenNextKey n.position rest), none)
          | rest => (.member key value m.position (brokenMemberEnd m.position rest), none)
      | rest => (.bare key (Flaw.expectedColon.break (c.position.peek rest)), none)

end

/-- Reads a whole text. -/
def Document.read (text : String) : Document :=
  let cs := text.toList
  match readValue (3 * cs.length + 3) .origin cs with
  | (root, none) => ⟨root, none⟩
  | (root, some after) =>
    let c := skipGap after.position after.rest
    match c.rest with
    | [] => ⟨root, none⟩
    | rest => ⟨root, some (c.position.peek rest)⟩

end AnalysisBrowser.Json
