import AnalysisBrowser.Number.Natural

/-!
# Number literals

A number as it is written: sign, integer digits, fraction digits and exponent. Its reading is a
natural number or a negative integer where one of 64 bits fits, and a double everywhere else.
A significand keeps its digits as long as it stays below the limit; later integer digits count as
powers of ten and later fraction digits are dropped. Integers that fit never touch a double.
-/
namespace AnalysisBrowser.Number

/-- The power of ten that a literal names. -/
structure Exponent where
  negative : Bool
  digits : List Char
  deriving DecidableEq, Repr

/-- A number as written. -/
structure Literal where
  negative : Bool
  whole : List Char
  /-- Empty where the literal has no point. -/
  fraction : List Char
  exponent : Option Exponent
  deriving DecidableEq, Repr

/-- The literal of a natural number. -/
def Literal.ofNat (n : Nat) : Literal := ⟨false, digits n, [], none⟩

def Literal.chars (l : Literal) : List Char :=
  (if l.negative then ['-'] else []) ++ l.whole ++
    (if l.fraction.isEmpty then [] else '.' :: l.fraction) ++
    match l.exponent with
    | none => []
    | some e => 'e' :: (if e.negative then ['-'] else []) ++ e.digits

/-- What a literal stands for. -/
inductive Reading where
  | natural (n : Nat)
  /-- The integer `-n`. -/
  | negative (n : Nat)
  | real (x : Float)
  /-- No double is large enough; so many characters of the literal are left when that is clear. -/
  | outOfRange (unread : Nat)

/-- The value of a digit, zero for any other character. -/
def digitValue (c : Char) : Nat := (digit? c).getD 0

/-- Takes digits onto a significand while it stays below the limit. -/
def takeDigits : Nat → List Char → Nat × List Char
  | significand, [] => (significand, [])
  | significand, c :: rest =>
    let next := significand * 10 + digitValue c
    if next < countLimit then takeDigits next rest else (significand, c :: rest)

/-- A power of ten as a double, exact or rounded to nearest. -/
def power10 (n : Nat) : Float := OfScientific.ofScientific 1 false n

/-- The double nearest to a number below the limit. -/
def nearestDouble (n : Nat) : Float := n.toUInt64.toFloat

/-- `significand * 10 ^ exponent` in double arithmetic, or nothing where it overflows. -/
def scale (significand : Nat) (exponent : Int) : Option Float :=
  let x := nearestDouble significand
  if significand = 0 then some 0.0
  else if 0 ≤ exponent then
    if exponent ≤ 308 then
      let scaled := x * power10 exponent.toNat
      if scaled.isInf then none else some scaled
    else none
  else if -308 ≤ exponent then some (x / power10 (-exponent).toNat)
  else if -616 ≤ exponent then some (x / power10 308 / power10 (-exponent - 308).toNat)
  else some 0.0

/-- The bound on a written exponent. -/
def exponentLimit : Nat := Nat.pow 2 31

/-- The value of exponent digits, or the digits left when it reaches the bound. -/
def readExponent : Nat → List Char → Except (List Char) Nat
  | value, [] => .ok value
  | value, c :: rest =>
    let next := value * 10 + digitValue c
    if next < exponentLimit then readExponent next rest else .error rest

def Literal.double (l : Literal) : Reading :=
  let whole := takeDigits 0 l.whole
  let taken := takeDigits whole.1 l.fraction
  let point : Int := (whole.2.length : Int) - ((l.fraction.length : Int) - taken.2.length)
  let signed (x : Float) : Reading := .real (if l.negative then -x else x)
  match l.exponent with
  | none =>
    match scale taken.1 point with
    | some x => signed x
    | none => .outOfRange 0
  | some e =>
    match readExponent 0 e.digits with
    | .error unread =>
      if taken.1 ≠ 0 && !e.negative then .outOfRange unread.length else signed 0.0
    | .ok n =>
      match scale taken.1 (if e.negative then point - n else point + n) with
      | some x => signed x
      | none => .outOfRange 0

def Literal.reading (l : Literal) : Reading :=
  if l.fraction.isEmpty && l.exponent.isNone then
    match readDigits countLimit 0 l.whole with
    | .error _ => l.double
    | .ok n =>
      if !l.negative then .natural n
      else if n = 0 || Nat.pow 2 63 < n then .real (-(nearestDouble n))
      else .negative n
  else
    l.double

end AnalysisBrowser.Number
