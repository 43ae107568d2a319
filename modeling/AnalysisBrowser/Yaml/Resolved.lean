import AnalysisBrowser.Number.Shortest
import AnalysisBrowser.Text.Joining

/-!
# What a plain scalar stands for

A plain scalar may stand for nothing, for a truth value or for a number; everything else is text.
An integer may have a sign and a base; a decimal one with a leading zero is text. A number with a
point or an exponent is the nearest double, as long as one is large enough.
-/
namespace AnalysisBrowser.Yaml

/-- What stands in a text. -/
inductive Resolved where
  | nothing
  | bool (b : Bool)
  /-- An integer that fits in 64 bits. -/
  | integer (n : Int)
  /-- An integer that fits in 128 bits only. -/
  | wideInteger (n : Int)
  | real (x : Float)
  | text (s : String)

def isNothingWord (s : String) : Bool := ["null", "Null", "NULL", "~"].contains s

/-- The words for truth values. -/
def boolWord? (s : String) : Option Bool :=
  if ["true", "True", "TRUE"].contains s then some true
  else if ["false", "False", "FALSE"].contains s then some false
  else none

/-- The value of a digit in bases up to sixteen. -/
def digitInBase? (base : Nat) (c : Char) : Option Nat :=
  let value :=
    if c.isDigit then some (c.toNat - '0'.toNat)
    else if 'a' ≤ c && c ≤ 'f' then some (c.toNat - 'a'.toNat + 10)
    else if 'A' ≤ c && c ≤ 'F' then some (c.toNat - 'A'.toNat + 10)
    else none
  value.filter (· < base)

/-- The number that digits stand for; there must be at least one. -/
def naturalInBase? (base : Nat) : List Char → Option Nat
  | [] => none
  | cs => cs.foldl (fun n c => n.bind fun n => (digitInBase? base c).map (n * base + ·)) (some 0)

/-- The base that a text announces, with what follows. -/
def announcedBase? : List Char → Option (Nat × List Char)
  | '0' :: 'x' :: rest => some (16, rest)
  | '0' :: 'o' :: rest => some (8, rest)
  | '0' :: 'b' :: rest => some (2, rest)
  | _ => none

/-- Whether a text is a zero with further digits after it, behind a sign perhaps. -/
def isZeroPadded (cs : List Char) : Bool :=
  let digits := match cs with
    | '-' :: rest => rest
    | '+' :: rest => rest
    | cs => cs
  1 < digits.length && digits.head? = some '0' && digits.all Char.isDigit

/-- The natural number that a text of digits stands for, with a base perhaps. -/
def magnitude? (cs : List Char) : Option Nat :=
  match announcedBase? cs with
  | some (base, rest) => naturalInBase? base rest
  | none => if isZeroPadded cs then none else naturalInBase? 10 cs

/-- The integer that a text stands for. -/
def integer? (cs : List Char) : Option Int :=
  match cs with
  | '+' :: rest => (magnitude? rest).map Int.ofNat
  | '-' :: rest => (magnitude? rest).map fun n => -(n : Int)
  | cs => (magnitude? cs).map Int.ofNat

/-- The natural number of 64 bits that a text stands for; it has no minus sign. -/
def count? (s : String) : Option Nat :=
  match s.toList with
  | '-' :: _ => none
  | cs => ((integer? cs).map Int.toNat).filter (· < Number.countLimit)

/-- The digits of a number with a point: those before it and those after it. -/
def splitPoint (cs : List Char) : List Char × List Char × List Char :=
  let whole := cs.takeWhile Char.isDigit
  match cs.dropWhile Char.isDigit with
  | '.' :: rest => (whole, rest.takeWhile Char.isDigit, rest.dropWhile Char.isDigit)
  | rest => (whole, [], rest)

/-- The exponent that a text ends in. -/
def exponent? : List Char → Option Int
  | [] => some 0
  | c :: rest =>
    if c = 'e' || c = 'E' then
      match rest with
      | '+' :: rest => (naturalInBase? 10 rest).map Int.ofNat
      | '-' :: rest => (naturalInBase? 10 rest).map fun n => -(n : Int)
      | rest => (naturalInBase? 10 rest).map Int.ofNat
    else none

/-- The double nearest to `digits * 10 ^ exponent`. An exponent that no digits can make up for is
cut off. -/
def nearest (digits : Nat) (exponent : Int) : Float :=
  if digits = 0 then 0.0
  else
    let magnitude := exponent + (Number.digits digits).length
    if magnitude < -400 then 0.0
    else if 400 < magnitude then (1.0 : Float) / 0.0
    else OfScientific.ofScientific digits (exponent < 0) exponent.natAbs

/-- The finite double that a text without a plus sign stands for. -/
def finite? (cs : List Char) : Option Float :=
  let (negative, cs) := match cs with
    | '-' :: rest => (true, rest)
    | cs => (false, cs)
  let (whole, fraction, rest) := splitPoint cs
  if whole.isEmpty && fraction.isEmpty then none
  else
    match exponent? rest with
    | none => none
    | some e =>
      match naturalInBase? 10 (whole ++ fraction) with
      | none => none
      | some n =>
        let x := nearest n (e - fraction.length)
        if x.isFinite then some (if negative then -x else x) else none

/-- The double that a text stands for. -/
def real? (s : String) : Option Float :=
  let cs := s.toList
  let unsigned := match cs with
    | '+' :: '+' :: _ => none
    | '+' :: '-' :: _ => none
    | '+' :: rest => some rest
    | cs => some cs
  unsigned.bind fun cs =>
    if [".inf", ".Inf", ".INF"].contains (String.ofList cs) then some (1.0 / 0.0)
    else if ["-.inf", "-.Inf", "-.INF"].contains s then some (-1.0 / 0.0)
    else if [".nan", ".NaN", ".NAN"].contains s then some (0.0 / 0.0)
    else finite? cs

/-- What an integer is, if 128 bits are enough for it. -/
def Resolved.ofInteger? (n : Int) : Option Resolved :=
  if -(Int.pow 2 63) ≤ n && n < Int.pow 2 64 then some (.integer n)
  else if -(Int.pow 2 127) ≤ n && n < Int.pow 2 128 then some (.wideInteger n)
  else none

/-- What a plain scalar stands for. -/
def Resolved.ofPlain (s : String) : Resolved :=
  if s.isEmpty || isNothingWord s then .nothing
  else
    match boolWord? s with
    | some b => .bool b
    | none =>
      match (integer? s.toList).bind Resolved.ofInteger? with
      | some r => r
      | none =>
        if isZeroPadded s.toList then .text s
        else
          match real? s with
          | some x => .real x
          | none => .text s

end AnalysisBrowser.Yaml
