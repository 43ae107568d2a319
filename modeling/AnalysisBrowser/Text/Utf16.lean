import AnalysisBrowser.Text.Utf8

/-!
# Bytes with a byte order mark

A code unit of 16 bits is a character of its own or half of a surrogate pair. Bytes that begin with a
byte order mark of such units are read two by two, in the order that the mark tells, and a surrogate
without its partner is written as the replacement character. All other bytes are read as UTF-8.
-/
namespace AnalysisBrowser.Text

/-- Whether a code unit is the first of a surrogate pair. -/
def isLeadUnit (n : Nat) : Bool := 0xD800 ≤ n && n ≤ 0xDBFF

/-- Whether a code unit is the second of a surrogate pair. -/
def isTrailUnit (n : Nat) : Bool := 0xDC00 ≤ n && n ≤ 0xDFFF

/-- The character of a surrogate pair. -/
def pairChar (lead trail : Nat) : Char :=
  Char.ofNat ((lead - 0xD800) * 1024 + (trail - 0xDC00) + 0x10000)

/-- The character of a code unit that is not the first of a pair. -/
def unitChar (n : Nat) : Char := if isTrailUnit n then replacement else Char.ofNat n

/-- The code units of bytes, and whether a last byte has no partner. -/
def unitsOf (unit : Nat → Nat → Nat) : List UInt8 → List Nat × Bool
  | [] => ([], false)
  | [_] => ([], true)
  | a :: b :: rest =>
    let (units, odd) := unitsOf unit rest
    (unit a.toNat b.toNat :: units, odd)

/-- The characters of code units of any kind. What is cut off at the end, half of a pair or of a unit
or both, is written as one replacement character. -/
def decodeUnits (odd : Bool) : List Nat → List Char
  | [] => if odd then [replacement] else []
  | [u] => if isLeadUnit u then [replacement] else unitChar u :: decodeUnits odd []
  | u :: v :: rest =>
    if isLeadUnit u then
      if isTrailUnit v then pairChar u v :: decodeUnits odd rest
      else replacement :: decodeUnits odd (v :: rest)
    else unitChar u :: decodeUnits odd (v :: rest)

/-- The text of bytes that are code units. -/
def ofUtf16Lenient (unit : Nat → Nat → Nat) (bytes : List UInt8) : String :=
  let (units, odd) := unitsOf unit bytes
  String.ofList (decodeUnits odd units)

/-- The text of bytes in the encoding that their byte order mark tells, without that mark. -/
def ofMarkedLenient : List UInt8 → String
  | 0xFF :: 0xFE :: rest => ofUtf16Lenient (fun low high => low + 256 * high) rest
  | 0xFE :: 0xFF :: rest => ofUtf16Lenient (fun high low => 256 * high + low) rest
  | bytes => ofUtf8Lenient bytes

end AnalysisBrowser.Text
