import AnalysisBrowser.Number.Natural

/-!
# The shortest decimal of a double

A finite double stands for an interval of reals, those that round to it. Its decimal is the one
with the fewest digits in that interval, and of those the nearest. All arithmetic is exact, on
fractions of natural numbers. A style then decides where positional notation ends.
-/
namespace AnalysisBrowser.Number

/-- A non-negative fraction. -/
structure Fraction where
  num : Nat
  den : Nat

/-- The fraction `n * 2 ^ e`. -/
def Fraction.ofBinary (n : Nat) (e : Int) : Fraction :=
  if 0 ≤ e then ⟨n * Nat.pow 2 e.toNat, 1⟩ else ⟨n, Nat.pow 2 (-e).toNat⟩

/-- The fraction `n * 10 ^ e`. -/
def Fraction.ofDecimal (n : Nat) (e : Int) : Fraction :=
  if 0 ≤ e then ⟨n * Nat.pow 10 e.toNat, 1⟩ else ⟨n, Nat.pow 10 (-e).toNat⟩

def Fraction.lt (a b : Fraction) : Bool := a.num * b.den < b.num * a.den

def Fraction.le (a b : Fraction) : Bool := a.num * b.den ≤ b.num * a.den

/-- The distance of two fractions. -/
def Fraction.distance (a b : Fraction) : Fraction :=
  let x := a.num * b.den
  let y := b.num * a.den
  ⟨(x - y) + (y - x), a.den * b.den⟩

/-- The decimal exponent of the first digit of a positive fraction. -/
def Fraction.magnitude (a : Fraction) : Int :=
  let guess : Int := (digits a.num).length - (digits a.den).length
  if (Fraction.ofDecimal 1 guess).le a then guess else guess - 1

/-- The parts of a finite positive double: the value is `mantissa * 2 ^ exponent`. -/
structure Binary where
  mantissa : Nat
  exponent : Int

/-- The parts of the double with these bits, sign apart. -/
def Binary.ofBits (bits : Nat) : Binary :=
  let field : Nat := bits / Nat.pow 2 52 % Nat.pow 2 11
  let low : Nat := bits % Nat.pow 2 52
  if field = 0 then ⟨low, -1074⟩ else ⟨Nat.pow 2 52 + low, (field : Int) - 1075⟩

def Binary.value (b : Binary) : Fraction := .ofBinary b.mantissa b.exponent

/-- The lower end of the reals that round to the double. -/
def Binary.lower (b : Binary) : Fraction :=
  if b.mantissa = Nat.pow 2 52 && b.exponent > -1074 then
    .ofBinary (4 * b.mantissa - 1) (b.exponent - 2)
  else
    .ofBinary (2 * b.mantissa - 1) (b.exponent - 1)

/-- The upper end of the reals that round to the double. -/
def Binary.upper (b : Binary) : Fraction :=
  .ofBinary (2 * b.mantissa + 1) (b.exponent - 1)

/-- Whether a real rounds to the double: a tie goes to the even mantissa. -/
def Binary.covers (b : Binary) (x : Fraction) : Bool :=
  if b.mantissa % 2 = 0 then b.lower.le x && x.le b.upper else b.lower.lt x && x.lt b.upper

/-- A decimal: the value is `significand * 10 ^ exponent`. -/
structure Decimal where
  significand : Nat
  exponent : Int

def Decimal.value (d : Decimal) : Fraction := .ofDecimal d.significand d.exponent

/-- The decimal of at most `count` digits that reads back as the double, if there is one. -/
def Binary.decimalOfLength? (b : Binary) (count : Nat) : Option Decimal :=
  let v := b.value
  let exponent := v.magnitude + 1 - (count : Int)
  let unit := Fraction.ofDecimal 1 exponent
  let below := (v.num * unit.den) / (v.den * unit.num)
  let low : Decimal := ⟨below, exponent⟩
  let high : Decimal := ⟨below + 1, exponent⟩
  match b.covers low.value, b.covers high.value with
  | true, false => some low
  | false, true => some high
  | false, false => none
  | true, true =>
    let down := v.distance low.value
    let up := v.distance high.value
    if down.lt up || (down.le up && below % 2 = 0) then some low else some high

/-- The shortest decimal that reads back as the double. -/
def Binary.shortest (b : Binary) : Decimal :=
  match (List.range 17).findSome? fun n => b.decimalOfLength? (n + 1) with
  | some d => d
  | none => ⟨b.mantissa, b.exponent⟩

/-- Where a number is written positionally, and how its exponent is written elsewhere. -/
structure NumberStyle where
  /-- The least exponent of the first digit in positional form. -/
  least : Int
  /-- The greatest exponent of the first digit in positional form. -/
  greatest : Int
  /-- The least count of digits of an exponent. -/
  exponentDigits : Nat

/-- Positional form for every double. -/
def NumberStyle.positional : NumberStyle := ⟨-400, 400, 1⟩

/-- Positional form from 0.00001 to below 10^16, and elsewhere a signed exponent of two digits. -/
def NumberStyle.scientific : NumberStyle := ⟨-5, 15, 2⟩

def zeros (n : Nat) : List Char := List.replicate n '0'

/-- The digits without the zeros at their end, at least one of them. -/
def trimZeros (cs : List Char) : List Char :=
  match (cs.reverse.dropWhile (· == '0')).reverse with
  | [] => ['0']
  | kept => kept

/-- The text of a positive decimal. -/
def Decimal.text (style : NumberStyle) (d : Decimal) : List Char :=
  let all := digits d.significand
  let first : Int := d.exponent + all.length - 1
  let cs := trimZeros all
  if style.least ≤ first && first ≤ style.greatest then
    if first < 0 then
      ['0', '.'] ++ zeros ((-first).toNat - 1) ++ cs
    else
      let count := first.toNat + 1
      if cs.length ≤ count then cs ++ zeros (count - cs.length) ++ ['.', '0']
      else cs.take count ++ ['.'] ++ cs.drop count
  else
    let power := digits first.natAbs
    let mantissa :=
      match cs with
      | c :: c' :: rest => c :: '.' :: c' :: rest
      | cs => cs
    mantissa ++ ['e', if first < 0 then '-' else '+'] ++
      zeros (style.exponentDigits - power.length) ++ power

/-- The text of a double, in the fewest digits that read back. -/
def floatText (style : NumberStyle) (x : Float) : String :=
  let bits := x.toBits.toNat
  let sign := if bits / Nat.pow 2 63 = 1 then ['-'] else []
  let rest := bits % Nat.pow 2 63
  if rest = 0 then String.ofList (sign ++ ['0', '.', '0'])
  else if rest = 0x7FF0000000000000 then String.ofList (sign ++ ['i', 'n', 'f'])
  else if 0x7FF0000000000000 < rest then "NaN"
  else String.ofList (sign ++ (Binary.ofBits rest).shortest.text style)

end AnalysisBrowser.Number
