/-!
# Natural numbers in text

Decimal digits, and the reading of a number that must fit in 64 bits. A number may have one plus
sign and leading zeros. Of two faults the leftmost character decides.
-/
namespace AnalysisBrowser.Number

/-- The bound on every count, line, position, depth and index. -/
def countLimit : Nat := UInt64.size

/-- The decimal digits of a number, without leading zeros. -/
def digits (n : Nat) : List Char :=
  Nat.toDigits 10 n

/-- The decimal text of a number. -/
def decimal (n : Nat) : String :=
  String.ofList (digits n)

/-- The value of an ASCII digit. -/
def digit? (c : Char) : Option Nat :=
  if c.isDigit then some (c.toNat - '0'.toNat) else none

/-- Why a text is no number below the limit. -/
inductive NaturalError where
  | empty
  | invalidDigit
  | tooLarge
  deriving DecidableEq, Repr

/-- The wording of each error. -/
def NaturalError.message : NaturalError → String
  | .empty => "cannot parse integer from empty string"
  | .invalidDigit => "invalid digit found in string"
  | .tooLarge => "number too large to fit in target type"

/-- Reads digits from the left onto the value of those before them. -/
def readDigits (limit : Nat) : Nat → List Char → Except NaturalError Nat
  | value, [] => .ok value
  | value, c :: rest =>
    match digit? c with
    | none => .error .invalidDigit
    | some d =>
      if value * 10 + d < limit then readDigits limit (value * 10 + d) rest
      else .error .tooLarge

/-- Reads a number below `limit`: an optional plus sign, then at least one digit. -/
def readNatural (limit : Nat) : List Char → Except NaturalError Nat
  | [] => .error .empty
  | ['+'] => .error .invalidDigit
  | '+' :: rest => readDigits limit 0 rest
  | cs => readDigits limit 0 cs

/-- Reads a number that fits in 64 bits. -/
def readCount (s : String) : Except NaturalError Nat :=
  readNatural countLimit s.toList

@[simp] theorem readDigits_nil (limit value : Nat) : readDigits limit value [] = .ok value := rfl

end AnalysisBrowser.Number
