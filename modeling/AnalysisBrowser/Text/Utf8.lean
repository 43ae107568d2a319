/-!
# Bytes as text

Strict decoding accepts well-formed UTF-8 only. Lenient decoding drops a leading byte order mark
and writes one replacement character for each longest stretch of bytes that starts a character but
does not end it.
-/
namespace AnalysisBrowser.Text

/-- The text that the bytes encode, if they are well-formed UTF-8. -/
def ofUtf8? (bytes : List UInt8) : Option String :=
  String.fromUTF8? ⟨bytes.toArray⟩

/-- The bytes that encode the text. -/
def toUtf8 (s : String) : List UInt8 :=
  s.toUTF8.toList

/-- A character whose last bytes are still to come. -/
structure Unfinished where
  /-- How many bytes are missing. -/
  missing : Nat
  /-- The least value of the next byte. -/
  low : Nat
  /-- The greatest value of the next byte. -/
  high : Nat
  /-- The bits read so far. -/
  bits : Nat

/-- What a byte between characters does. -/
inductive Lead where
  | character (c : Char)
  | unfinished (u : Unfinished)
  | invalid

/-- The role of a byte that stands between characters. -/
def lead (b : Nat) : Lead :=
  if b ≤ 0x7F then .character (Char.ofNat b)
  else if 0xC2 ≤ b && b ≤ 0xDF then .unfinished ⟨1, 0x80, 0xBF, b - 0xC0⟩
  else if b == 0xE0 then .unfinished ⟨2, 0xA0, 0xBF, 0⟩
  else if b == 0xED then .unfinished ⟨2, 0x80, 0x9F, 0xD⟩
  else if 0xE1 ≤ b && b ≤ 0xEF then .unfinished ⟨2, 0x80, 0xBF, b - 0xE0⟩
  else if b == 0xF0 then .unfinished ⟨3, 0x90, 0xBF, 0⟩
  else if 0xF1 ≤ b && b ≤ 0xF3 then .unfinished ⟨3, 0x80, 0xBF, b - 0xF0⟩
  else if b == 0xF4 then .unfinished ⟨3, 0x80, 0x8F, 4⟩
  else .invalid

/-- The character that stands for bytes that encode none. -/
def replacement : Char := '\uFFFD'

/-- One byte between characters: what it writes and what it leaves unfinished. -/
def startCharacter (b : Nat) : List Char × Option Unfinished :=
  match lead b with
  | .character c => ([c], none)
  | .unfinished u => ([], some u)
  | .invalid => ([replacement], none)

/-- One byte in either place. -/
def decodeByte (b : Nat) : Option Unfinished → List Char × Option Unfinished
  | none => startCharacter b
  | some u =>
    if u.low ≤ b && b ≤ u.high then
      let bits := u.bits * 64 + (b - 0x80)
      if u.missing ≤ 1 then ([Char.ofNat bits], none)
      else ([], some ⟨u.missing - 1, 0x80, 0xBF, bits⟩)
    else
      let next := startCharacter b
      (replacement :: next.1, next.2)

/-- The characters of bytes of any kind. -/
def decodeLenient : Option Unfinished → List UInt8 → List Char
  | none, [] => []
  | some _, [] => [replacement]
  | open?, b :: rest =>
    let step := decodeByte b.toNat open?
    step.1 ++ decodeLenient step.2 rest

/-- The text of bytes of any kind, without a leading byte order mark. -/
def ofUtf8Lenient (bytes : List UInt8) : String :=
  match decodeLenient none bytes with
  | '\uFEFF' :: rest => String.ofList rest
  | cs => String.ofList cs

end AnalysisBrowser.Text
