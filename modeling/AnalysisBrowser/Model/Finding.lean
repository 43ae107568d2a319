import AnalysisBrowser.Json.Value
import AnalysisBrowser.Json.Tagged
import AnalysisBrowser.Text.Casing

/-!
# Findings

What the parser and the semantic checks report. The two streams have a common part and details of
their own. A severity that is missing or not recognised does not reject a finding: it counts as
absent, and an absent severity is treated as a warning.
-/
namespace AnalysisBrowser

open Json (Decoder Field Schema)

/-- How bad a finding is. -/
inductive Severity where
  | error
  | warning
  deriving DecidableEq, Repr

namespace Severity

/-- The name of a severity in JSON. -/
def name : Severity → String
  | .error => "ERROR"
  | .warning => "WARNING"

/-- The severity that a text names in any letter case. -/
def ofText? (s : String) : Option Severity :=
  let up := Text.upper s
  if up = "ERROR" then some .error
  else if up = "WARNING" || up = "WARN" then some .warning
  else none

/-- The wording for a text that names no severity. -/
def unknownMessage (s : String) : String := "unknown severity: " ++ s

/-- The severity that counts when none may have been sent. -/
def effective (s : Option Severity) : Severity := s.getD .warning

/-- A severity that may be absent, or a value of any other kind in its place. -/
def decodeLenient : Decoder (Option Severity) := fun levels d =>
  (Decoder.lenientText levels d).map (·.bind ofText?)

@[simp] theorem effective_none : effective none = .warning := rfl

@[simp] theorem effective_some (s : Severity) : effective (some s) = s := rfl

end Severity

/-- The stage that reports a finding. -/
inductive Origin where
  | syntactic
  | semantic
  deriving DecidableEq, Repr

/-- The name of a stage. -/
def Origin.name : Origin → String
  | .syntactic => "syntax"
  | .semantic => "semantic"

/-- What a finding says beyond the common part. -/
inductive Detail where
  | syntactic (expected found : Option String)
  | semantic (symbol symbolType : Option String)
  deriving DecidableEq, Repr

namespace Detail

def toJson : Detail → Json
  | .syntactic expected found =>
    .object ([("kind", .string Origin.syntactic.name)] ++ Json.member? "expected" .string expected ++
      Json.member? "found" .string found)
  | .semantic symbol symbolType =>
    .object ([("kind", .string Origin.semantic.name)] ++ Json.member? "symbol" .string symbol ++
      Json.member? "symbolType" .string symbolType)

/-- The detail made of the kept content of one stage. -/
def ofContent (origin : Origin) (content : Json.Content) : Except Json.Fault Detail :=
  match origin with
  | .syntactic => do
    let texts ← Json.Tagged.keptTexts ["expected", "found"] content
    return .syntactic (texts.lookup "expected").join (texts.lookup "found").join
  | .semantic => do
    let texts ← Json.Tagged.keptTexts ["symbol", "symbolType"] content
    return .semantic (texts.lookup "symbol").join (texts.lookup "symbolType").join

/-- Reads a detail, whose stage is named inside. -/
def decode : Decoder Detail := fun levels d => do
  let (origin, content) ← Json.Tagged.collect "ErrorDetail" "kind"
    [("syntax", Origin.syntactic), ("semantic", Origin.semantic)] levels d
  ofContent origin content

end Detail

/-- The common part of a finding, with its detail. -/
structure Finding where
  message : String
  line : UInt64
  position : UInt64
  errorType : String
  severity : Option Severity
  detail : Detail
  deriving DecidableEq, Repr

/-- A finding of the parser. -/
structure SyntaxFinding where
  message : String
  line : UInt64
  position : UInt64
  errorType : String
  expected : Option String
  found : Option String
  severity : Option Severity
  deriving DecidableEq, Repr

namespace SyntaxFinding

/-- The finding without regard to its stage. -/
def toFinding (e : SyntaxFinding) : Finding :=
  ⟨e.message, e.line, e.position, e.errorType, e.severity, .syntactic e.expected e.found⟩

def toJson (e : SyntaxFinding) : Json :=
  .object
    ([("message", .string e.message), ("line", .word e.line), ("position", .word e.position),
      ("errorType", .string e.errorType)] ++
      Json.member? "expected" .string e.expected ++ Json.member? "found" .string e.found ++
      Json.member? "severity" (fun s => .string s.name) e.severity)

def schema : Schema SyntaxFinding where
  name := "SyntaxError"
  fields :=
    [ .mandatory "message" Decoder.text fun message e => { e with message }
    , .mandatory "line" Decoder.count fun line e => { e with line }
    , .mandatory "position" Decoder.count fun position e => { e with position }
    , .mandatory "errorType" Decoder.text fun errorType e => { e with errorType }
    , .defaulted "expected" (Decoder.optional Decoder.text) fun expected e => { e with expected }
    , .defaulted "found" (Decoder.optional Decoder.text) fun found e => { e with found }
    , .defaulted "severity" Severity.decodeLenient fun severity e => { e with severity } ]
  blank := ⟨"", 0, 0, "", none, none, none⟩

/-- Reads a finding of the parser. -/
def decode : Decoder SyntaxFinding := schema.decode

end SyntaxFinding

/-- A finding of the semantic checks. -/
structure SemanticFinding where
  message : String
  line : UInt64
  position : UInt64
  errorType : String
  symbol : Option String
  symbolType : Option String
  severity : Option Severity
  deriving DecidableEq, Repr

namespace SemanticFinding

/-- The finding without regard to its stage. -/
def toFinding (e : SemanticFinding) : Finding :=
  ⟨e.message, e.line, e.position, e.errorType, e.severity, .semantic e.symbol e.symbolType⟩

def toJson (e : SemanticFinding) : Json :=
  .object
    ([("message", .string e.message), ("line", .word e.line), ("position", .word e.position),
      ("errorType", .string e.errorType)] ++
      Json.member? "symbol" .string e.symbol ++ Json.member? "symbolType" .string e.symbolType ++
      Json.member? "severity" (fun s => .string s.name) e.severity)

def schema : Schema SemanticFinding where
  name := "SemanticError"
  fields :=
    [ .mandatory "message" Decoder.text fun message e => { e with message }
    , .mandatory "line" Decoder.count fun line e => { e with line }
    , .mandatory "position" Decoder.count fun position e => { e with position }
    , .mandatory "errorType" Decoder.text fun errorType e => { e with errorType }
    , .defaulted "symbol" (Decoder.optional Decoder.text) fun symbol e => { e with symbol }
    , .defaulted "symbolType" (Decoder.optional Decoder.text)
        fun symbolType e => { e with symbolType }
    , .defaulted "severity" Severity.decodeLenient fun severity e => { e with severity } ]
  blank := ⟨"", 0, 0, "", none, none, none⟩

/-- Reads a finding of the semantic checks. -/
def decode : Decoder SemanticFinding := schema.decode

end SemanticFinding

end AnalysisBrowser
