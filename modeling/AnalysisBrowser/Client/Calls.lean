import AnalysisBrowser.Client.Wire
import AnalysisBrowser.Config
import AnalysisBrowser.Machine.Program

/-!
# Calls to the analyzer

One program for each service. Blank source is refused before anything is sent. An analysis asks for
both of its stages at once; it has a result only if both stages answer, and then the order of the
answers does not matter.
-/
namespace AnalysisBrowser

/-- A program that comes to a result or an error of a call. -/
abbrev Call := ExceptT ClientError Program

/-- The call that asks for nothing more. -/
def Call.ofExcept {α : Type} (result : Except ClientError α) : Call α := .mk (.done result)

/-- The services whose health can be asked for. -/
inductive Service where
  | lexical
  | syntactic
  deriving DecidableEq, Repr

namespace Service

def name : Service → String
  | .lexical => "lexical"
  | .syntactic => "syntax"

/-- The path below which a service tells its health. -/
def healthPath : Service → String
  | .lexical => "health"
  | .syntactic => "syntax/health"

end Service

/-- The analyzer at an address. -/
abbrev Client := AnalyzerConfig

namespace Client

def post (c : Client) (path : String) (body : Json) : Request :=
  ⟨c.endpoint path, some body.compact, c.timeout⟩

/-- The request for the health of a service. -/
def probe (c : Client) (service : Service) : Request :=
  ⟨c.endpoint service.healthPath, none, c.timeout⟩

/-- Remarks that a request goes out. -/
def announce (r : Request) : Program Unit :=
  .note .debug .client (r.method ++ " " ++ r.url)

/-- Remarks what came back. -/
def remark (r : Request) : Except ClientError String → Program Unit
  | .ok text =>
    .note .debug .client
      (r.method ++ " " ++ r.url ++ " -> " ++ Number.decimal text.utf8ByteSize ++ " bytes")
  | .error (.status code) =>
    .note .warn .client (r.method ++ " " ++ r.url ++ " returned HTTP " ++ Number.decimal code)
  | .error _ => .done ()

/-- The record in an answer. -/
def decodeAnswer {α : Type} (decode : Json.Decoder α) (text : String) : Except ClientError α :=
  (Json.decodeText decode text).mapError .malformed

/-- Takes an answer in. -/
def receive {α : Type} (decode : Json.Decoder α) (r : Request) (exchange : Exchange) : Call α := do
  remark r exchange.text
  Call.ofExcept (exchange.text.bind (decodeAnswer decode))

/-- Sends a request and takes the answer in. -/
def call {α : Type} (decode : Json.Decoder α) (r : Request) : Call α := do
  announce r
  let exchange ← Program.query (.exchange r)
  receive decode r exchange

/-- Goes on only with source that is not blank. -/
def ensureSource {α : Type} (code : String) (next : Call α) : Call α :=
  if Text.isBlankText code then Call.ofExcept (.error .emptySource) else next

/-- The tokens and the lexical errors. -/
def lexical (c : Client) (code : String) : Call LexicalAnalysis :=
  ensureSource code <| call LexicalAnalysis.decode (c.post "analyze" (analysisRequest code))

/-- The tree, both streams of findings and the symbol table. -/
def later (c : Client) (code : String) : Call SyntaxAnalysis :=
  ensureSource code <| call SyntaxAnalysis.decode (c.post "syntax/analyze" (analysisRequest code))

/-- Remarks the summary that came with a tree. -/
def remarkSummary (s : RemoteSummary) : Program Unit :=
  .note .debug .client
    ("analyzer summary: root " ++ s.nodeType ++ " with " ++ Number.decimal s.childCount.toNat ++
      " children, depth " ++ Number.decimal s.depth.toNat)

/-- The tree only. -/
def ast (c : Client) (code : String) : Call AstResponse :=
  ensureSource code do
    let response ← call AstResponse.decode (c.post "syntax/ast" (analysisRequest code))
    match response.summary with
    | some s => remarkSummary s
    | none => pure ()
    return response

/-- The symbol table only. -/
def symbols (c : Client) (code : String) : Call SymbolTableResponse :=
  ensureSource code <|
    call SymbolTableResponse.decode (c.post "syntax/symbols" (analysisRequest code))

/-- Validates source as one construct. -/
def validate (c : Client) (code : String) (structureType : StructureType) :
    Call StructureValidation :=
  ensureSource code <|
    call StructureValidation.decode
      (c.post "syntax/validate" (validationRequest code structureType))

/-- Takes two answers in, the one that came first at first, up to the first error. -/
def receiveBoth {α β : Type} (first : Call α) (second : Call β) (overtaken : Bool) :
    Call (α × β) :=
  if overtaken then do
    let b ← second
    let a ← first
    return (a, b)
  else do
    let a ← first
    let b ← second
    return (a, b)

/-- A whole analysis. -/
def analyze (c : Client) (code : String) : Call ResultModel :=
  ensureSource code do
    let lexical := c.post "analyze" (analysisRequest code)
    let later := c.post "syntax/analyze" (analysisRequest code)
    announce lexical
    announce later
    let replies ← Program.query (.exchangeBoth lexical later)
    let both ← receiveBoth (receive LexicalAnalysis.decode lexical replies.first)
      (receive SyntaxAnalysis.decode later replies.second) replies.overtaken
    return .assemble both.1 both.2

/-- Whether an exchange shows that a service is healthy. -/
def isHealthy : Exchange → Bool
  | .answered status _ => isSuccess status
  | _ => false

/-- Remarks why a service gave no answer. -/
def remarkHealth (service : Service) : Exchange → Program Unit
  | .unreachable (.failed reason) | .unanswered (.failed reason) =>
    .note .debug .client (service.name ++ " health check failed: " ++ reason)
  | .unreachable .timedOut | .unanswered .timedOut =>
    .note .debug .client (service.name ++ " health check failed: operation timed out")
  | .answered _ _ => .done ()

/-- Whether a service answers with success. -/
def isUp (c : Client) (service : Service) : Program Bool := do
  let exchange ← Program.query (.exchange (c.probe service))
  remarkHealth service exchange
  return isHealthy exchange

/-- The health of both services, asked for at once. -/
def health (c : Client) : Program (Bool × Bool) := do
  let replies ← Program.query (.exchangeBoth (c.probe .lexical) (c.probe .syntactic))
  if replies.overtaken then
    remarkHealth .syntactic replies.second
    remarkHealth .lexical replies.first
  else
    remarkHealth .lexical replies.first
    remarkHealth .syntactic replies.second
  return (isHealthy replies.first, isHealthy replies.second)

end Client

end AnalysisBrowser
