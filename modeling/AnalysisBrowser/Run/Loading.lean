import AnalysisBrowser.Client.Calls
import AnalysisBrowser.Run.Discovery
import AnalysisBrowser.Session

/-!
# Loading results

A result comes from a file in which it was saved, or from the analyzer, which is sent the source
code in a file.
-/
namespace AnalysisBrowser

/-- What the heading of a view says about the source. -/
def Source.label : Source → String
  | .code path => path
  | .saved path => path ++ " (saved result)"

/-- The source code in a file. -/
def readSource (path : String) : Run String := do
  let code ← Run.ofExcept (.sourceUnreadable path) (← readTextFile path)
  if Text.isBlankText code then Run.fail (.sourceBlank path)
  return code

/-- The result of a call. -/
def askAnalyzer {α : Type} (client : Client) (call : Call α) : Run α := do
  Run.ofExcept (.analyzer client.baseUrl) (← call.run)

/-- Remarks what an analysis found. -/
def remarkAnalysis (m : ResultModel) : Program Unit :=
  .note .info .cli
    ("analysis finished: " ++ Number.decimal m.tokens.length ++ " tokens, " ++
      Number.decimal m.symbolTable.length ++ " symbols, valid: " ++
      (if m.isValid then "true" else "false"))

/-- The result to show. -/
def loadModel (client : Client) : Source → Run ResultModel
  | .saved path => do
    Run.ofExcept (.resultUnreadable path)
      (← readRecord (Json.decodeText ResultModel.decode) path)
  | .code path => do
    let code ← readSource path
    let model ← askAnalyzer client (client.analyze code)
    remarkAnalysis model
    return model

/-- Remarks everything that contradicts the validity of a result. -/
def remarkViolations : List ContractViolation → Program Unit
  | [] => .done ()
  | v :: rest => do
    Program.note .warn .session v.message
    remarkViolations rest

def openSession (model : ResultModel) (expandDepth : Nat) : Program Session := do
  remarkViolations model.contractViolations
  return Session.start model expandDepth

end AnalysisBrowser
