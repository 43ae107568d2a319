import AnalysisBrowser.Json.Fault
import AnalysisBrowser.Text.Utf16

/-!
# Exchanges with the analyzer

A request, the ways in which its exchange ends, and the errors that a caller sees. An answer counts
as a success by its status alone; the body of any other answer is never read.
-/
namespace AnalysisBrowser

/-- A request to the analyzer. One with a body is posted, one without a body only asks. -/
structure Request where
  url : String
  /-- The JSON text that is posted. -/
  body : Option String
  /-- The time in milliseconds to wait for the whole answer. -/
  timeout : UInt64
  deriving DecidableEq, Repr

def Request.method (r : Request) : String := if r.body.isSome then "POST" else "GET"

/-- Why a connection gave no answer. -/
inductive LinkFault where
  | failed (reason : String)
  | timedOut
  deriving DecidableEq, Repr

/-- How an exchange ends. -/
inductive Exchange where
  /-- No connection came about, so the analyzer has not seen the request. -/
  | unreachable (fault : LinkFault)
  /-- The request was sent, and no status came back. -/
  | unanswered (fault : LinkFault)
  /-- A status came back, and then the body or a fault within it. -/
  | answered (status : Nat) (body : Except LinkFault (List UInt8))

def Exchange.isSeen : Exchange → Bool
  | .unreachable _ => false
  | _ => true

def isSuccess (status : Nat) : Bool := 200 ≤ status && status ≤ 299

/-- Why a call to the analyzer has no result. -/
inductive ClientError where
  | network (reason : String)
  | timeout
  | status (code : Nat)
  | malformed (fault : Json.Fault)
  | emptySource

namespace ClientError

/-- The wording of each error. -/
def message : ClientError → String
  | .network reason => "network error: " ++ reason
  | .timeout => "request timed out"
  | .status code => "analyzer returned HTTP " ++ Number.decimal code
  | .malformed fault => "malformed analyzer response: " ++ fault.message
  | .emptySource => "no source code to analyze"

/-- Whether the analyzer may just not be running. -/
def isLost : ClientError → Bool
  | .network _ => true
  | .timeout => true
  | _ => false

/-- The error for a fault of the connection. -/
def ofFault : LinkFault → ClientError
  | .failed reason => .network reason
  | .timedOut => .timeout

end ClientError

/-- The body of a successful answer, as text. A byte order mark tells its encoding. Without one it is
UTF-8: a link delivers no name of a character set, and hands over the body of an answer that names
another one in UTF-8. -/
def Exchange.text : Exchange → Except ClientError String
  | .unreachable fault => .error (.ofFault fault)
  | .unanswered fault => .error (.ofFault fault)
  | .answered status body =>
    if isSuccess status then
      match body with
      | .ok bytes => .ok (Text.ofMarkedLenient bytes)
      | .error fault => .error (.ofFault fault)
    else .error (.status status)

end AnalysisBrowser
