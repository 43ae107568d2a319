import AnalysisBrowser.Machine.State
import AnalysisBrowser.Run.Commands

/-!
# Outcomes

What a run leaves for the one who started it: an exit code, what is on the standard output and what
is on the standard error output. Notes come before the lines of a failure, since a run ends with
those.
-/
namespace AnalysisBrowser

/-- The exit code of a result. -/
def exitCode : Except RunError Report → Nat
  | .ok report => if report.isInOrder then 0 else 1
  | .error _ => 2

/-- What a result prints. -/
def printed (colored : Bool) : Except RunError Report → String
  | .ok report => report.shown.text colored
  | .error _ => ""

/-- The lines that say why there is no result. -/
def complaints : Except RunError Report → List String
  | .ok _ => []
  | .error e => e.lines

/-- What a run leaves. -/
structure Outcome where
  exit : Nat
  stdout : String
  stderr : String
  deriving Repr

/-- Lines as text. -/
def unlines (lines : List String) : String := String.join (lines.map (· ++ "\n"))

namespace Invocation

/-- Carries out a command on a machine. -/
def on (i : Invocation) (m : Machine) : Outcome × Machine :=
  let (result, after) := i.command.run.run.on { m with notes := [], seen := [] }
  let remarks := (after.notes.filter (Note.isShown i.verbosity)).map Note.line
  (⟨exitCode result, printed false result, unlines (remarks ++ complaints result)⟩, after)

end Invocation

end AnalysisBrowser
