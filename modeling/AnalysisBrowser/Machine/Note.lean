import AnalysisBrowser.Text.Padding

/-!
# Notes

What a run remarks on its way, apart from its result. Each note has a level, and the verbosity of a
run decides up to which level notes are shown.
-/
namespace AnalysisBrowser

/-- How much a note matters. -/
inductive NoteLevel where
  | warn
  | info
  | debug
  deriving DecidableEq, Repr

namespace NoteLevel

def name : NoteLevel → String
  | .warn => "WARN"
  | .info => "INFO"
  | .debug => "DEBUG"

/-- The least verbosity at which notes of a level show. -/
def verbosity : NoteLevel → Nat
  | .warn => 0
  | .info => 1
  | .debug => 2

end NoteLevel

/-- The part of a run that a note is about. -/
inductive NoteArea where
  | config
  | client
  | session
  | cli
  deriving DecidableEq, Repr

def NoteArea.name : NoteArea → String
  | .config => "config"
  | .client => "client"
  | .session => "session"
  | .cli => "cli"

/-- One remark. -/
structure Note where
  level : NoteLevel
  area : NoteArea
  text : String
  deriving DecidableEq, Repr

namespace Note

def isShown (verbosity : Nat) (n : Note) : Bool := n.level.verbosity ≤ verbosity

def line (n : Note) : String :=
  "[" ++ Text.padRight 5 n.level.name ++ " astlens::" ++ n.area.name ++ "] " ++ n.text

end Note

end AnalysisBrowser
