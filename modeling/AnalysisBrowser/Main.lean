import AnalysisBrowser.Arguments.Usage
import AnalysisBrowser.Run.Outcome

/-!
# The command line program

Plays the program of a command against the real file system and the standard streams. Connections
to an analyzer cannot be opened from here, so every exchange ends without the analyzer having seen
the request; saved results are shown in full.
-/
namespace AnalysisBrowser

/-- The number of a system error, which some calls report with the opposite sign. -/
def systemCode (code : UInt32) : UInt32 := if code < 0x80000000 then code else 0 - code

/-- The refusal that an error of the system stands for. -/
def FileError.ofSystem : IO.Error → FileError
  | .noFileOrDirectory _ _ _ => .notFound
  | .alreadyExists _ _ _ => .exists
  | .inappropriateType file code details =>
    match systemCode code with
    | 20 => .notDirectory
    | 21 => .isDirectory
    | _ => .other (toString (IO.Error.inappropriateType file code details))
  | .invalidArgument file code details =>
    if systemCode code = 36 then .nameTooLong
    else .other (toString (IO.Error.invalidArgument file code details))
  | e => .other (toString e)

/-- The outcome of an action on files. -/
def tryFile {α : Type} (action : IO α) : IO (Except FileError α) := do
  try
    return .ok (← action)
  catch e =>
    return .error (.ofSystem e)

/-- The directory of the user's own settings, if the environment tells it. -/
def configHome : IO (Option String) := do
  match ← IO.getEnv "XDG_CONFIG_HOME" with
  | some path =>
    if Location.isAbsolute path then return some path
    return (← IO.getEnv "HOME").map (· ++ "/.config")
  | none => return (← IO.getEnv "HOME").map (· ++ "/.config")

/-- How every exchange ends here. -/
def noConnection : Exchange := .unreachable (.failed "connections are not available")

/-- The answer of the real surroundings to a question. -/
def answerQuery (verbosity : Nat) : (q : Query) → IO q.Answer
  | .isPresent path => return (← tryFile (IO.FS.realPath path)).isOk
  | .isDirectory path => return (← tryFile (IO.FS.realPath (path ++ "/."))).isOk
  | .read path => tryFile do
    let content ← IO.FS.readBinFile path
    return content.toList
  | .makeDirectory path => tryFile (IO.FS.createDir path)
  | .write path content => tryFile (IO.FS.writeBinFile path ⟨content.toArray⟩)
  | .userConfig => return (← configHome).map (· ++ "/astlens/config.yaml")
  | .exchange _ => return noConnection
  | .exchangeBoth _ _ => return ⟨noConnection, noConnection, false⟩
  | .note n => do
    if n.isShown verbosity then IO.eprintln n.line

/-- Carries out a command. -/
def perform (i : Invocation) : IO UInt32 := do
  let forced := (← IO.getEnv "ASTLENS_DEBUG").isSome
  let verbosity := if forced then NoteLevel.debug.verbosity else i.verbosity
  let result ← i.command.run.run.execute (answerQuery verbosity)
  let output ← IO.getStdout
  output.putStr (printed (← output.isTty) result)
  output.flush
  for line in complaints result do
    IO.eprintln line
  return (exitCode result).toUInt32

/-- Answers or refuses a command line. -/
def refuse (refusal : Arguments.Refusal) : IO UInt32 := do
  match refusal with
  | .help =>
    IO.print (unlines Arguments.helpLines)
    return 0
  | .version =>
    IO.println ("astlens " ++ version)
    return 0
  | _ =>
    IO.eprintln ("error: " ++ refusal.wording)
    IO.eprint (unlines (Arguments.helpLines.drop 2))
    return 2

end AnalysisBrowser

open AnalysisBrowser in
/-- The program. -/
def main (args : List String) : IO UInt32 :=
  match Invocation.ofWords args with
  | .ok i => perform i
  | .error refusal => refuse refusal
