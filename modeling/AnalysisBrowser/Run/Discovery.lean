import AnalysisBrowser.Arguments.Invocation
import AnalysisBrowser.Run.Failure

/-!
# Finding the configuration

A configuration that the command line names must be there. Otherwise the first one that is found
counts, in the working directory before the user's own; where none is found, nothing is set. A
configuration that cannot work ends the run, and so does an output format that does not exist.
-/
namespace AnalysisBrowser

/-- The configuration files of a working directory, in the order of preference. -/
def configNames : List String := ["astlens.yaml", ".astlens.yaml"]

/-- The ways to print a result. -/
inductive Format where
  | pretty
  | json
  deriving DecidableEq, Repr

def Format.ofName? : String → Option Format
  | "pretty" => some .pretty
  | "json" => some .json
  | _ => none

/-- The first path that leads to something. -/
def firstPresent : List String → Program (Option String)
  | [] => .done none
  | path :: rest => do
    if ← Program.query (.isPresent path) then return some path
    firstPresent rest

/-- The configuration file to use where the command line names none. -/
def discover : Program (Option String) := do
  match ← firstPresent configNames with
  | some path => return some path
  | none =>
    match ← Program.query .userConfig with
    | some path => firstPresent [path]
    | none => return none

/-- The configuration file to use. -/
def chooseConfig : Option String → Run (Option String)
  | none => discover
  | some path => do
    if ← Program.query (.isPresent path) then return some path
    Run.fail (.configMissing path)

/-- The configuration in a file. -/
def readConfig (path : String) : Run Config := do
  Program.note .debug .config ("loading config from " ++ path)
  Run.ofExcept (.configUnreadable path) (← readRecord Config.ofText path)

def loadConfig (explicit : Option String) : Run Config := do
  let config ← match ← chooseConfig explicit with
    | some path => readConfig path
    | none => do
      Program.note .debug .config "no config file found, using defaults"
      pure Config.default
  match config.validate with
  | none => return config
  | some e => Run.fail (.configInvalid e)

def prepare (overrides : Overrides) : Run (Config × Format) := do
  let config ← loadConfig overrides.config
  let name := overrides.format.getD config.view.format
  match Format.ofName? name with
  | some format => return (config, format)
  | none => Run.fail (.unknownFormat name)

end AnalysisBrowser
