import AnalysisBrowser.Client.Exchange
import AnalysisBrowser.Config
import AnalysisBrowser.Machine.Program

/-!
# Runs that fail

Why a run has no result to show, with the lines that say so. A run that fails prints nothing but
these lines.
-/
namespace AnalysisBrowser

/-- Why a text in a file cannot be taken in. -/
inductive ReadError (ε : Type) where
  | file (e : FileError)
  | content (e : ε)

namespace ReadError

variable {ε : Type}

def message (wording : ε → String) : ReadError ε → String
  | .file e => e.message
  | .content e => wording e

end ReadError

/-- Why a run fails. -/
inductive RunError where
  | configMissing (path : String)
  | configUnreadable (path : String) (e : ReadError Yaml.Fault)
  | configInvalid (e : ConfigError)
  | unknownFormat (name : String)
  | resultUnreadable (path : String) (e : ReadError Json.Fault)
  | sourceUnreadable (path : String) (e : FileError)
  | sourceBlank (path : String)
  | analyzer (baseUrl : String) (e : ClientError)
  | noUserConfig
  | occupied (path : String)
  | directoryRefused (e : FileError)
  | writeRefused (e : FileError)

/-- The lines that report each failure. -/
def RunError.lines : RunError → List String
  | .configMissing path => ["Error: config file not found: " ++ path]
  | .configUnreadable path e =>
    ["Error: error parsing " ++ path ++ ": " ++ e.message Yaml.Fault.message]
  | .configInvalid e => ["Error: " ++ e.message]
  | .unknownFormat name =>
    ["Error: invalid format " ++ Text.quoted name ++ ", must be 'pretty' or 'json'"]
  | .resultUnreadable path e =>
    ["Error reading " ++ path ++ ": " ++ e.message Json.Fault.message]
  | .sourceUnreadable path e => ["Error: cannot read " ++ path ++ ": " ++ e.message]
  | .sourceBlank path => ["Error: " ++ path ++ " contains no source code"]
  | .analyzer baseUrl e =>
    ("Error: " ++ e.message) ::
      if e.isLost then
        ["Is the analyzer running at " ++ baseUrl ++ "? Check with 'astlens health'"]
      else []
  | .noUserConfig => ["Error: cannot determine the user config directory"]
  | .occupied path =>
    [ "Error: file already exists: " ++ path
    , "Remove it or use --output to specify a different path" ]
  | .directoryRefused e => ["Error: failed to create directory: " ++ e.message]
  | .writeRefused e => ["Error: failed to write config: " ++ e.message]

/-- A program that comes to a result or fails. -/
abbrev Run := ExceptT RunError Program

namespace Run

variable {α : Type}

/-- Ends a run. -/
def fail (e : RunError) : Run α := .mk (.done (.error e))

/-- Goes on with a success. -/
def ofExcept {ε : Type} (failure : ε → RunError) (result : Except ε α) : Run α :=
  .mk (.done (result.mapError failure))

end Run

def readTextFile (path : String) : Program (Except FileError String) := do
  match ← Program.query (.read path) with
  | .error e => return .error e
  | .ok bytes =>
    match Text.ofUtf8? bytes with
    | some text => return .ok text
    | none => return .error .notText

/-- The record that a file holds. -/
def readRecord {ε α : Type} (decode : String → Except ε α) (path : String) :
    Program (Except (ReadError ε) α) := do
  match ← readTextFile path with
  | .error e => return .error (.file e)
  | .ok text => return (decode text).mapError .content

end AnalysisBrowser
