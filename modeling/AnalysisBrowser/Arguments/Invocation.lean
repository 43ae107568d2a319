import AnalysisBrowser.Arguments.Reading
import AnalysisBrowser.Client.Wire
import AnalysisBrowser.Diagnostics.Merge
import AnalysisBrowser.Symbols.Filter
import AnalysisBrowser.Tree.Path

/-!
# Invocations

The commands of the browser and the command lines that stand for them. What a command line leaves
out, such as the output format, stays open here and is settled by the configuration.
-/
namespace AnalysisBrowser

open Arguments

/-- Where the result to show comes from. -/
inductive Source where
  /-- A file whose source code is sent to the analyzer. -/
  | code (path : String)
  /-- A result that was saved. -/
  | saved (path : String)
  deriving DecidableEq, Repr

/-- What a command line says about the configuration. -/
structure Overrides where
  format : Option String
  config : Option String
  deriving DecidableEq, Repr

/-- Whether a whole tree is expanded or collapsed at first. -/
inductive Bulk where
  | none
  | expandAll
  | collapseAll
  deriving DecidableEq, Repr

/-- How a tree is to be shown. -/
structure TreeOptions where
  bulk : Bulk
  toggles : List NodePath
  depth : Option Nat
  summary : Bool

/-- Where a new configuration goes. -/
inductive InitTarget where
  | path (output : String)
  | user
  deriving DecidableEq, Repr

/-- What a run is asked to do. -/
inductive Command where
  | analyze (source : Source) (overrides : Overrides) (expandAll : Bool)
  | tree (source : Source) (overrides : Overrides) (options : TreeOptions)
  | symbols (source : Source) (overrides : Overrides) (filter : SymbolFilter)
  | errors (source : Source) (overrides : Overrides) (origin : OriginFilter)
  | tokens (source : Source) (overrides : Overrides)
  | validate (path : String) (structureType : StructureType) (overrides : Overrides)
  | health (overrides : Overrides)
  | init (target : InitTarget)

/-- A command and how much is remarked on the way. -/
structure Invocation where
  verbosity : Nat
  command : Command

namespace Arguments

/-- What the arguments of any command set. A command has the parameters for some of it. -/
structure Settings where
  file : Option String
  fromJson : Option String
  overrides : Overrides
  expandAll : Bool
  collapseAll : Bool
  toggles : List NodePath
  depth : Option Nat
  summary : Bool
  kind : KindFilter
  scope : ScopeFilter
  hideUnused : Bool
  origin : OriginFilter
  structureType : Option StructureType
  output : String
  user : Bool

/-- The file name of a new configuration where none is given. -/
def defaultOutput : String := "astlens.yaml"

namespace Settings

/-- The settings where nothing is given. -/
def blank : Settings where
  file := none
  fromJson := none
  overrides := ⟨none, none⟩
  expandAll := false
  collapseAll := false
  toggles := []
  depth := none
  summary := false
  kind := .all
  scope := .all
  hideUnused := false
  origin := .all
  structureType := none
  output := defaultOutput
  user := false

end Settings

/-- Reads a choice by name. -/
def readChoice {α : Type} (ofText? : String → Option α) (unknown : String → String) (s : String) :
    Except Misreading α :=
  match ofText? s with
  | some a => .ok a
  | none => .error (.because (unknown s))

/-- Reads a number that fits in 64 bits. -/
def readNumber (s : String) : Except Misreading Nat :=
  (Number.readCount s).mapError fun e => .because e.message

def readNodePath (s : String) : Except Misreading NodePath :=
  (NodePath.parse s).mapError fun e => .because e.message

/-- The word without a name, as the messages of a command call it. -/
def fileOperand (display : String) : Parameter Settings :=
  ⟨display, "", none, false, .take fun s => (readPath s).map fun path a => { a with file := some path }⟩

/-- The parameters of the configuration. -/
def overrideParameters : List (Parameter Settings) :=
  [ .option "format" (some 'f') "FORMAT" readText
      fun name a => { a with overrides := { a.overrides with format := some name } }
  , .option "config" (some 'c') "CONFIG" readPath
      fun path a => { a with overrides := { a.overrides with config := some path } } ]

def commonParameters {σ : Type} : List (Parameter σ) := [.verbose, .help]

/-- The display of the file to analyze. -/
def optionalFile : String := "[FILE]"

/-- The display of the file to analyze where it must not be missing. -/
def requiredFile : String := "<FILE>"

/-- The grammar of a command that shows a result. -/
def resultGrammar (parameters : List (Parameter Settings)) (exclusions : List (String × String)) :
    Grammar Settings where
  blank := .blank
  parameters :=
    [.option "from-json" none "PATH" readPath fun path a => { a with fromJson := some path }] ++
      overrideParameters ++ parameters ++ commonParameters
  operand := some (fileOperand optionalFile)
  exclusions := (optionalFile, "--from-json <PATH>") :: exclusions

/-- The commands by what they do. -/
inductive Verb where
  | analyze
  | tree
  | symbols
  | errors
  | tokens
  | validate
  | health
  | init
  deriving DecidableEq, Repr

namespace Verb

/-- The commands by name. One has two names. -/
def names : List (String × Verb) :=
  [ ("analyze", .analyze), ("tree", .tree), ("symbols", .symbols), ("errors", .errors)
  , ("check", .errors), ("tokens", .tokens), ("validate", .validate), ("health", .health)
  , ("init", .init) ]

/-- The command with a name. -/
def ofName? (name : String) : Option Verb := names.lookup name

/-- What may follow the name of a command. -/
def grammar : Verb → Grammar Settings
  | .analyze =>
    resultGrammar [.flag "expand-all" none fun a => { a with expandAll := true }] []
  | .tree =>
    resultGrammar
      [ .flag "expand-all" none fun a => { a with expandAll := true }
      , .flag "collapse-all" none fun a => { a with collapseAll := true }
      , .list "toggle" (some 't') "PATH" readNodePath
          fun p a => { a with toggles := a.toggles ++ [p] }
      , .option "depth" (some 'd') "DEPTH" readNumber fun n a => { a with depth := some n }
      , .flag "summary" (some 's') fun a => { a with summary := true } ]
      [("--expand-all", "--collapse-all")]
  | .symbols =>
    resultGrammar
      [ .option "kind" (some 'k') "KIND"
          (readChoice KindFilter.ofText? SymbolKind.unknownMessage)
          fun kind a => { a with kind }
      , .option "scope" none "SCOPE" readText
          fun scope a => { a with scope := .ofOption (some scope) }
      , .flag "hide-unused" none fun a => { a with hideUnused := true } ]
      []
  | .errors =>
    resultGrammar
      [ .option "origin" (some 'o') "ORIGIN"
          (readChoice OriginFilter.ofText? OriginFilter.unknownMessage)
          fun origin a => { a with origin } ]
      []
  | .tokens => resultGrammar [] []
  | .validate =>
    { blank := .blank
      parameters :=
        [ .option "structure" (some 's') "STRUCTURE"
            (readChoice StructureType.ofName? StructureType.unknownMessage)
            fun t a => { a with structureType := some t } ] ++
          overrideParameters ++ commonParameters
      operand := some (fileOperand requiredFile)
      exclusions := [] }
  | .health =>
    { blank := .blank
      parameters := overrideParameters ++ commonParameters
      operand := none
      exclusions := [] }
  | .init =>
    { blank := .blank
      parameters :=
        [ .option "output" (some 'o') "OUTPUT" readPath fun output a => { a with output }
        , .flag "user" none fun a => { a with user := true } ] ++ commonParameters
      operand := none
      exclusions := [("--user", "--output <OUTPUT>")] }

end Verb

namespace Settings

/-- Where the result to show comes from, if that is given. -/
def source (a : Settings) : Except Refusal Source :=
  match a.fromJson, a.file with
  | some path, _ => .ok (.saved path)
  | none, some path => .ok (.code path)
  | none, none => .error (.missing [requiredFile])

/-- What happens to a whole tree at first. -/
def bulk (a : Settings) : Bulk :=
  if a.expandAll then .expandAll else if a.collapseAll then .collapseAll else .none

/-- The command that a verb stands for with these settings. -/
def command (a : Settings) : Verb → Except Refusal Command
  | .analyze => do return .analyze (← a.source) a.overrides a.expandAll
  | .tree => do return .tree (← a.source) a.overrides ⟨a.bulk, a.toggles, a.depth, a.summary⟩
  | .symbols => do
    return .symbols (← a.source) a.overrides ⟨a.kind, a.scope, !a.hideUnused⟩
  | .errors => do return .errors (← a.source) a.overrides a.origin
  | .tokens => do return .tokens (← a.source) a.overrides
  | .validate =>
    match a.structureType, a.file with
    | some t, some path => .ok (.validate path t a.overrides)
    | none, some _ => .error (.missing ["--structure <STRUCTURE>"])
    | some _, none => .error (.missing [requiredFile])
    | none, none => .error (.missing ["--structure <STRUCTURE>", requiredFile])
  | .health => .ok (.health a.overrides)
  | .init => .ok (.init (if a.user then .user else .path a.output))

end Settings

/-- What may stand in front of the name of a command. -/
def rootGrammar : Grammar Unit where
  blank := ()
  parameters := commonParameters ++ [.version]
  operand := none
  exclusions := []

/-- The answer to a request for help on something. -/
def helpOn : List String → Refusal
  | [] => .help
  | [name] => if name = "help" || (Verb.ofName? name).isSome then .help else .unknownCommand
  | _ => .unknownCommand

/-- The refusal of a word that is no command. Behind a double dash no word is one. -/
def strayWord (p : Progress Unit) (word : String) : Refusal :=
  if p.trailing && (word = "help" || (Verb.ofName? word).isSome) then .unknownArgument word
  else .unknownCommand

/-- Whether an argument is a word and no parameter. -/
def isWord (text : String) : Bool :=
  match text.toList with
  | '-' :: _ :: _ => false
  | _ => true

/-- Reads a command line up to the name of the command, and what follows with its grammar. A count
of verbosity behind the name replaces one in front of it. -/
def readInvocation : Progress Unit → List String → Except Refusal Invocation
  | p, [] => .error (if p.raised = 0 then .nothingGiven else .noCommand)
  | p, word :: rest =>
    if p.trailing then .error (strayWord p word)
    else if word = "help" then .error (helpOn rest)
    else match Verb.ofName? word with
      | some verb => do
        let (settings, raised) ← verb.grammar.read rest
        let command ← settings.command verb
        return ⟨if raised = 0 then p.raised else raised, command⟩
      | none =>
        if isWord word then .error (strayWord p word)
        else do
          let p ← p.argument rootGrammar word
          readInvocation p rest

end Arguments

/-- Reads the words of a command line. -/
def Invocation.ofWords (words : List String) : Except Refusal Invocation :=
  readInvocation (Progress.start rootGrammar) words

end AnalysisBrowser
