import AnalysisBrowser.Json.Value
import AnalysisBrowser.Tree.Expansion
import AnalysisBrowser.Yaml.Decoder

/-!
# Configuration

Where the analyzer is and how results are shown. Every setting may be left out and has a default;
a setting that is left out is told apart from one that has the default value.
-/
namespace AnalysisBrowser

open Yaml (Field Schema)

/-- The address of the analyzer where none is set. -/
def defaultBaseUrl : String := "http://localhost:8080/api"

/-- The time in milliseconds to wait for an answer where none is set. -/
def defaultTimeout : UInt64 := 10000

/-- Where the analyzer is. -/
structure AnalyzerConfig where
  baseUrlSetting : Option String
  timeoutSetting : Option UInt64
  deriving DecidableEq, Repr

namespace AnalyzerConfig

def unset : AnalyzerConfig := ⟨none, none⟩

/-- A text without the slashes at its end. -/
def trimSlashes (s : String) : String :=
  String.ofList ((s.toList.reverse.dropWhile (· == '/')).reverse)

/-- The address of the analyzer, without slashes at its end. -/
def baseUrl (c : AnalyzerConfig) : String := trimSlashes (c.baseUrlSetting.getD defaultBaseUrl)

/-- The time in milliseconds to wait for an answer. -/
def timeout (c : AnalyzerConfig) : UInt64 := c.timeoutSetting.getD defaultTimeout

/-- A text without the slashes at its beginning. -/
def dropSlashes (s : String) : String := String.ofList (s.toList.dropWhile (· == '/'))

/-- The address of one service of the analyzer. -/
def endpoint (c : AnalyzerConfig) (path : String) : String :=
  c.baseUrl ++ "/" ++ dropSlashes path

def toJson (c : AnalyzerConfig) : Json :=
  .object
    [("base_url", .optionalText c.baseUrlSetting),
      ("timeout_ms", (c.timeoutSetting.map Json.word).getD .null)]

def schema : Schema AnalyzerConfig where
  name := "AnalyzerConfig"
  fields :=
    [ .of "base_url" (Yaml.Decoder.optional Yaml.Decoder.text)
        fun baseUrlSetting c => { c with baseUrlSetting }
    , .of "timeout_ms" (Yaml.Decoder.optional (Yaml.Decoder.count "u64"))
        fun timeoutSetting c => { c with timeoutSetting } ]
  blank := unset

end AnalyzerConfig

/-- How results are shown. -/
structure ViewConfig where
  formatSetting : Option String
  expandDepthSetting : Option UInt64
  deriving DecidableEq, Repr

namespace ViewConfig

def unset : ViewConfig := ⟨none, none⟩

/-- The name of the output format. -/
def format (c : ViewConfig) : String := c.formatSetting.getD "pretty"

/-- Nodes shallower than this start expanded. -/
def expandDepth (c : ViewConfig) : Nat :=
  (c.expandDepthSetting.map UInt64.toNat).getD defaultExpandDepth

def toJson (c : ViewConfig) : Json :=
  .object
    [("format", .optionalText c.formatSetting),
      ("expand_depth", (c.expandDepthSetting.map Json.word).getD .null)]

def schema : Schema ViewConfig where
  name := "ViewConfig"
  fields :=
    [ .of "format" (Yaml.Decoder.optional Yaml.Decoder.text)
        fun formatSetting c => { c with formatSetting }
    , .of "expand_depth" (Yaml.Decoder.optional (Yaml.Decoder.count "usize"))
        fun expandDepthSetting c => { c with expandDepthSetting } ]
  blank := unset

end ViewConfig

/-- All settings. -/
structure Config where
  analyzer : AnalyzerConfig
  view : ViewConfig
  deriving DecidableEq, Repr

/-- Why settings cannot work. -/
inductive ConfigError where
  | baseUrl (url : String)
  | timeout
  | format (name : String)
  deriving DecidableEq, Repr

/-- The wording of each error. -/
def ConfigError.message : ConfigError → String
  | .baseUrl url =>
    "invalid analyzer.base_url " ++ Text.quoted url ++ ", must start with http:// or https://"
  | .timeout => "analyzer.timeout_ms must be greater than zero"
  | .format name =>
    "invalid view.format " ++ Text.quoted name ++ ", must be 'pretty' or 'json'"

namespace Config

/-- The settings where nothing is set. -/
def default : Config := ⟨.unset, .unset⟩

def toJson (c : Config) : Json :=
  .object [("analyzer", c.analyzer.toJson), ("view", c.view.toJson)]

def schema : Schema Config where
  name := "Config"
  fields :=
    [ .of "analyzer" AnalyzerConfig.schema.decode fun analyzer c => { c with analyzer }
    , .of "view" ViewConfig.schema.decode fun view c => { c with view } ]
  blank := default

/-- Reads settings. -/
def ofText (text : String) : Except Yaml.Fault Config := Yaml.decodeText schema.decode text

/-- Whether an address has one of the two forms that can be reached. -/
def isReachable (url : String) : Bool :=
  "http://".isPrefixOf url || "https://".isPrefixOf url

/-- What is wrong with settings, the address first. -/
def validate (c : Config) : Option ConfigError :=
  if !isReachable c.analyzer.baseUrl then some (.baseUrl c.analyzer.baseUrl)
  else if c.analyzer.timeoutSetting = some 0 then some .timeout
  else if c.view.format ≠ "pretty" && c.view.format ≠ "json" then some (.format c.view.format)
  else none

end Config

end AnalysisBrowser
