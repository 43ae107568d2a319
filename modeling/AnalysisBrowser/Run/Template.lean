/-!
# The configuration template

What a new configuration file says: every setting, with its default.
-/
namespace AnalysisBrowser

/-- The lines of a new configuration file. -/
def templateLines : List String :=
  [ "# astlens configuration"
  , "#"
  , "# Every setting is optional. Remove a line to fall back to its default."
  , ""
  , "analyzer:"
  , "  # Base URL of the analyzer service. The lexical endpoint is \x7bbase_url\x7d/analyze,"
  , "  # the syntax endpoints live under \x7bbase_url\x7d/syntax/."
  , "  base_url: http://localhost:8080/api"
  , "  # Per-request timeout in milliseconds"
  , "  timeout_ms: 10000"
  , ""
  , "view:"
  , "  # Output format: pretty or json"
  , "  format: pretty"
  , "  # Tree nodes shallower than this start expanded"
  , "  expand_depth: 2" ]

/-- The text of a new configuration file. -/
def configTemplate : String := String.join (templateLines.map (· ++ "\n"))

end AnalysisBrowser
