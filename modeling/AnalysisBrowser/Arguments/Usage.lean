import AnalysisBrowser.Arguments.Grammar
import AnalysisBrowser.Text.Joining
import AnalysisBrowser.Text.Quoted

/-!
# Texts about command lines

The text that answers a request for help, and what is said about a command line that is refused.
-/
namespace AnalysisBrowser.Arguments

def helpLines : List String :=
  [ "Inspect what a remote analyzer makes of a source file"
  , ""
  , "Usage: astlens [-v] <command> [<file> | --from-json <path>] [options]"
  , ""
  , "Commands:"
  , "  analyze   Analyze a file and show every view"
  , "  tree      Show the syntax tree"
  , "  symbols   Show the symbol table"
  , "  errors    Show syntax and semantic errors (also: check)"
  , "  tokens    Show the token stream"
  , "  validate  Validate a file as one specific construct"
  , "  health    Check that the analyzer services are reachable"
  , "  init      Create a config file from the template"
  , ""
  , "Options of every command:"
  , "  -v, --verbose             More log output on stderr (-v info, -vv debug)"
  , "  -h, --help                Print help"
  , "  -V, --version             Print version (in front of a command only)"
  , ""
  , "Options of commands that show a result:"
  , "      --from-json <path>    Read a saved analysis result"
  , "  -f, --format <format>     Output format: pretty or json"
  , "  -c, --config <path>       Path to config YAML file"
  , ""
  , "Options of single commands:"
  , "  analyze   --expand-all"
  , "  tree      --expand-all, --collapse-all, -t/--toggle <path>, -d/--depth <n>, -s/--summary"
  , "  symbols   -k/--kind <kind>, --scope <scope>, --hide-unused"
  , "  errors    -o/--origin <syntax|semantic|all>"
  , "  validate  -s/--structure <for_loop|function|variable_declaration>"
  , "  init      -o/--output <path>, --user" ]

/-- What is said about a refused command line. -/
def Refusal.wording : Refusal → String
  | .help => "help requested"
  | .version => "version requested"
  | .nothingGiven => "no command given"
  | .noCommand => "no command given"
  | .unknownCommand => "unrecognized command"
  | .unknownArgument text => "unexpected argument " ++ Text.quoted text
  | .conflict parameter => parameter ++ " cannot be used together with the other arguments"
  | .unwantedValue => "a value is given for an option that takes none"
  | .noValue parameter => "a value is required for " ++ parameter
  | .badValue parameter value reason =>
    "invalid value " ++ Text.quoted value ++ " for " ++ parameter ++ ": " ++ reason
  | .missing parameters => "missing: " ++ Text.joinWith ", " parameters

end AnalysisBrowser.Arguments
