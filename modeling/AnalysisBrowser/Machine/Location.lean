import AnalysisBrowser.Text.Joining

/-!
# Paths of files

A path is a text; its parts are what stands between its slashes. A path that ends in a slash leads
to a directory or nowhere, so it is read as if its last part were a single dot.
-/
namespace AnalysisBrowser.Location

/-- The parts of a path, without the empty ones. -/
def parts (path : String) : List String :=
  ((Text.splitAt '/' path.toList).filter (!·.isEmpty)).map String.ofList

/-- Whether a path starts at the root. -/
def isAbsolute (path : String) : Bool := path.toList.head? == some '/'

def endsInSlash (path : String) : Bool := path.toList.getLast? == some '/'

/-- The parts that a walk along a path takes. -/
def steps (path : String) : List String :=
  if endsInSlash path then parts path ++ ["."] else parts path

/-- The parts of a path without the dots that stay where they are. A relative path keeps one at its
beginning. -/
def components (path : String) : List String :=
  match isAbsolute path, parts path with
  | false, "." :: rest => "." :: rest.filter (· != ".")
  | _, all => all.filter (· != ".")

/-- The path with the given components. -/
def ofComponents (absolute : Bool) (components : List String) : String :=
  (if absolute then "/" else "") ++ Text.joinWith "/" components

end AnalysisBrowser.Location
