/-!
# Columns

A cell is widened with spaces to the width of its column, counted in characters. Longer text keeps
all of its characters.
-/
namespace AnalysisBrowser.Text

/-- `n` spaces. -/
def spaces (n : Nat) : String :=
  String.ofList (List.replicate n ' ')

/-- The text at the left of a column. -/
def padRight (width : Nat) (s : String) : String :=
  s ++ spaces (width - s.length)

/-- The text at the right of a column. -/
def padLeft (width : Nat) (s : String) : String :=
  spaces (width - s.length) ++ s

end AnalysisBrowser.Text
