import AnalysisBrowser.Diagnostics.Merge

/-!
# Error reports

The aggregate of both streams: the merged list, counts by severity and by type, and hints. That
there is nothing to report is told apart from a report.
-/
namespace AnalysisBrowser

/-- How many findings are errors and how many are warnings. -/
structure SeverityCounts where
  errors : Nat
  warnings : Nat
  deriving DecidableEq, Repr

namespace SeverityCounts

def zero : SeverityCounts := ⟨0, 0⟩

def total (c : SeverityCounts) : Nat := c.errors + c.warnings

def add (a b : SeverityCounts) : SeverityCounts := ⟨a.errors + b.errors, a.warnings + b.warnings⟩

/-- Counts one more finding. -/
def count (c : SeverityCounts) (f : Finding) : SeverityCounts :=
  match Severity.effective f.severity with
  | .error => { c with errors := c.errors + 1 }
  | .warning => { c with warnings := c.warnings + 1 }

def ofFindings (stream : List Finding) : SeverityCounts := stream.foldl count zero

def toJson (c : SeverityCounts) : Json :=
  .object [("errors", .count c.errors), ("warnings", .count c.warnings)]

end SeverityCounts

/-- How often each type of error occurs in a stream. The index never leads past the entries, so it
makes no difference what stands for a count that fails. -/
def commonTypes (stream : List Finding) : Tally String :=
  ((IndexedTally.ofList? (stream.map Finding.errorType)).map IndexedTally.entries).getD []

def typeCountsJson (types : Tally String) : Json :=
  .list (fun (t, n) => .object [("errorType", .string t), ("count", .count n)]) types

/-- The hint for any finding of the parser. -/
def syntaxHint : String := "Check that every brace, parenthesis and bracket is balanced"

/-- The hints for types of semantic errors, in the order in which they are shown. -/
def semanticHints : List (String × String) :=
  [("UNDEFINED_VARIABLE", "Declare every variable before using it"),
    ("TYPE_MISMATCH", "Make sure operand types are compatible in each operation"),
    ("REDECLARATION",
      "Avoid declaring two variables or functions with the same name in one scope")]

/-- The hints that fit the findings. -/
def hintsFor (syntactic semantic : List Finding) : List String :=
  (if syntactic.isEmpty then [] else [syntaxHint]) ++
    (semanticHints.filter fun (t, _) => semantic.any fun f => f.errorType == t).map Prod.snd

/-- The aggregate of the findings of one run. -/
structure ErrorSummary where
  merged : List TaggedFinding
  syntaxTotal : Nat
  semanticTotal : Nat
  syntaxCounts : SeverityCounts
  semanticCounts : SeverityCounts
  combined : SeverityCounts
  syntaxTypes : Tally String
  semanticTypes : Tally String
  hints : List String
  deriving Repr

namespace ErrorSummary

/-- The number of findings. -/
def total (s : ErrorSummary) : Nat := s.merged.length

/-- The findings of the chosen stages. -/
def view (s : ErrorSummary) (f : OriginFilter) : List TaggedFinding := f.apply s.merged

def toJson (s : ErrorSummary) : Json :=
  .object
    [("merged", .list TaggedFinding.toJson s.merged), ("syntaxTotal", .count s.syntaxTotal),
      ("semanticTotal", .count s.semanticTotal), ("syntax", s.syntaxCounts.toJson),
      ("semantic", s.semanticCounts.toJson), ("combined", s.combined.toJson),
      ("syntaxTypes", typeCountsJson s.syntaxTypes),
      ("semanticTypes", typeCountsJson s.semanticTypes), ("hints", .list .string s.hints)]

end ErrorSummary

/-- The report of one run. -/
inductive ErrorReport where
  | noErrors
  | report (summary : ErrorSummary)

namespace ErrorReport

/-- The report on two streams of findings. -/
def build (syntactic semantic : List Finding) : ErrorReport :=
  if syntactic.isEmpty && semantic.isEmpty then .noErrors
  else
    let syntaxCounts := SeverityCounts.ofFindings syntactic
    let semanticCounts := SeverityCounts.ofFindings semantic
    .report
      { merged := mergeFindings syntactic semantic
        syntaxTotal := syntactic.length
        semanticTotal := semantic.length
        syntaxCounts
        semanticCounts
        combined := syntaxCounts.add semanticCounts
        syntaxTypes := commonTypes syntactic
        semanticTypes := commonTypes semantic
        hints := hintsFor syntactic semantic }

def ofModel (m : ResultModel) : ErrorReport := build m.syntaxFindings m.semanticFindings

/-- The number of findings. -/
def total : ErrorReport → Nat
  | .noErrors => 0
  | .report s => s.total

end ErrorReport

end AnalysisBrowser
