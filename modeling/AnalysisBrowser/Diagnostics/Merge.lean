import AnalysisBrowser.Model.Result

/-!
# Merging the two streams of findings

Each finding is tagged with the stage it comes from. The streams are put one after the other,
syntax first, and sorted by line and position. The sort is stable: findings at one place keep that
order.
-/
namespace AnalysisBrowser

/-- A finding with its stage. -/
structure TaggedFinding where
  origin : Origin
  finding : Finding
  deriving DecidableEq, Repr

namespace TaggedFinding

def toJson (t : TaggedFinding) : Json :=
  .object
    ([("origin", .string t.origin.name), ("message", .string t.finding.message),
      ("line", .word t.finding.line), ("position", .word t.finding.position),
      ("errorType", .string t.finding.errorType)] ++
      Json.member? "severity" (fun s => .string s.name) t.finding.severity ++
      [("detail", t.finding.detail.toJson)])

/-- Whether one finding stands before another, or at the same place. -/
def le (a b : TaggedFinding) : Bool :=
  a.finding.line < b.finding.line ||
    (a.finding.line == b.finding.line && a.finding.position ≤ b.finding.position)

end TaggedFinding

/-- Tags every finding of a stream. -/
def tag (origin : Origin) (stream : List Finding) : List TaggedFinding :=
  stream.map (TaggedFinding.mk origin)

/-- Puts a finding before the first one that does not come before it. -/
def insertByPlace (t : TaggedFinding) : List TaggedFinding → List TaggedFinding
  | [] => [t]
  | u :: rest => if t.le u then t :: u :: rest else u :: insertByPlace t rest

/-- The findings in order of their places; those at one place keep their order. -/
def sortByPlace : List TaggedFinding → List TaggedFinding
  | [] => []
  | t :: rest => insertByPlace t (sortByPlace rest)

/-- The two streams as one list. -/
def mergeFindings (syntactic semantic : List Finding) : List TaggedFinding :=
  sortByPlace (tag .syntactic syntactic ++ tag .semantic semantic)

/-- The stages to show. -/
inductive OriginFilter where
  | all
  | only (origin : Origin)
  deriving DecidableEq, Repr

namespace OriginFilter

/-- The word for a choice of stages. -/
def name : OriginFilter → String
  | .all => "all"
  | .only origin => origin.name

/-- The choice that a text names in any letter case. -/
def ofText? (s : String) : Option OriginFilter :=
  let low := Text.lower s
  if low = "all" then some .all
  else if low = "syntax" then some (.only .syntactic)
  else if low = "semantic" then some (.only .semantic)
  else none

/-- The wording for a text that names no choice. -/
def unknownMessage (s : String) : String :=
  "unknown origin " ++ Text.quoted s ++ ", must be 'syntax', 'semantic' or 'all'"

def accepts : OriginFilter → Origin → Bool
  | .all, _ => true
  | .only origin, o => o == origin

/-- The findings of the chosen stages, in order. -/
def apply (f : OriginFilter) (merged : List TaggedFinding) : List TaggedFinding :=
  merged.filter fun t => f.accepts t.origin

end OriginFilter

theorem perm_insertByPlace (t : TaggedFinding) (ts : List TaggedFinding) :
    (insertByPlace t ts).Perm (t :: ts) := by
  induction ts with
  | nil => exact .refl _
  | cons u rest ih =>
    simp only [insertByPlace]
    split
    · exact .refl _
    · exact (ih.cons u).trans (.swap t u rest)

theorem perm_sortByPlace (ts : List TaggedFinding) : (sortByPlace ts).Perm ts := by
  induction ts with
  | nil => exact .refl _
  | cons t rest ih => exact (perm_insertByPlace t _).trans (ih.cons t)

end AnalysisBrowser
