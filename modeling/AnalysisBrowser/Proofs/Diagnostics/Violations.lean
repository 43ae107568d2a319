import AnalysisBrowser.Proofs.Diagnostics.Accounts

/-!
# Violations and the report

The findings that contradict the mark of validity are taken from the streams as they came, and the
report on the same result is made of the merged list. Both choose the findings of severity error.
Choosing findings commutes with the sort by place, and a violation stands where its finding stands,
so the violations in order of their places are the errors of the merged list, one by one.
-/
namespace AnalysisBrowser

/-- The place of a violation, compared by line and then by position. -/
def ContractViolation.place (v : ContractViolation) : ℕ ×ₗ ℕ :=
  toLex (v.line.toNat, v.position.toNat)

namespace TaggedFinding

/-- The violation that a finding of severity error makes. -/
def violation (t : TaggedFinding) : ContractViolation := .ofFinding t.origin t.finding

def isError (t : TaggedFinding) : Bool := t.finding.severity = some .error

end TaggedFinding

namespace ErrorReport

/-- The counts by severity over both streams. -/
def combined : ErrorReport → SeverityCounts
  | .noErrors => .zero
  | .report s => s.combined

/-- The findings of both streams in order of their places. -/
def merged : ErrorReport → List TaggedFinding
  | .noErrors => []
  | .report s => s.merged

theorem combined_build (s m : List Finding) :
    (build s m).combined = (SeverityCounts.ofFindings s).add (.ofFindings m) := by
  rw [build_eq]
  split
  next empty =>
    obtain ⟨rfl, rfl⟩ := empty
    rfl
  next => rfl

theorem merged_build (s m : List Finding) : (build s m).merged = mergeFindings s m := by
  rw [build_eq]
  split
  next empty =>
    obtain ⟨rfl, rfl⟩ := empty
    rfl
  next => rfl

end ErrorReport

namespace ResultModel

/-- The findings of both streams with their stages, in the order in which they came. -/
def tagged (m : ResultModel) : List TaggedFinding :=
  tag .syntactic m.syntaxFindings ++ tag .semantic m.semanticFindings

/-- The result without the findings that have no severity. -/
def onlyRated (m : ResultModel) : ResultModel :=
  { m with
    syntaxErrors := m.syntaxErrors.filter fun e => e.severity.isSome
    semanticErrors := m.semanticErrors.filter fun e => e.severity.isSome }

theorem violationsIn_eq (origin : Origin) (findings : List Finding) :
    violationsIn origin findings =
      ((tag origin findings).filter TaggedFinding.isError).map TaggedFinding.violation := by
  rw [violationsIn, tag, List.filter_map, List.map_map]
  rfl

theorem contractViolations_of_isValid {m : ResultModel} (valid : m.isValid = true) :
    m.contractViolations =
      (m.tagged.filter TaggedFinding.isError).map TaggedFinding.violation := by
  rw [contractViolations, if_pos valid, violationsIn_eq, violationsIn_eq, tagged,
    List.filter_append, List.map_append]

/-- There are as many violations as the report counts errors. -/
theorem length_contractViolations {m : ResultModel} (valid : m.isValid = true) :
    m.contractViolations.length = (ErrorReport.ofModel m).combined.errors := by
  have stream (origin : Origin) (findings : List Finding) :
      (tag origin findings).countP TaggedFinding.isError =
        (SeverityCounts.ofFindings findings).errors := by
    rw [SeverityCounts.ofFindings_eq, tag, List.countP_map]
    rfl
  rw [contractViolations_of_isValid valid, List.length_map, ← List.countP_eq_length_filter, tagged,
    List.countP_append, stream, stream, ErrorReport.ofModel, ErrorReport.combined_build]
  rfl

/-- The violations in order of their places are the errors of the merged list. -/
theorem mergeSort_contractViolations {m : ResultModel} (valid : m.isValid = true) :
    (m.contractViolations.mergeSort fun a b => a.place ≤ b.place) =
      ((ErrorReport.ofModel m).merged.filter TaggedFinding.isError).map
        TaggedFinding.violation := by
  rw [ErrorReport.ofModel, ErrorReport.merged_build, mergeFindings, filter_sortByPlace,
    ← mergeSort_eq_sortByPlace, contractViolations_of_isValid valid]
  exact (List.map_mergeSort (f := TaggedFinding.violation) fun _ _ _ _ => rfl).symm

theorem violationsIn_eq_nil_iff {origin : Origin} {findings : List Finding} :
    violationsIn origin findings = [] ↔ ∀ f ∈ findings, f.severity ≠ some .error := by
  simp [violationsIn, List.filter_eq_nil_iff]

/-- There is no violation exactly when no finding of either stream is an error. -/
theorem contractViolations_eq_nil_iff {m : ResultModel} (valid : m.isValid = true) :
    m.contractViolations = [] ↔
      (∀ e ∈ m.syntaxErrors, e.severity ≠ some .error) ∧
        ∀ e ∈ m.semanticErrors, e.severity ≠ some .error := by
  rw [contractViolations, if_pos valid, List.append_eq_nil_iff, violationsIn_eq_nil_iff,
    violationsIn_eq_nil_iff]
  exact and_congr List.forall_mem_map List.forall_mem_map

/-- A stream has the same errors with and without the findings that have no severity. -/
theorem violationsIn_filter_isSome (origin : Origin) (findings : List Finding) :
    violationsIn origin (findings.filter fun f => f.severity.isSome) =
      violationsIn origin findings := by
  rw [violationsIn, violationsIn, List.filter_filter]
  congr 1
  refine List.filter_congr fun f _ => ?_
  rcases f.severity with _ | _ | _ <;> rfl

theorem contractViolations_onlyRated (m : ResultModel) :
    m.onlyRated.contractViolations = m.contractViolations := by
  have first : m.onlyRated.syntaxFindings = m.syntaxFindings.filter fun f => f.severity.isSome := by
    rw [syntaxFindings, syntaxFindings, List.filter_map]
    rfl
  have second :
      m.onlyRated.semanticFindings = m.semanticFindings.filter fun f => f.severity.isSome := by
    rw [semanticFindings, semanticFindings, List.filter_map]
    rfl
  rw [contractViolations, contractViolations, first, second, violationsIn_filter_isSome,
    violationsIn_filter_isSome]
  rfl

end ResultModel

/-- A severity is read as an error from nothing but that word, in any letter case. -/
theorem decodeLenient_eq_error_iff {levels : Nat} {d : Json.Doc} {severity : Option Severity}
    (read : Severity.decodeLenient levels d = .ok severity) :
    severity = some .error ↔ ∃ s, Json.Decoder.stringOf? d = some s ∧ Text.upper s = "ERROR" := by
  have text : (Json.Decoder.stringOf? d).bind Severity.ofText? = severity := by
    rw [Severity.decodeLenient, Json.Decoder.lenientText] at read
    cases checked : Json.Decoder.checkDoc levels d with
    | error e =>
      rw [checked] at read
      cases read
    | ok _ =>
      rw [checked] at read
      exact Except.ok.inj read
  rw [← text, Option.bind_eq_some_iff]
  refine exists_congr fun s => and_congr_right fun _ => ?_
  rw [Severity.ofText?]
  split
  next error => exact iff_of_true rfl error
  next other => split <;> simp [other]

/-- A result that is marked invalid has no violations. In one that is marked valid they are as many
as the report counts errors, none exactly when no finding is an error, and in order of their places
they are the errors of the merged list. A finding without a severity makes none, and a severity
that is not recognised is read as none. -/
theorem contractViolations_match_report (m : ResultModel) :
    (m.isValid = false → m.contractViolations = []) ∧
    (m.isValid = true →
      m.contractViolations.length = (ErrorReport.ofModel m).combined.errors ∧
      (m.contractViolations = [] ↔ (∀ e ∈ m.syntaxErrors, e.severity ≠ some .error) ∧
        ∀ e ∈ m.semanticErrors, e.severity ≠ some .error) ∧
      (m.contractViolations.mergeSort fun a b => a.place ≤ b.place) =
        ((ErrorReport.ofModel m).merged.filter fun t => t.finding.severity = some .error).map
          fun t => ⟨t.origin, t.finding.line, t.finding.position, t.finding.errorType⟩) ∧
    m.onlyRated.contractViolations = m.contractViolations ∧
    ∀ levels d severity, Severity.decodeLenient levels d = .ok severity →
      (severity = some .error ↔
        ∃ s, Json.Decoder.stringOf? d = some s ∧ Text.upper s = "ERROR") := by
  refine ⟨fun invalid => ?_, fun valid => ⟨?_, ?_, ?_⟩, ?_, fun _ _ _ => ?_⟩
  · rw [ResultModel.contractViolations, invalid]
    rfl
  · exact ResultModel.length_contractViolations valid
  · exact ResultModel.contractViolations_eq_nil_iff valid
  · exact ResultModel.mergeSort_contractViolations valid
  · exact ResultModel.contractViolations_onlyRated m
  · exact decodeLenient_eq_error_iff

/-- A result that is marked valid, with errors of both stages at one place and another one above
them that comes last. One finding came without a severity. -/
def crowdedPlace : ResultModel :=
  { ResultModel.empty with
    syntaxErrors :=
      [⟨"a", 3, 1, "MISSING", none, none, some .error⟩, ⟨"b", 1, 1, "MISSING", none, none, none⟩]
    semanticErrors :=
      [⟨"c", 3, 1, "TYPE_MISMATCH", none, none, some .error⟩,
        ⟨"d", 2, 9, "REDECLARATION", none, none, some .error⟩]
    isValid := true }

/-- The word for an error, in mixed case. -/
def errorWord : Json.Doc := .scalar .origin .origin (.string "Error" none)

theorem contractViolations_match_report_crowdedPlace :
    crowdedPlace.isValid = true ∧ ResultModel.empty.isValid = false ∧
    Severity.decodeLenient 1 errorWord = .ok (some .error) ∧
    crowdedPlace.contractViolations.length = 3 ∧
    (crowdedPlace.contractViolations.mergeSort fun a b => a.place ≤ b.place) =
      [⟨.semantic, 2, 9, "REDECLARATION"⟩, ⟨.syntactic, 3, 1, "MISSING"⟩,
        ⟨.semantic, 3, 1, "TYPE_MISMATCH"⟩] ∧
    ResultModel.empty.contractViolations = [] ∧
    ∃ s, Json.Decoder.stringOf? errorWord = some s ∧ Text.upper s = "ERROR" := by
  have read : Severity.decodeLenient 1 errorWord = .ok (some .error) := rfl
  obtain ⟨-, valid, -, word⟩ := contractViolations_match_report crowdedPlace
  obtain ⟨count, -, sorted⟩ := valid rfl
  refine ⟨rfl, rfl, read, count.trans (by decide), sorted.trans (by decide), ?_, ?_⟩
  · exact (contractViolations_match_report .empty).1 rfl
  · exact (word _ _ _ read).mp rfl

end AnalysisBrowser
