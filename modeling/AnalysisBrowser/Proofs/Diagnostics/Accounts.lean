import AnalysisBrowser.View.Document
import AnalysisBrowser.Proofs.Diagnostics.StableMerge
import AnalysisBrowser.Proofs.Tally.Index

/-!
# The accounts of an error report balance

The numbers of a report are counted from different lists: the streams as they came, the streams
with their tags, and the merged list. Counting by severity is counting of findings of severity
error, so it does not see the order of a list and adds up over the parts of one. With that every
number of the report is tied to the others. Nothing but the two members that name the stages and
list the findings depends on which stages a document shows.
-/
namespace AnalysisBrowser

namespace SeverityCounts

/-- Whether a finding counts as an error. -/
def isError (f : Finding) : Bool := f.severity = some .error

theorem count_eq (c : SeverityCounts) (f : Finding) :
    c.count f = if isError f then { c with errors := c.errors + 1 }
      else { c with warnings := c.warnings + 1 } := by
  rcases severity : f.severity with _ | _ | _ <;> simp [count, isError, severity]

theorem foldl_count (xs : List Finding) (c : SeverityCounts) :
    xs.foldl count c =
      ⟨c.errors + xs.countP isError, c.warnings + xs.countP fun f => !isError f⟩ := by
  -- Stated for every start, since the fold hands on what it has counted.
  induction xs generalizing c with
  | nil => rfl
  | cons f xs ih =>
    rw [List.foldl_cons, ih, count_eq]
    by_cases error : isError f = true
    · simp only [error, if_true, List.countP_cons, Bool.not_true, Bool.false_eq_true, if_false]
      congr 1
      omega
    · rw [Bool.not_eq_true] at error
      simp only [error, if_true, List.countP_cons, Bool.not_false, Bool.false_eq_true, if_false]
      congr 1
      omega

theorem ofFindings_eq (xs : List Finding) :
    ofFindings xs = ⟨xs.countP isError, xs.countP fun f => !isError f⟩ := by
  rw [ofFindings, foldl_count]
  simp only [zero, Nat.zero_add]

theorem ofFindings_append (xs ys : List Finding) :
    ofFindings (xs ++ ys) = (ofFindings xs).add (ofFindings ys) := by
  simp only [ofFindings_eq, List.countP_append, add]

theorem ofFindings_perm {xs ys : List Finding} (perm : xs.Perm ys) :
    ofFindings xs = ofFindings ys := by
  simp only [ofFindings_eq, perm.countP_eq]

theorem total_ofFindings (xs : List Finding) : (ofFindings xs).total = xs.length := by
  rw [ofFindings_eq, total, List.length_eq_countP_add_countP isError]
  simp only [Bool.not_eq_true, Bool.decide_eq_false]

theorem total_add (a b : SeverityCounts) : (a.add b).total = a.total + b.total := by
  simp only [total, add]
  omega

end SeverityCounts

/-- The count of types never fails, and it is that of a tally without an index. -/
theorem commonTypes_eq_ofList (xs : List Finding) :
    commonTypes xs = Tally.ofList (xs.map Finding.errorType) := by
  obtain ⟨t, counted, entries, -⟩ := IndexedTally.exists_ofList? (xs.map Finding.errorType)
  rw [commonTypes, counted, Option.map_some, Option.getD_some, entries]

theorem total_commonTypes (xs : List Finding) : (commonTypes xs).total = xs.length := by
  rw [commonTypes_eq_ofList, Tally.total_ofList, List.length_map]

theorem map_finding_tag (o : Origin) (xs : List Finding) :
    (tag o xs).map TaggedFinding.finding = xs := by
  rw [tag, List.map_map]
  exact List.map_id xs

/-- The merged findings are those of both streams. -/
theorem map_finding_mergeFindings (s m : List Finding) :
    ((mergeFindings s m).map TaggedFinding.finding).Perm (s ++ m) := by
  have records := (perm_sortByPlace (tag .syntactic s ++ tag .semantic m)).map
    TaggedFinding.finding
  rwa [List.map_append, map_finding_tag, map_finding_tag] at records

theorem length_mergeFindings (s m : List Finding) :
    (mergeFindings s m).length = s.length + m.length := by
  have findings := (map_finding_mergeFindings s m).length_eq
  rwa [List.length_map, List.length_append] at findings

theorem countP_mergeFindings (p : Finding → Bool) (s m : List Finding) :
    (mergeFindings s m).countP (fun t => p t.finding) = s.countP p + m.countP p := by
  have findings := (map_finding_mergeFindings s m).countP_eq p
  rwa [List.countP_map, List.countP_append] at findings

theorem length_view_syntactic (s m : List Finding) :
    ((OriginFilter.only .syntactic).apply (mergeFindings s m)).length = s.length := by
  rw [(splitsByOrigin_mergeFindings s m).syntactic, (List.mergeSort_perm _ _).length_eq, tag,
    List.length_map]

theorem length_view_semantic (s m : List Finding) :
    ((OriginFilter.only .semantic).apply (mergeFindings s m)).length = m.length := by
  rw [(splitsByOrigin_mergeFindings s m).semantic, (List.mergeSort_perm _ _).length_eq, tag,
    List.length_map]

/-- How the numbers of one stream in a report fit its findings and each other. -/
structure StreamBalances (stream : List Finding) (counts : SeverityCounts) (total : Nat)
    (types : Tally String) (view : List TaggedFinding) : Prop where
  severities : counts.errors + counts.warnings = total
  findings : total = stream.length
  shown : total = view.length
  types : types.total = total

/-- How the numbers of a report fit the two streams and each other. -/
structure Balances (s m : List Finding) (r : ErrorSummary) : Prop where
  syntactic : StreamBalances s r.syntaxCounts r.syntaxTotal r.syntaxTypes
    (r.view (.only .syntactic))
  semantic : StreamBalances m r.semanticCounts r.semanticTotal r.semanticTypes
    (r.view (.only .semantic))
  errors : r.combined.errors = r.syntaxCounts.errors + r.semanticCounts.errors
  warnings : r.combined.warnings = r.syntaxCounts.warnings + r.semanticCounts.warnings
  merged : r.combined = SeverityCounts.ofFindings (r.merged.map TaggedFinding.finding)
  total : r.total = r.syntaxTotal + r.semanticTotal
  combined : r.total = r.combined.total
  errorRecords : r.combined.errors = r.merged.countP fun t => t.finding.severity = some .error
  warningRecords : r.combined.warnings = r.merged.countP fun t =>
    t.finding.severity = some .warning ∨ t.finding.severity = none

theorem streamBalances_of_length {stream : List Finding} {view : List TaggedFinding}
    (shown : view.length = stream.length) :
    StreamBalances stream (SeverityCounts.ofFindings stream) stream.length (commonTypes stream)
      view where
  severities := SeverityCounts.total_ofFindings stream
  findings := rfl
  shown := shown.symm
  types := total_commonTypes stream

/-- What `build` returns unless there is nothing to report. -/
def summaryOf (s m : List Finding) : ErrorSummary where
  merged := mergeFindings s m
  syntaxTotal := s.length
  semanticTotal := m.length
  syntaxCounts := .ofFindings s
  semanticCounts := .ofFindings m
  combined := (SeverityCounts.ofFindings s).add (.ofFindings m)
  syntaxTypes := commonTypes s
  semanticTypes := commonTypes m
  hints := hintsFor s m

theorem build_eq (s m : List Finding) :
    ErrorReport.build s m =
      if s = [] ∧ m = [] then .noErrors else .report (summaryOf s m) := by
  unfold ErrorReport.build
  simp only [Bool.and_eq_true, List.isEmpty_iff]
  rfl

theorem combined_eq_merged (s m : List Finding) :
    (SeverityCounts.ofFindings s).add (.ofFindings m) =
      .ofFindings ((mergeFindings s m).map TaggedFinding.finding) := by
  rw [← SeverityCounts.ofFindings_append]
  exact (SeverityCounts.ofFindings_perm (map_finding_mergeFindings s m)).symm

theorem not_isError_eq (f : Finding) : (!SeverityCounts.isError f) =
    decide (f.severity = some .warning ∨ f.severity = none) := by
  rcases severity : f.severity with _ | _ | _ <;> simp [SeverityCounts.isError, severity]

theorem balances_summaryOf (s m : List Finding) : Balances s m (summaryOf s m) where
  syntactic := streamBalances_of_length (length_view_syntactic s m)
  semantic := streamBalances_of_length (length_view_semantic s m)
  errors := rfl
  warnings := rfl
  merged := combined_eq_merged s m
  total := length_mergeFindings s m
  combined := by
    change (mergeFindings s m).length = _
    rw [summaryOf, SeverityCounts.total_add, SeverityCounts.total_ofFindings,
      SeverityCounts.total_ofFindings, length_mergeFindings]
  errorRecords := by
    change (SeverityCounts.ofFindings s).errors + (SeverityCounts.ofFindings m).errors = _
    rw [SeverityCounts.ofFindings_eq, SeverityCounts.ofFindings_eq]
    exact (countP_mergeFindings SeverityCounts.isError s m).symm
  warningRecords := by
    change (SeverityCounts.ofFindings s).warnings + (SeverityCounts.ofFindings m).warnings = _
    rw [SeverityCounts.ofFindings_eq, SeverityCounts.ofFindings_eq]
    have warnings := countP_mergeFindings (fun f => !SeverityCounts.isError f) s m
    simp only [not_isError_eq] at warnings ⊢
    exact warnings.symm

theorem hintsFor_congr {s s' m m' : List Finding} (same : s = [] ↔ s' = [])
    (types : ∀ t, t ∈ m.map Finding.errorType ↔ t ∈ m'.map Finding.errorType) :
    hintsFor s m = hintsFor s' m' := by
  have empty : s.isEmpty = s'.isEmpty := by
    rw [Bool.eq_iff_iff, List.isEmpty_iff, List.isEmpty_iff, same]
  have occurs (t : String) :
      (m.any fun f => f.errorType == t) = m'.any fun f => f.errorType == t := by
    rw [Bool.eq_iff_iff]
    simpa only [List.any_eq_true, beq_iff_eq, List.mem_map] using types t
  unfold hintsFor
  rw [empty]
  simp only [occurs]

/-- The members before, between and after those that depend on the stages shown. -/
theorem exists_members_errorsDocument (r : ErrorReport) :
    ∃ before between after, ∀ f, (ErrorsDocument.ofReport f r).toJson =
      .object (before ++ ("origin", .string f.name) :: between ++
        ("errors", .list TaggedFinding.toJson (ErrorsDocument.ofReport f r).errors) :: after) := by
  let d := ErrorsDocument.ofReport .all r
  refine ⟨[("status", .string d.status)],
    [("total", .count d.total), ("syntax", d.syntaxCounts.toJson),
      ("semantic", d.semanticCounts.toJson), ("combined", d.combined.toJson)],
    [("syntaxTypes", typeCountsJson d.syntaxTypes),
      ("semanticTypes", typeCountsJson d.semanticTypes), ("hints", .list .string d.hints)],
    fun f => ?_⟩
  cases r with
  | noErrors => rfl
  | report r => rfl

/-- There is nothing to report exactly when both streams are empty, and otherwise the numbers of
the report balance. The hints depend on whether the first stream is empty and on which types occur
in the second, and only two members of a document on the stages that it shows. -/
theorem build_balances (s m : List Finding) :
    (ErrorReport.build s m = .noErrors ↔ s = [] ∧ m = []) ∧
    (¬(s = [] ∧ m = []) → ∃ r, ErrorReport.build s m = .report r ∧ Balances s m r) ∧
    (∀ s' m' r r', ErrorReport.build s m = .report r → ErrorReport.build s' m' = .report r' →
      (s = [] ↔ s' = []) →
      (∀ t, t ∈ m.map Finding.errorType ↔ t ∈ m'.map Finding.errorType) → r.hints = r'.hints) ∧
    ∃ before between after, ∀ f,
      (ErrorsDocument.ofReport f (ErrorReport.build s m)).toJson =
        .object (before ++ ("origin", .string f.name) :: between ++
          ("errors", .list TaggedFinding.toJson
            (ErrorsDocument.ofReport f (ErrorReport.build s m)).errors) :: after) := by
  refine ⟨?_, ?_, ?_, exists_members_errorsDocument _⟩
  · rw [build_eq]
    split
    next none => exact ⟨fun _ => none, fun _ => rfl⟩
    next some => exact ⟨fun report => (by cases report), fun none => (some none).elim⟩
  · intro some
    exact ⟨summaryOf s m, by rw [build_eq, if_neg some], balances_summaryOf s m⟩
  · intro s' m' r r' first second same types
    rw [build_eq] at first second
    split at first
    · cases first
    split at second
    · cases second
    cases first
    cases second
    exact hintsFor_congr same types

/-- One error of the parser, and two mismatches of which one came without a severity. -/
theorem build_balances_mismatches :
    let s : List Finding := [⟨"missing", 2, 1, "MISSING", some .error, .syntactic none none⟩]
    let m : List Finding := [⟨"int", 3, 1, "TYPE_MISMATCH", none, .semantic none none⟩,
      ⟨"string", 1, 1, "TYPE_MISMATCH", some .error, .semantic none none⟩]
    ¬(s = [] ∧ m = []) ∧ m.map Finding.errorType ≠ (m.take 1).map Finding.errorType ∧
      ∃ r r', ErrorReport.build s m = .report r ∧ ErrorReport.build s (m.take 1) = .report r' ∧
        Balances s m r ∧ r.combined = ⟨2, 1⟩ ∧ r.hints = r'.hints := by
  intro s m
  have some : ¬(s = [] ∧ m = []) := by decide
  obtain ⟨-, report, hints, -⟩ := build_balances s m
  obtain ⟨r, built, balances⟩ := report some
  have types (t : String) :
      t ∈ m.map Finding.errorType ↔ t ∈ (m.take 1).map Finding.errorType := by
    simp [m]
  refine ⟨some, by decide, r, summaryOf s (m.take 1), built, rfl, balances, ?_, ?_⟩
  · cases built
    rfl
  · exact hints s (m.take 1) r _ built rfl Iff.rfl types

end AnalysisBrowser
