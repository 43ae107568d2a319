import AnalysisBrowser.Proofs.Diagnostics.Accounts

/-!
# Counts by type

The types of a stream of findings are grouped in one pass with an index. However long the stream is,
the index leads to the right entry, and the pass ends with the one grouping of the types that there
is. The counts of the merged list are the sums of the counts of both streams, since a count does not
see in which order the occurrences came.
-/
namespace AnalysisBrowser

theorem count_commonTypes (stream : List Finding) (type : String) :
    (commonTypes stream).count type = (stream.map Finding.errorType).count type := by
  rw [commonTypes_eq_ofList, Tally.count_ofList]

theorem count_commonTypes_mergeFindings (s m : List Finding) (type : String) :
    (commonTypes ((mergeFindings s m).map TaggedFinding.finding)).count type =
      (commonTypes s).count type + (commonTypes m).count type := by
  have types := (map_finding_mergeFindings s m).map Finding.errorType
  simp only [count_commonTypes]
  rw [types.count_eq, List.map_append, List.count_append]

/-- At every point of a stream the types that have come are counted without fail, the index leads
to the entry of each of them, and the pass goes on from there. The counts are the one grouping of the
types of the stream. Tags change nothing in them, and those of merged streams are sums. The kinds of
tokens are grouped as well. -/
theorem commonTypes_groups :
    (∀ sofar later : List Finding,
      ∃ t, IndexedTally.ofList? (sofar.map Finding.errorType) = some t ∧
        IndexedTally.ofList? ((sofar ++ later).map Finding.errorType) =
          (later.map Finding.errorType).foldlM IndexedTally.add? t ∧
        t.Points ∧ t.entries = commonTypes sofar) ∧
    (∀ (stream : List Finding) (u : Tally String),
      u.Groups (stream.map Finding.errorType) ↔ u = commonTypes stream) ∧
    (∀ (origin : Origin) (stream : List Finding),
      commonTypes ((tag origin stream).map TaggedFinding.finding) = commonTypes stream) ∧
    (∀ (s m : List Finding) (type : String),
      (commonTypes ((mergeFindings s m).map TaggedFinding.finding)).count type =
        (commonTypes s).count type + (commonTypes m).count type) ∧
    ∀ (tokens : List Token) (u : Tally TokenType),
      u.Groups (tokens.map Token.type) ↔ u = Token.countByType tokens := by
  refine ⟨fun sofar later => ?_, fun stream u => ?_, fun origin stream => ?_,
    count_commonTypes_mergeFindings, fun tokens u => Tally.groups_iff⟩
  · obtain ⟨t, counted, entries, points⟩ :=
      IndexedTally.exists_ofList? (sofar.map Finding.errorType)
    have onward := IndexedTally.ofList?_append counted (later.map Finding.errorType)
    rw [← List.map_append] at onward
    rw [commonTypes_eq_ofList]
    exact ⟨t, counted, onward, points, entries⟩
  · rw [commonTypes_eq_ofList]
    exact Tally.groups_iff
  · rw [map_finding_tag]

end AnalysisBrowser
