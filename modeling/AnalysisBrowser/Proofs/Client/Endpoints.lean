import Mathlib.Data.List.DropRight
import AnalysisBrowser.Config

/-!
# Endpoints

An address may end with slashes and a path may begin with some. None of them shows in an endpoint,
which has one slash where the two meet. A scheme ends with a slash too, so an address that is still
behind its scheme when its slashes are gone has more than the scheme.
-/
namespace AnalysisBrowser

/-- `n` slashes. -/
def slashes (n : Nat) : String := String.ofList (List.replicate n '/')

theorem toList_slashes (n : Nat) : (slashes n).toList = List.replicate n '/' :=
  String.toList_ofList

theorem all_slashes (n : Nat) : ∀ c ∈ (slashes n).toList, (c == '/') = true := by
  intro c mem
  rw [toList_slashes] at mem
  exact beq_iff_eq.mpr (List.eq_of_mem_replicate mem)

theorem slashes_of_all {cs : List Char} (all : ∀ c ∈ cs, (c == '/') = true) :
    cs = (slashes cs.length).toList := by
  rw [toList_slashes]
  exact List.eq_replicate_iff.mpr ⟨rfl, fun c mem => beq_iff_eq.mp (all c mem)⟩

/-- A text with slashes at its end, and what stands before them. -/
structure TrimsSlashes (s t : String) : Prop where
  slashes : ∃ n, s = t ++ slashes n
  last : t.toList.getLast? ≠ some '/'

/-- A text with slashes at its beginning, and what stands behind them. -/
structure DropsSlashes (s t : String) : Prop where
  slashes : ∃ n, s = slashes n ++ t
  first : t.toList.head? ≠ some '/'

namespace AnalyzerConfig

theorem toList_trimSlashes (s : String) :
    (trimSlashes s).toList = s.toList.rdropWhile (· == '/') :=
  String.toList_ofList

theorem toList_dropSlashes (s : String) :
    (dropSlashes s).toList = s.toList.dropWhile (· == '/') :=
  String.toList_ofList

theorem trimsSlashes_trimSlashes (s : String) : TrimsSlashes s (trimSlashes s) where
  slashes := by
    have behind : ∀ c ∈ s.toList.rtakeWhile (· == '/'), (c == '/') = true :=
      fun c => List.mem_rtakeWhile_imp
    refine ⟨(s.toList.rtakeWhile (· == '/')).length, String.toList_injective ?_⟩
    rw [String.toList_append, toList_trimSlashes, ← slashes_of_all behind,
      List.rdropWhile_append_rtakeWhile]
  last := by
    rw [toList_trimSlashes]
    intro last
    obtain ⟨nonempty, same⟩ := List.mem_getLast?_eq_getLast (Option.mem_def.mpr last)
    have stops := List.rdropWhile_last_not _ _ nonempty
    rw [← same] at stops
    exact stops rfl

theorem dropsSlashes_dropSlashes (s : String) : DropsSlashes s (dropSlashes s) where
  slashes := by
    have before : ∀ c ∈ s.toList.takeWhile (· == '/'), (c == '/') = true :=
      fun c => List.mem_takeWhile_imp
    refine ⟨(s.toList.takeWhile (· == '/')).length, String.toList_injective ?_⟩
    rw [String.toList_append, toList_dropSlashes, ← slashes_of_all before,
      List.takeWhile_append_dropWhile]
  first := by
    rw [toList_dropSlashes]
    intro first
    have stops := List.head?_dropWhile_not (· == '/') s.toList
    rw [first] at stops
    exact absurd stops (by decide)

theorem dropSlashes_slashes_append (n : Nat) (s : String) :
    dropSlashes (slashes n ++ s) = dropSlashes s := by
  refine String.toList_injective ?_
  rw [toList_dropSlashes, String.toList_append, List.dropWhile_append_of_pos (all_slashes n),
    toList_dropSlashes]

theorem trimSlashes_append_slashes (s : String) (n : Nat) :
    trimSlashes (s ++ slashes n) = trimSlashes s := by
  refine String.toList_injective ?_
  have reversed : ∀ c ∈ (slashes n).toList.reverse, (c == '/') = true :=
    fun c mem => all_slashes n c (List.mem_reverse.mp mem)
  rw [toList_trimSlashes, toList_trimSlashes, String.toList_append, List.rdropWhile,
    List.reverse_append, List.dropWhile_append_of_pos reversed, List.rdropWhile]

/-- The address that is set, or else the one that is used then. -/
def address (c : AnalyzerConfig) : String := c.baseUrlSetting.getD defaultBaseUrl

/-- The settings with more slashes at the end of the address. -/
def withSlashes (c : AnalyzerConfig) (n : Nat) : AnalyzerConfig :=
  { c with baseUrlSetting := some (c.address ++ slashes n) }

theorem baseUrl_withSlashes (c : AnalyzerConfig) (n : Nat) :
    (c.withSlashes n).baseUrl = c.baseUrl :=
  trimSlashes_append_slashes c.address n

theorem endpoint_withSlashes (c : AnalyzerConfig) (n : Nat) (path : String) :
    (c.withSlashes n).endpoint path = c.endpoint path := by
  rw [endpoint, baseUrl_withSlashes, endpoint]

theorem endpoint_slashes_append (c : AnalyzerConfig) (n : Nat) (path : String) :
    c.endpoint (slashes n ++ path) = c.endpoint path := by
  rw [endpoint, dropSlashes_slashes_append, endpoint]

end AnalyzerConfig

namespace Config

/-- An address that begins with a scheme and goes on behind it. -/
def GoesBeyondScheme (url : String) : Prop :=
  ∃ scheme ∈ ["http://", "https://"], scheme.toList <+: url.toList ∧ scheme.length < url.length

theorem isReachable_iff {url : String} :
    isReachable url = true ↔ ∃ scheme ∈ ["http://", "https://"], scheme.toList <+: url.toList := by
  simp only [isReachable, String.isPrefixOf, Bool.or_eq_true, String.startsWith_string_iff,
    List.mem_cons, List.not_mem_nil, or_false, exists_eq_or_imp, exists_eq_left]

theorem goesBeyondScheme_of_isReachable {url : String} (reachable : isReachable url = true)
    (last : url.toList.getLast? ≠ some '/') : GoesBeyondScheme url := by
  obtain ⟨scheme, known, begins⟩ := isReachable_iff.mp reachable
  refine ⟨scheme, known, begins, ?_⟩
  -- The address is not the scheme alone, which ends with a slash.
  have ends : ∀ s ∈ ["http://", "https://"], s.toList.getLast? = some '/' := by decide
  have other : scheme.toList ≠ url.toList := by
    intro same
    exact last (same ▸ ends scheme known)
  rw [← String.length_toList, ← String.length_toList]
  have bound := begins.length_le
  have apart : scheme.toList.length ≠ url.toList.length := fun same =>
    other (begins.eq_of_length same)
  omega

theorem validate_eq_none_iff {c : Config} :
    c.validate = none ↔ isReachable c.analyzer.baseUrl = true ∧
      c.analyzer.timeoutSetting ≠ some 0 ∧ (c.view.format = "pretty" ∨ c.view.format = "json") := by
  simp only [validate, ite_eq_iff, reduceCtorEq, and_false, false_or, and_true, Bool.not_eq_true',
    Bool.not_eq_false, Bool.and_eq_true, decide_eq_true_eq, not_and_or, ne_eq, not_not]

/-- The settings with more slashes at the end of the address. -/
def withSlashes (c : Config) (n : Nat) : Config :=
  { c with analyzer := c.analyzer.withSlashes n }

theorem validate_withSlashes (c : Config) (n : Nat) : (c.withSlashes n).validate = c.validate := by
  simp only [validate, withSlashes, AnalyzerConfig.baseUrl_withSlashes]
  rfl

/-- The endpoints of settings that are accepted are their address without the slashes at its end, a
slash, and the path without the slashes at its beginning; the address begins with a scheme and goes
on behind it. Slashes at the end of the address or at the beginning of the path change nothing,
whether the settings are accepted or not. -/
theorem endpoint_joins (c : Config) (path : String) :
    (c.validate = none → TrimsSlashes c.analyzer.address c.analyzer.baseUrl ∧
      GoesBeyondScheme c.analyzer.baseUrl ∧
      ∃ rest, DropsSlashes path rest ∧
        c.analyzer.endpoint path = c.analyzer.baseUrl ++ "/" ++ rest) ∧
    (∀ n, (c.withSlashes n).validate = c.validate ∧
      (c.withSlashes n).analyzer.endpoint path = c.analyzer.endpoint path) ∧
    ∀ n, c.analyzer.endpoint (slashes n ++ path) = c.analyzer.endpoint path := by
  refine ⟨fun accepted => ?_, fun n => ⟨validate_withSlashes c n, ?_⟩, fun n => ?_⟩
  · have trims := AnalyzerConfig.trimsSlashes_trimSlashes c.analyzer.address
    have reachable := (validate_eq_none_iff.mp accepted).1
    exact ⟨trims, goesBeyondScheme_of_isReachable reachable trims.last,
      AnalyzerConfig.dropSlashes path, AnalyzerConfig.dropsSlashes_dropSlashes path, rfl⟩
  · exact AnalyzerConfig.endpoint_withSlashes c.analyzer n path
  · exact AnalyzerConfig.endpoint_slashes_append c.analyzer n path

/-- An address that ends with slashes, joined to a path that begins with some. -/
theorem endpoint_joins_manySlashes :
    let c : Config := ⟨⟨some "https://host///", none⟩, .unset⟩
    c.validate = none ∧ c.analyzer.endpoint "//syntax/health" = "https://host/syntax/health" ∧
      TrimsSlashes "https://host///" c.analyzer.baseUrl ∧ GoesBeyondScheme c.analyzer.baseUrl ∧
      ∃ rest, DropsSlashes "//syntax/health" rest ∧
        c.analyzer.endpoint "//syntax/health" = c.analyzer.baseUrl ++ "/" ++ rest := by
  intro c
  have accepted : c.validate = none := by
    refine validate_eq_none_iff.mpr ⟨isReachable_iff.mpr ⟨"https://", ?_, ?_⟩, ?_, .inl rfl⟩
    · exact List.mem_cons_of_mem _ List.mem_cons_self
    · decide
    · decide
  have joined : c.analyzer.endpoint "//syntax/health" = "https://host/syntax/health" := by decide
  exact ⟨accepted, joined, (endpoint_joins c "//syntax/health").1 accepted⟩

end Config

end AnalysisBrowser
