import AnalysisBrowser.Run.Outcome
import AnalysisBrowser.Proofs.Run.Subject
import AnalysisBrowser.Proofs.Tree.Reads

/-!
# Toggles by parity

Flipping a path flips whether it is expanded and touches no other path. So after any number of
flips in any order a path is expanded as before or the other way round, by whether it was flipped an
even or an odd number of times. A path that leads nowhere is never flipped. What the tree command
shows depends on nothing else about its toggles.
-/
namespace AnalysisBrowser

namespace Session

theorem model_foldl_toggle (s : Session) (toggles : List NodePath) :
    (toggles.foldl toggle s).model = s.model := by
  induction toggles generalizing s with
  | nil => rfl
  | cons p rest ih => exact ih (s.toggle p)

/-- After some flips a path is expanded as before, or the other way round after an odd number. -/
theorem isExpanded_foldl_toggle (s : Session) (toggles : List NodePath) (q : NodePath) :
    (toggles.foldl toggle s).expansion.isExpanded q =
      (s.expansion.isExpanded q ^^ decide (toggles.count q % 2 = 1)) := by
  induction toggles generalizing s with
  | nil => simp
  | cons p rest ih =>
    have step := Expansion.isExpanded_toggle s.expansion p q
    rw [List.foldl_cons, ih]
    change ((s.expansion.toggle p).isExpanded q ^^ _) = _
    rw [step, List.count_cons]
    -- A flip of `q` itself turns both sides over, any other flip neither of them.
    by_cases same : q = p
    · subst same
      rw [if_pos rfl, beq_self_eq_true, if_pos rfl]
      rcases Nat.mod_two_eq_zero_or_one (rest.count q) with even | odd
      · have next : (rest.count q + 1) % 2 = 1 := by omega
        simp [even, next]
      · have next : (rest.count q + 1) % 2 = 0 := by omega
        simp [odd, next]
    · rw [if_neg same, if_neg (by simpa using fun h => same h.symm), Nat.add_zero]

theorem model_flipped (s : Session) (toggles : List NodePath) :
    (s.flipped toggles).model = s.model :=
  model_foldl_toggle s _

theorem isExpanded_flipped (s : Session) (toggles : List NodePath) (q : NodePath) :
    (s.flipped toggles).expansion.isExpanded q =
      (s.expansion.isExpanded q ^^
        ((q.resolve s.model.ast).isSome && decide (toggles.count q % 2 = 1))) := by
  have counted : (toggles.filter fun p => (p.resolve s.model.ast).isSome).count q =
      if (q.resolve s.model.ast).isSome = true then toggles.count q else 0 := by
    split
    · rename_i found
      exact List.count_filter (p := fun p : NodePath => (p.resolve s.model.ast).isSome) found
    · rename_i nowhere
      exact List.count_eq_zero.mpr fun mem => nowhere (List.mem_filter.mp mem).2
  unfold flipped
  rw [isExpanded_foldl_toggle, counted]
  cases (q.resolve s.model.ast).isSome <;> simp

end Session

/-- Two lists of toggles that name each node of a tree equally often, up to an even number. Paths
that lead nowhere do not count. -/
def NodePath.SameParity (ast : Node) (ts us : List NodePath) : Prop :=
  ∀ p : NodePath, (p.resolve ast).isSome = true → ts.count p % 2 = us.count p % 2

theorem Session.isExpanded_flipped_congr {s : Session} {ts us : List NodePath}
    (same : NodePath.SameParity s.model.ast ts us) :
    (s.flipped ts).expansion.isExpanded = (s.flipped us).expansion.isExpanded := by
  funext q
  rw [isExpanded_flipped, isExpanded_flipped]
  by_cases found : (q.resolve s.model.ast).isSome = true
  · rw [same q found]
  · rw [Bool.eq_false_iff.mpr found, Bool.false_and, Bool.false_and]

/-- What the tree command reports of a result. -/
def treeReport (source : Source) (options : TreeOptions) (format : Format) (depth : Nat)
    (model : ResultModel) : Report :=
  let s := ((Session.start model depth).bulk options.bulk).flipped options.toggles
  ⟨Shown.inFormat format source.label (treePage s options.summary)
    (TreeDocument.ofView s.tree s.expansion).toJson, true⟩

theorem Session.model_bulk (s : Session) (bulk : Bulk) : (s.bulk bulk).model = s.model := by
  cases bulk <;> rfl

theorem treeReport_congr {source : Source} {bulk : Bulk} {ts us : List NodePath}
    {depth? : Option Nat} {summary : Bool} {format : Format} {depth : Nat} {model : ResultModel}
    (same : NodePath.SameParity model.ast ts us) :
    treeReport source ⟨bulk, ts, depth?, summary⟩ format depth model =
      treeReport source ⟨bulk, us, depth?, summary⟩ format depth model := by
  -- Paths are looked up in the tree that was loaded, which no bulk choice changes.
  have start : ((Session.start model depth).bulk bulk).model = model := Session.model_bulk _ bulk
  rw [← start] at same
  have expanded := Session.isExpanded_flipped_congr same
  have page (view : TreeView) := treePage_congr expanded view
  have document (view : TreeView) := treeDocument_congr expanded view
  unfold treeReport treePage Session.tree
  simp only [Session.model_flipped, page, document]

/-- Viewing a tree cannot fail, and only the toggles that lead somewhere change what is seen. -/
theorem ends_treeReport {source : Source} {options : TreeOptions} {format : Format} {depth : Nat}
    {model : ResultModel} {t : Trace} {r : Except RunError Report}
    (run : (do
      let session ← openSession model depth
      let session ← toggleAll (session.bulk options.bulk) options.toggles
      let shown := Shown.inFormat format source.label (treePage session options.summary)
        (TreeDocument.ofView session.tree session.expansion).toJson
      return ⟨shown, true⟩ : Run Report).run.Ends t r) :
    r = .ok (treeReport source options format depth model) := by
  obtain ⟨opened, rest, s, rfl, opening, toggling⟩ := Program.ends_lift_bind_iff.mp run
  obtain ⟨toggled, after, s', rfl, toggles, done⟩ := Program.ends_lift_bind_iff.mp toggling
  obtain ⟨_, rfl⟩ := ends_openSession opening
  obtain ⟨_, rfl⟩ := ends_toggleAll toggles
  exact (Program.ends_pure_iff.mp done).2

/-- A run of the tree command finds the configuration, loads the result and reports on it. -/
theorem result_runTree (source : Source) (overrides : Overrides) (options : TreeOptions)
    (m : Machine) :
    ((runTree source overrides options).run.on m).1 =
      match (prepare overrides).run.on m with
      | (.error e, _) => .error e
      | (.ok (config, format), m') =>
        ((loadModel config.analyzer source).run.on m').1.map
          (treeReport source options format (options.depth.getD config.view.expandDepth)) := by
  unfold runTree
  rw [Program.on_exceptBind]
  cases (prepare overrides).run.on m with
  | mk prepared m' =>
    cases prepared with
    | error e => rfl
    | ok both =>
      obtain ⟨config, format⟩ := both
      dsimp only
      rw [Program.on_exceptBind]
      cases (loadModel config.analyzer source).run.on m' with
      | mk loaded m'' =>
        cases loaded with
        | error e => rfl
        | ok model =>
          exact ends_treeReport (Program.ends_on _ m'')

/-- The result that a source gives to a run on a machine. -/
def Source.resultOn (source : Source) (overrides : Overrides) (m : Machine) :
    Except RunError ResultModel :=
  ((do
    let (config, _) ← prepare overrides
    loadModel config.analyzer source : Run ResultModel).run.on m).1

theorem result_runTree_congr {source : Source} {overrides : Overrides} {bulk : Bulk}
    {ts us : List NodePath} {depth : Option Nat} {summary : Bool} {m : Machine}
    (same : ∀ model, source.resultOn overrides m = .ok model →
      NodePath.SameParity model.ast ts us) :
    ((runTree source overrides ⟨bulk, ts, depth, summary⟩).run.on m).1 =
      ((runTree source overrides ⟨bulk, us, depth, summary⟩).run.on m).1 := by
  unfold Source.resultOn at same
  rw [Program.on_exceptBind] at same
  rw [result_runTree, result_runTree]
  cases prepared : (prepare overrides).run.on m with
  | mk both m' =>
    cases both with
    | error e => rfl
    | ok both =>
      rw [prepared] at same
      dsimp only at same ⊢
      cases loaded : ((loadModel both.1.analyzer source).run.on m').1 with
      | error e => rfl
      | ok model => exact congrArg Except.ok (treeReport_congr (same model loaded))

/-- Two invocations print the same on a machine, in colour or without, and exit alike. -/
structure Invocation.AlikeOn (i j : Invocation) (m : Machine) : Prop where
  stdout : (i.on m).1.stdout = (j.on m).1.stdout
  exit : (i.on m).1.exit = (j.on m).1.exit
  printed : ∀ colored, printed colored (i.command.run.run.on m.cleared).1 =
    printed colored (j.command.run.run.on m.cleared).1

theorem Invocation.alikeOn_of_result_eq {i j : Invocation} {m : Machine}
    (same : (i.command.run.run.on m.cleared).1 = (j.command.run.run.on m.cleared).1) :
    i.AlikeOn j m where
  stdout := congrArg (AnalysisBrowser.printed false) same
  exit := congrArg exitCode same
  printed colored := congrArg (AnalysisBrowser.printed colored) same

/-- What the tree command prints depends on the parity of the toggles of each node, and on nothing
else about the toggles: not on their order, not on pairs of them, not on those that lead nowhere. -/
theorem tree_shows_parity_of_toggles (verbosity : Nat) (source : Source) (overrides : Overrides)
    (bulk : Bulk) (depth : Option Nat) (summary : Bool) (m : Machine) :
    let tree : List NodePath → Invocation := fun toggles =>
      ⟨verbosity, .tree source overrides ⟨bulk, toggles, depth, summary⟩⟩
    (∀ ts us, (∀ model, source.resultOn overrides m.cleared = .ok model →
        NodePath.SameParity model.ast ts us) → (tree ts).AlikeOn (tree us) m) ∧
    (∀ ts us, ts.Perm us → (tree ts).AlikeOn (tree us) m) ∧
    (∀ before between after p,
      (tree (before ++ p :: (between ++ p :: after))).AlikeOn
        (tree (before ++ (between ++ after))) m) ∧
    (∀ ts model, source.resultOn overrides m.cleared = .ok model →
      (tree ts).AlikeOn (tree (ts.filter fun p => (p.resolve model.ast).isSome)) m) := by
  intro tree
  have alike (ts us : List NodePath)
      (same : ∀ model, source.resultOn overrides m.cleared = .ok model →
        NodePath.SameParity model.ast ts us) : (tree ts).AlikeOn (tree us) m :=
    Invocation.alikeOn_of_result_eq (result_runTree_congr same)
  refine ⟨alike, ?_, ?_, ?_⟩
  · intro ts us perm
    exact alike ts us fun model _ p _ => by rw [perm.count_eq]
  · intro before between after p
    refine alike _ _ fun model _ q _ => ?_
    simp only [List.count_append, List.count_cons]
    split <;> omega
  · intro ts model loaded
    refine alike ts _ fun model' loaded' p found => ?_
    rw [Except.ok.inj (loaded'.symm.trans loaded)] at found
    rw [List.count_filter (p := fun p : NodePath => (p.resolve model.ast).isSome) found]

/-- A machine with a saved result, whose tree has a root and one child. -/
def savedPair : Machine where
  disk :=
    ⟨[(["r"], .file (Text.toUtf8
      "\x7b\"ast\":\x7b\"type\":\"PROGRAM\",\"children\":[\x7b\x7d]\x7d\x7d"))], []⟩
  userConfig := none
  link := .down "-"
  seen := []
  notes := []

/-- Two toggles of the root and one of a node that is not there change nothing of what is shown. -/
theorem tree_shows_parity_of_toggles_savedPair :
    (∀ model, (Source.saved "r").resultOn ⟨none, none⟩ savedPair.cleared = .ok model →
      NodePath.SameParity model.ast [⟨[7]⟩, .root, ⟨[0]⟩, .root] [⟨[0]⟩]) ∧
    (∃ model, (Source.saved "r").resultOn ⟨none, none⟩ savedPair.cleared = .ok model) ∧
    Invocation.AlikeOn
      ⟨0, .tree (.saved "r") ⟨none, none⟩ ⟨.expandAll, [⟨[7]⟩, .root, ⟨[0]⟩, .root], some 0, true⟩⟩
      ⟨0, .tree (.saved "r") ⟨none, none⟩ ⟨.expandAll, [⟨[0]⟩], some 0, true⟩⟩ savedPair := by
  have loads : (match (Source.saved "r").resultOn ⟨none, none⟩ savedPair.cleared with
      | .ok model => (NodePath.resolve ⟨[7]⟩ model.ast).isNone
      | .error _ => false) = true := by
    decide +kernel
  have parity : ∀ model, (Source.saved "r").resultOn ⟨none, none⟩ savedPair.cleared = .ok model →
      NodePath.SameParity model.ast [⟨[7]⟩, .root, ⟨[0]⟩, .root] [⟨[0]⟩] := by
    intro model loaded p found
    rw [loaded] at loads
    have other : (⟨[7]⟩ : NodePath) ≠ p := by
      intro same
      rw [← same, Option.isSome_iff_ne_none] at found
      exact found (Option.isNone_iff_eq_none.mp loads)
    simp only [List.count_cons, List.count_nil, beq_iff_eq, if_neg other]
    split <;> split <;> omega
  refine ⟨parity, ?_, ?_⟩
  · cases loaded : (Source.saved "r").resultOn ⟨none, none⟩ savedPair.cleared with
    | ok model => exact ⟨model, rfl⟩
    | error e =>
      rw [loaded] at loads
      cases loads
  · exact (tree_shows_parity_of_toggles 0 (.saved "r") ⟨none, none⟩ .expandAll (some 0) true
      savedPair).1 _ _ parity

end AnalysisBrowser
