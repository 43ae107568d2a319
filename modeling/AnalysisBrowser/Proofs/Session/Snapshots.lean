import AnalysisBrowser.Proofs.Tree.Cells
import AnalysisBrowser.Session
import Mathlib.Data.List.DropRight

/-!
# Sessions from one result to the next

A session lives through many results. A new one resets the expansion to a fresh one of the same
depth, so a history is as good as its part behind the last new result: the session that it leads to
is the one that starts with that result and goes through that part alone. The induction is over the
history from its end, since the last new result is looked for from there.
-/
namespace AnalysisBrowser.Session

/-- One thing that is done to a session. -/
inductive Operation where
  | toggle (p : NodePath)
  | expandAll
  | collapseAll
  | replace (m : ResultModel)

namespace Operation

/-- The session after an operation. -/
def apply (s : Session) : Operation → Session
  | .toggle p => s.toggle p
  | .expandAll => s.expandAll
  | .collapseAll => s.collapseAll
  | .replace m => s.replace m

/-- The result that an operation installs. -/
def installed? : Operation → Option ResultModel
  | .replace m => some m
  | _ => none

/-- Whether an operation leaves the result as it is. -/
def keepsResult (op : Operation) : Bool := op.installed?.isNone

/-- What an operation does to the expansion of a tree. A new result resets it. -/
def onExpansion (tree : Node) : Operation → Expansion.Operation
  | .toggle p => .toggle p
  | .expandAll => .expandAll tree
  | .collapseAll => .collapseAll tree
  | .replace _ => .reset

end Operation

/-- The session after a history. -/
def run (s : Session) (history : List Operation) : Session := history.foldl Operation.apply s

/-- The result that is installed last, where `first` is the one at the beginning. -/
def lastInstalled (first : ResultModel) (history : List Operation) : ResultModel :=
  (history.filterMap Operation.installed?).getLastD first

/-- The part of a history behind the last new result. -/
def sinceInstalled (history : List Operation) : List Operation :=
  history.rtakeWhile Operation.keepsResult

theorem expansion_apply (s : Session) (op : Operation) :
    (op.apply s).expansion = (op.onExpansion s.model.ast).apply s.expansion := by
  cases op <;> rfl

theorem model_apply (s : Session) (op : Operation) :
    (op.apply s).model = op.installed?.getD s.model := by
  cases op <;> rfl

theorem expandDepth_apply (s : Session) (op : Operation) :
    (op.apply s).expansion.expandDepth = s.expansion.expandDepth := by
  rw [expansion_apply, Expansion.expandDepth_apply]

theorem run_append (s : Session) (first second : List Operation) :
    s.run (first ++ second) = (s.run first).run second :=
  List.foldl_append

theorem run_concat (s : Session) (history : List Operation) (op : Operation) :
    s.run (history ++ [op]) = op.apply (s.run history) := by
  rw [run_append]
  rfl

theorem expandDepth_run (s : Session) (history : List Operation) :
    (s.run history).expansion.expandDepth = s.expansion.expandDepth := by
  induction history generalizing s with
  | nil => rfl
  | cons op rest ih => exact (ih (op.apply s)).trans (expandDepth_apply s op)

theorem lastInstalled_concat (first : ResultModel) (history : List Operation) (op : Operation) :
    lastInstalled first (history ++ [op]) = op.installed?.getD (lastInstalled first history) := by
  rw [lastInstalled, lastInstalled, List.filterMap_append]
  cases op <;> simp [Operation.installed?]

theorem sinceInstalled_concat (history : List Operation) (op : Operation) :
    sinceInstalled (history ++ [op]) =
      if op.keepsResult then sinceInstalled history ++ [op] else [] :=
  List.rtakeWhile_concat _ _ _

theorem model_run (m : ResultModel) (n : Nat) (history : List Operation) :
    ((start m n).run history).model = lastInstalled m history := by
  induction history using List.reverseRecOn with
  | nil => rfl
  | append_singleton history op ih => rw [run_concat, model_apply, ih, lastInstalled_concat]

/-- A new result starts a fresh session, whatever was done before. -/
theorem apply_replace_run (m r : ResultModel) (n : Nat) (history : List Operation) :
    Operation.apply ((start m n).run history) (.replace r) = start r n := by
  change start r ((start m n).run history).expansion.expandDepth = start r n
  rw [expandDepth_run]
  rfl

/-- A history is as good as its part behind the last new result. -/
theorem run_eq_run_sinceInstalled (m : ResultModel) (n : Nat) (history : List Operation) :
    (start m n).run history =
      (start (lastInstalled m history) n).run (sinceInstalled history) := by
  induction history using List.reverseRecOn with
  | nil => rfl
  | append_singleton history op ih =>
    rw [run_concat, lastInstalled_concat, sinceInstalled_concat]
    cases op with
    | replace r => exact apply_replace_run m r n history
    | _ =>
      rw [ih]
      exact (run_concat _ _ _).symm

/-- A path has a flag when it was written behind the last new result, in the tree of that result. -/
theorem isSome_flag?_run (m : ResultModel) (n : Nat) (history : List Operation) (q : NodePath) :
    (((start m n).run history).expansion.flag? q).isSome = (sinceInstalled history).any fun op =>
      (op.onExpansion (lastInstalled m history).ast).touches q := by
  induction history using List.reverseRecOn with
  | nil => rfl
  | append_singleton history op ih =>
    rw [run_concat, expansion_apply, Expansion.isSome_flag?_apply, ih, model_run,
      lastInstalled_concat, sinceInstalled_concat]
    cases op with
    | replace r => rfl
    | _ =>
      rw [if_pos (by rfl), List.any_append, List.any_cons, List.any_nil, Bool.or_false]
      rfl

theorem run_replace (m r : ResultModel) (n : Nat) (before later : List Operation) :
    (start m n).run (before ++ .replace r :: later) = (start r n).run later := by
  rw [run_append, ← apply_replace_run m r n before]
  rfl

/-- Through any history a session keeps its depth, holds the result that was installed last, and is
the session that starts with that result and goes through what was done since; every flag was
written since. So two histories that end in the same new result and the same later operations lead
to one session, whatever came before. -/
theorem run_forgets_earlier_results (m : ResultModel) (n : Nat) (history : List Operation) :
    ((start m n).run history).expansion.expandDepth = n ∧
    ((start m n).run history).model = lastInstalled m history ∧
    (start m n).run history =
      (start (lastInstalled m history) n).run (sinceInstalled history) ∧
    (∀ q, (((start m n).run history).expansion.flag? q).isSome =
      (sinceInstalled history).any fun op =>
        (op.onExpansion (lastInstalled m history).ast).touches q) ∧
    (∀ r later, (start m n).run (history ++ .replace r :: later) = (start r n).run later) ∧
    ∀ m' r other later, (start m n).run (history ++ .replace r :: later) =
      (start m' n).run (other ++ .replace r :: later) := by
  refine ⟨expandDepth_run _ _, model_run m n history, run_eq_run_sinceInstalled m n history,
    isSome_flag?_run m n history, fun r later => run_replace m r n history later, ?_⟩
  intro m' r other later
  rw [run_replace, run_replace]

end AnalysisBrowser.Session
