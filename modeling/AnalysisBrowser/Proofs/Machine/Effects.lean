import AnalysisBrowser.Run.Failure
import AnalysisBrowser.Machine.State
import AnalysisBrowser.Proofs.Machine.Directories

/-!
# What programs do to disks

Whether a program can ask a question at all is told by the program, whatever the answers are. A
machine that is asked nothing but to look keeps its disk as it is, one that is asked for directories
has nothing else that is new, and no question whatever takes anything away.
-/
namespace AnalysisBrowser

/-- A question that only looks at files. -/
def Query.OnlyLooks : Query → Prop
  | .makeDirectory _ => False
  | .write _ _ => False
  | _ => True

/-- A question that leaves all files as they are. -/
def Query.SparesFiles : Query → Prop
  | .write _ _ => False
  | _ => True

theorem Query.OnlyLooks.sparesFiles {q : Query} (looks : q.OnlyLooks) : q.SparesFiles := by
  cases q with
  | write path content => exact looks
  | _ => trivial

theorem Query.onlyLooks_or_changes (q : Query) :
    q.OnlyLooks ∨ (∃ path, q = .makeDirectory path) ∨ ∃ path content, q = .write path content := by
  cases q with
  | makeDirectory path => exact .inr (.inl ⟨path, rfl⟩)
  | write path content => exact .inr (.inr ⟨path, content, rfl⟩)
  | _ => exact .inl trivial

namespace Program

variable {α β ε : Type} {allowed : Query → Prop}

/-- Whatever it is answered, a program asks questions of one kind only. -/
def AsksOnly (allowed : Query → Prop) : Program α → Prop
  | .done _ => True
  | .ask q next => allowed q ∧ ∀ answer, (next answer).AsksOnly allowed

theorem asksOnly_all (p : Program α) : p.AsksOnly fun _ => True := by
  induction p with
  | done a => trivial
  | ask q next ih => exact ⟨trivial, ih⟩

theorem AsksOnly.bind {p : Program α} {k : α → Program β} (first : p.AsksOnly allowed)
    (next : ∀ a, (k a).AsksOnly allowed) : (p >>= k).AsksOnly allowed := by
  change (p.bind k).AsksOnly allowed
  induction p with
  | done a => exact next a
  | ask q onward ih => exact ⟨first.1, fun answer => ih answer (first.2 answer)⟩

theorem asksOnly_query {q : Query} (may : allowed q) : (query q).AsksOnly allowed :=
  ⟨may, fun _ => trivial⟩

theorem asksOnly_note (level : NoteLevel) (area : NoteArea) (text : String) :
    (note level area text).AsksOnly Query.OnlyLooks :=
  asksOnly_query trivial

theorem AsksOnly.exceptBind {x : ExceptT ε Program α} {f : α → ExceptT ε Program β}
    (first : x.run.AsksOnly allowed) (next : ∀ a, (f a).run.AsksOnly allowed) :
    (x >>= f).run.AsksOnly allowed := by
  refine AsksOnly.bind first fun result => ?_
  cases result with
  | ok a => exact next a
  | error e => trivial

theorem AsksOnly.lift {p : Program α} (asks : p.AsksOnly allowed) :
    (liftM p : ExceptT ε Program α).run.AsksOnly allowed :=
  AsksOnly.bind asks fun _ => trivial

theorem AsksOnly.liftBind {p : Program α} {f : α → ExceptT ε Program β}
    (first : p.AsksOnly allowed) (next : ∀ a, (f a).run.AsksOnly allowed) :
    ((liftM p : ExceptT ε Program α) >>= f).run.AsksOnly allowed :=
  AsksOnly.exceptBind first.lift next

/-- What every step does to a disk, all of them together do. -/
theorem on_related {R : Disk → Disk → Prop} (refl : ∀ d, R d d)
    (trans : ∀ d d' d'', R d d' → R d' d'' → R d d'')
    (step : ∀ (m : Machine) (q : Query), allowed q → R m.disk (m.answer q).2.disk)
    {p : Program α} (asks : p.AsksOnly allowed) (m : Machine) : R m.disk (p.on m).2.disk := by
  induction p generalizing m with
  | done a => exact refl m.disk
  | ask q next ih =>
    exact trans _ _ _ (step m q asks.1) (ih (m.answer q).1 (asks.2 _) (m.answer q).2)

end Program

namespace Machine

theorem disk_send (m : Machine) (r : Request) : (m.send r).2.disk = m.disk := by
  unfold send
  dsimp only
  split <;> rfl

theorem disk_answer {q : Query} (looks : q.OnlyLooks) (m : Machine) :
    (m.answer q).2.disk = m.disk := by
  cases q with
  | makeDirectory path => exact looks.elim
  | write path content => exact looks.elim
  | exchange r => exact m.disk_send r
  | exchangeBoth r s => exact ((m.send r).2.disk_send s).trans (m.disk_send r)
  | _ => rfl

theorem grows_answer {q : Query} (spares : q.SparesFiles) (m : Machine) :
    m.disk.Grows (m.answer q).2.disk := by
  rcases q.onlyLooks_or_changes with looks | ⟨path, rfl⟩ | ⟨path, content, rfl⟩
  · rw [disk_answer looks]
    exact .refl m.disk
  · change m.disk.Grows (m.change (m.disk.makeDirectory path)).2.disk
    cases made : m.disk.makeDirectory path with
    | ok d => exact .makeDirectory made
    | error e => exact .refl m.disk
  · exact spares.elim

theorem keeps_answer (q : Query) (m : Machine) : m.disk.Keeps (m.answer q).2.disk := by
  rcases q.onlyLooks_or_changes with looks | ⟨path, rfl⟩ | ⟨path, content, rfl⟩
  · exact (grows_answer looks.sparesFiles m).keeps
  · have spares : (Query.makeDirectory path).SparesFiles := trivial
    exact (grows_answer spares m).keeps
  · change m.disk.Keeps (m.change (m.disk.write path content)).2.disk
    cases written : m.disk.write path content with
    | ok d => exact .write written
    | error e => exact .refl m.disk

end Machine

namespace Program

variable {α : Type}

theorem disk_on {p : Program α} (looks : p.AsksOnly Query.OnlyLooks) (m : Machine) :
    (p.on m).2.disk = m.disk :=
  on_related (R := fun d d' => d' = d) (fun _ => rfl) (fun _ _ _ first second => second.trans first)
    (fun m _ look => m.disk_answer look) looks m

theorem grows_on {p : Program α} (spares : p.AsksOnly Query.SparesFiles) (m : Machine) :
    m.disk.Grows (p.on m).2.disk :=
  on_related Disk.Grows.refl (fun _ _ _ => .trans) (fun m _ may => m.grows_answer may) spares m

/-- No program takes anything off a disk. -/
theorem keeps_on (p : Program α) (m : Machine) : m.disk.Keeps (p.on m).2.disk :=
  on_related Disk.Keeps.refl (fun _ _ _ => .trans) (fun m q _ => m.keeps_answer q)
    p.asksOnly_all m

end Program

end AnalysisBrowser
