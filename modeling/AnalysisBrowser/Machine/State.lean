import AnalysisBrowser.Machine.Program

/-!
# A model of a machine

The surroundings of a run as a value: a disk, the user's own settings file, and a link that decides
how each exchange with the analyzer ends. The machine keeps the notes of a run and the requests
that the analyzer has seen.
-/
namespace AnalysisBrowser

/-- How exchanges end. -/
structure Link where
  exchange : Request → Exchange
  /-- Whether the second of two requests under way together ends first. -/
  overtakes : Request → Request → Bool

/-- The link of a machine that reaches nothing. -/
def Link.down (reason : String) : Link :=
  ⟨fun _ => .unreachable (.failed reason), fun _ _ => false⟩

/-- A machine and what runs have left on it. -/
structure Machine where
  disk : Disk
  userConfig : Option String
  link : Link
  /-- The requests that the analyzer has seen, in the order of sending. -/
  seen : List Request
  notes : List Note

namespace Machine

/-- Changes the disk, unless that is refused. -/
def change (m : Machine) : Except FileError Disk → Except FileError Unit × Machine
  | .ok disk => (.ok (), { m with disk })
  | .error e => (.error e, m)

def send (m : Machine) (r : Request) : Exchange × Machine :=
  let exchange := m.link.exchange r
  (exchange, if exchange.isSeen then { m with seen := m.seen ++ [r] } else m)

/-- The answer of a machine to a question, and the machine afterwards. -/
def answer (m : Machine) : (q : Query) → q.Answer × Machine
  | .isPresent path => (m.disk.isPresent path, m)
  | .isDirectory path => (m.disk.isDirectory path, m)
  | .read path => (m.disk.read path, m)
  | .makeDirectory path => m.change (m.disk.makeDirectory path)
  | .write path content => m.change (m.disk.write path content)
  | .userConfig => (m.userConfig, m)
  | .exchange r => m.send r
  | .exchangeBoth r s =>
    let first := m.send r
    let second := first.2.send s
    (⟨first.1, second.1, m.link.overtakes r s⟩, second.2)
  | .note n => ((), { m with notes := m.notes ++ [n] })

end Machine

/-- The result of a program on a machine, and the machine afterwards. -/
def Program.on {α : Type} : Program α → Machine → α × Machine
  | .done a, m => (a, m)
  | .ask q next, m =>
    let step := m.answer q
    (next step.1).on step.2

namespace Program

variable {α β : Type}

/-- Running a program on a machine is playing it against the machine's answers. -/
theorem execute_eq_on (p : Program α) (m : Machine) :
    (p.execute (m := StateM Machine) fun q s => s.answer q) m = p.on m := by
  induction p generalizing m with
  | done a => rfl
  | ask q next ih => exact ih _ _

theorem on_bind (p : Program α) (k : α → Program β) (m : Machine) :
    (p.bind k).on m = (k (p.on m).1).on (p.on m).2 := by
  induction p generalizing m with
  | done a => rfl
  | ask q next ih => exact ih _ _

end Program

end AnalysisBrowser
