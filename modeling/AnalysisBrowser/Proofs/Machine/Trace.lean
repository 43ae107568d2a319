import AnalysisBrowser.Machine.State

/-!
# Runs in any surroundings

A run of a program is the list of the questions that it asked, each with the answer it was given,
and the result it ended with. Nothing is assumed of the answers, so what holds of every run holds on
every machine, in real surroundings, and where files and servers change while the program runs.

A run of two programs in a row is a run of the first and then one of the second, and the runs of a
program on a machine are among its runs. The link of a machine stays as it is, and what the analyzer
has seen and what was remarked can be read off the run.
-/
namespace AnalysisBrowser

instance decidableEqExcept {ε α : Type} [DecidableEq ε] [DecidableEq α] :
    DecidableEq (Except ε α)
  | .ok a, .ok b => decidable_of_iff (a = b) ⟨congrArg Except.ok, Except.ok.inj⟩
  | .error a, .error b => decidable_of_iff (a = b) ⟨congrArg Except.error, Except.error.inj⟩
  | .ok _, .error _ => isFalse nofun
  | .error _, .ok _ => isFalse nofun

deriving instance DecidableEq for Exchange
deriving instance DecidableEq for Replies
deriving instance DecidableEq for Query

instance (q : Query) : DecidableEq q.Answer :=
  match q with
  | .isPresent _ => inferInstanceAs (DecidableEq Bool)
  | .isDirectory _ => inferInstanceAs (DecidableEq Bool)
  | .read _ => inferInstanceAs (DecidableEq (Except FileError (List UInt8)))
  | .makeDirectory _ => inferInstanceAs (DecidableEq (Except FileError Unit))
  | .write _ _ => inferInstanceAs (DecidableEq (Except FileError Unit))
  | .userConfig => inferInstanceAs (DecidableEq (Option String))
  | .exchange _ => inferInstanceAs (DecidableEq Exchange)
  | .exchangeBoth _ _ => inferInstanceAs (DecidableEq Replies)
  | .note _ => inferInstanceAs (DecidableEq Unit)

/-- A question with the answer that was given. -/
structure Event where
  query : Query
  answer : query.Answer
  deriving DecidableEq

abbrev Trace := List Event

namespace Program

variable {α β ε : Type}

/-- The runs of a program: its questions with some answers, and its result after them. -/
inductive Ends : Program α → Trace → α → Prop
  | done (a : α) : Ends (.done a) [] a
  | ask {q : Query} {next : q.Answer → Program α} {t : Trace} {a : α} (answer : q.Answer)
      (rest : Ends (next answer) t a) : Ends (.ask q next) (⟨q, answer⟩ :: t) a

theorem ends_done_iff {t : Trace} {a b : α} : (Program.done a).Ends t b ↔ t = [] ∧ b = a := by
  constructor
  · intro run
    cases run
    exact ⟨rfl, rfl⟩
  · intro h
    rw [h.1, h.2]
    exact .done a

theorem ends_ask_iff {q : Query} {next : q.Answer → Program α} {t : Trace} {a : α} :
    (Program.ask q next).Ends t a ↔
      ∃ answer rest, t = ⟨q, answer⟩ :: rest ∧ (next answer).Ends rest a := by
  constructor
  · intro run
    cases run with
    | ask answer rest => exact ⟨answer, _, rfl, rest⟩
  · rintro ⟨answer, rest, rfl, run⟩
    exact .ask answer run

theorem ends_query_iff {q : Query} {t : Trace} {a : q.Answer} :
    (query q).Ends t a ↔ t = [⟨q, a⟩] := by
  simp only [query, ends_ask_iff, ends_done_iff]
  constructor
  · rintro ⟨answer, rest, rfl, rfl, rfl⟩
    rfl
  · intro h
    exact ⟨a, [], h, rfl, rfl⟩

/-- A run of two programs in a row is a run of the first followed by a run of the second. -/
theorem ends_bind_iff {p : Program α} {k : α → Program β} {t : Trace} {b : β} :
    (p.bind k).Ends t b ↔
      ∃ before after a, t = before ++ after ∧ p.Ends before a ∧ (k a).Ends after b := by
  -- The first program decides where the run is cut: each of its questions takes one answer.
  induction p generalizing t with
  | done a =>
    constructor
    · intro run
      exact ⟨[], t, a, rfl, .done a, run⟩
    · rintro ⟨before, after, c, rfl, first, second⟩
      have ended := ends_done_iff.mp first
      rw [ended.1, List.nil_append, done_bind, ← ended.2]
      exact second
  | ask q next ih =>
    rw [ask_bind, ends_ask_iff]
    constructor
    · rintro ⟨answer, rest, rfl, run⟩
      have split := (ih answer).mp run
      obtain ⟨before, after, a, rfl, first, second⟩ := split
      exact ⟨⟨q, answer⟩ :: before, after, a, rfl, .ask answer first, second⟩
    · rintro ⟨before, after, a, rfl, first, second⟩
      obtain ⟨answer, rest, rfl, onward⟩ := ends_ask_iff.mp first
      have joined := (ih answer).mpr ⟨rest, after, a, rfl, onward, second⟩
      exact ⟨answer, rest ++ after, rfl, joined⟩

/-- A program that comes to a result or fails goes on only after a result. -/
theorem ends_exceptBind_iff {x : ExceptT ε Program α} {f : α → ExceptT ε Program β} {t : Trace}
    {r : Except ε β} :
    (x >>= f).run.Ends t r ↔
      (∃ before after a, t = before ++ after ∧ x.run.Ends before (.ok a) ∧
        (f a).run.Ends after r) ∨
      ∃ e, x.run.Ends t (.error e) ∧ r = .error e := by
  change (Program.bind x.run (ExceptT.bindCont f)).Ends t r ↔ _
  rw [ends_bind_iff]
  constructor
  · rintro ⟨before, after, result, rfl, first, second⟩
    cases result with
    | ok a => exact .inl ⟨before, after, a, rfl, first, second⟩
    | error e =>
      have ended := ends_done_iff.mp second
      rw [ended.1, List.append_nil]
      exact .inr ⟨e, first, ended.2⟩
  · rintro (⟨before, after, a, rfl, first, second⟩ | ⟨e, first, rfl⟩)
    · exact ⟨before, after, .ok a, rfl, first, second⟩
    · exact ⟨t, [], .error e, (List.append_nil t).symm, first, .done _⟩

theorem ends_ok_bind_iff {x : ExceptT ε Program α} {f : α → ExceptT ε Program β} {t : Trace}
    {b : β} :
    (x >>= f).run.Ends t (.ok b) ↔
      ∃ before after a, t = before ++ after ∧ x.run.Ends before (.ok a) ∧
        (f a).run.Ends after (.ok b) := by
  rw [ends_exceptBind_iff]
  constructor
  · rintro (run | ⟨e, run, same⟩)
    · exact run
    · cases same
  · exact .inl

theorem ends_pure_iff {t : Trace} {a : α} {r : Except ε α} :
    (pure a : ExceptT ε Program α).run.Ends t r ↔ t = [] ∧ r = .ok a :=
  ends_done_iff

theorem ends_mk_iff {t : Trace} {result r : Except ε α} :
    (ExceptT.mk (.done result) : ExceptT ε Program α).run.Ends t r ↔ t = [] ∧ r = result :=
  ends_done_iff

/-- A program that cannot fail ends with a result. -/
theorem ends_lift_iff {p : Program α} {t : Trace} {r : Except ε α} :
    (liftM p : ExceptT ε Program α).run.Ends t r ↔ ∃ a, p.Ends t a ∧ r = .ok a := by
  change (Program.bind p fun a => .done (.ok a)).Ends t r ↔ _
  rw [ends_bind_iff]
  constructor
  · rintro ⟨before, after, a, rfl, first, second⟩
    have ended := ends_done_iff.mp second
    rw [ended.1, List.append_nil]
    exact ⟨a, first, ended.2⟩
  · rintro ⟨a, run, rfl⟩
    exact ⟨t, [], a, (List.append_nil t).symm, run, .done _⟩

theorem ends_lift_bind_iff {p : Program α} {f : α → ExceptT ε Program β} {t : Trace}
    {r : Except ε β} :
    ((liftM p : ExceptT ε Program α) >>= f).run.Ends t r ↔
      ∃ before after a, t = before ++ after ∧ p.Ends before a ∧ (f a).run.Ends after r := by
  rw [ends_exceptBind_iff]
  constructor
  · rintro (⟨before, after, a, rfl, first, second⟩ | ⟨e, first, _⟩)
    · obtain ⟨b, run, same⟩ := ends_lift_iff.mp first
      cases same
      exact ⟨before, after, a, rfl, run, second⟩
    · obtain ⟨b, _, same⟩ := ends_lift_iff.mp first
      cases same
  · rintro ⟨before, after, a, rfl, first, second⟩
    exact .inl ⟨before, after, a, rfl, ends_lift_iff.mpr ⟨a, first, rfl⟩, second⟩

end Program

/-- The remark that a question makes. -/
def Event.note? : Event → Option Note
  | ⟨.note n, _⟩ => some n
  | _ => none

/-- The requests that a question sends. -/
def Event.requests : Event → List Request
  | ⟨.exchange r, _⟩ => [r]
  | ⟨.exchangeBoth r s, _⟩ => [r, s]
  | _ => []

/-- The requests of a question that reached the analyzer. -/
def Event.seen : Event → List Request
  | ⟨.exchange r, exchange⟩ => if exchange.isSeen then [r] else []
  | ⟨.exchangeBoth r s, replies⟩ =>
    (if replies.first.isSeen then [r] else []) ++ (if replies.second.isSeen then [s] else [])
  | _ => []

/-- An exchange that ended as a link decides. -/
def Event.AnsweredBy (link : Link) : Event → Prop
  | ⟨.exchange r, exchange⟩ => exchange = link.exchange r
  | ⟨.exchangeBoth r s, replies⟩ =>
    replies = ⟨link.exchange r, link.exchange s, link.overtakes r s⟩
  | _ => True

namespace Trace

/-- The remarks of a run. -/
def notes (t : Trace) : List Note := t.filterMap Event.note?

/-- The questions of a run that are no remarks, with their answers. -/
def answers (t : Trace) : Trace := t.filter fun e => e.note?.isNone

/-- The last thing that a run came to know. -/
def lastAnswer? (t : Trace) : Option Event := t.answers.getLast?

/-- The requests that a run sends, in order. -/
def requests (t : Trace) : List Request := t.flatMap Event.requests

/-- The requests of a run that reached the analyzer, in order. -/
def seen (t : Trace) : List Request := t.flatMap Event.seen

/-- A run that does nothing but remark. -/
def Quiet (t : Trace) : Prop := ∀ e ∈ t, e.note?.isSome = true

theorem quiet_nil : Quiet [] := fun _ mem => absurd mem List.not_mem_nil

theorem Quiet.append {s t : Trace} (left : s.Quiet) (right : t.Quiet) : Quiet (s ++ t) := by
  intro e mem
  rcases List.mem_append.mp mem with mem | mem
  · exact left e mem
  · exact right e mem

theorem Quiet.answers_eq {t : Trace} (quiet : t.Quiet) : t.answers = [] := by
  unfold answers
  rw [List.filter_eq_nil_iff]
  intro e mem isNone
  have isSome := quiet e mem
  rw [Option.isNone_iff_eq_none.mp isNone] at isSome
  cases isSome

theorem Quiet.requests_eq {t : Trace} (quiet : t.Quiet) : t.requests = [] := by
  unfold requests
  rw [List.flatMap_eq_nil_iff]
  intro e mem
  have isSome := quiet e mem
  unfold Event.note? at isSome
  split at isSome
  · rfl
  · cases isSome

theorem Quiet.seen_eq {t : Trace} (quiet : t.Quiet) : t.seen = [] := by
  unfold seen
  rw [List.flatMap_eq_nil_iff]
  intro e mem
  have isSome := quiet e mem
  unfold Event.note? at isSome
  split at isSome
  · rfl
  · cases isSome

theorem seen_append (s t : Trace) : (s ++ t).seen = s.seen ++ t.seen := List.flatMap_append

theorem answers_append (s t : Trace) : (s ++ t).answers = s.answers ++ t.answers :=
  List.filter_append s t

theorem requests_append (s t : Trace) : (s ++ t).requests = s.requests ++ t.requests :=
  List.flatMap_append

/-- What was known last stays so while nothing but remarks follows. -/
theorem lastAnswer?_append_quiet {s t : Trace} (quiet : t.Quiet) :
    lastAnswer? (s ++ t) = s.lastAnswer? := by
  unfold lastAnswer?
  rw [answers_append, quiet.answers_eq, List.append_nil]

/-- An answer is known last while nothing but remarks follows. -/
theorem lastAnswer?_append_cons {s t : Trace} {e : Event} (answer : e.note? = none)
    (quiet : t.Quiet) : lastAnswer? (s ++ e :: t) = some e := by
  have step : s ++ e :: t = (s ++ [e]) ++ t := by simp
  rw [step, lastAnswer?_append_quiet quiet]
  unfold lastAnswer?
  rw [answers_append]
  simp [answers, answer]

theorem lastAnswer?_append {s t : Trace} {e : Event} (last : t.lastAnswer? = some e) :
    lastAnswer? (s ++ t) = some e := by
  unfold lastAnswer? at last ⊢
  rw [answers_append, List.getLast?_append, last]
  rfl

end Trace

namespace Program

variable {α β ε : Type}

theorem ends_note_iff {level : NoteLevel} {area : NoteArea} {text : String} {t : Trace} {a : Unit} :
    (note level area text).Ends t a ↔ t = [⟨.note ⟨level, area, text⟩, ()⟩] :=
  ends_query_iff

theorem quiet_of_note {level : NoteLevel} {area : NoteArea} {text : String} {t : Trace} {a : Unit}
    (run : (note level area text).Ends t a) : t.Quiet := by
  rw [ends_note_iff.mp run]
  intro e mem
  rw [List.mem_singleton.mp mem]
  rfl

/-- The questions that a program asks on a machine, with the answers of the machine. -/
def events : Program α → Machine → Trace
  | .done _, _ => []
  | .ask q next, m =>
    let step := m.answer q
    ⟨q, step.1⟩ :: (next step.1).events step.2

theorem ends_on (p : Program α) (m : Machine) : p.Ends (p.events m) (p.on m).1 := by
  induction p generalizing m with
  | done a => exact .done a
  | ask q next ih => exact .ask _ (ih _ _)

theorem on_exceptBind (x : ExceptT ε Program α) (f : α → ExceptT ε Program β) (m : Machine) :
    (x >>= f).run.on m =
      match x.run.on m with
      | (.ok a, m') => (f a).run.on m'
      | (.error e, m') => (.error e, m') := by
  change (Program.bind x.run (ExceptT.bindCont f)).on m = _
  rw [on_bind]
  cases x.run.on m with
  | mk result m' => cases result <;> rfl

end Program

namespace Machine

/-- A machine without anything that runs have left on it. -/
def cleared (m : Machine) : Machine := { m with notes := [], seen := [] }

@[simp] theorem notes_change (m : Machine) (result : Except FileError Disk) :
    (m.change result).2.notes = m.notes := by
  cases result <;> rfl

@[simp] theorem link_change (m : Machine) (result : Except FileError Disk) :
    (m.change result).2.link = m.link := by
  cases result <;> rfl

@[simp] theorem seen_change (m : Machine) (result : Except FileError Disk) :
    (m.change result).2.seen = m.seen := by
  cases result <;> rfl

@[simp] theorem exchange_send (m : Machine) (r : Request) :
    (m.send r).1 = m.link.exchange r := rfl

@[simp] theorem notes_send (m : Machine) (r : Request) : (m.send r).2.notes = m.notes := by
  unfold send
  dsimp only
  split <;> rfl

@[simp] theorem link_send (m : Machine) (r : Request) : (m.send r).2.link = m.link := by
  unfold send
  dsimp only
  split <;> rfl

theorem seen_send (m : Machine) (r : Request) :
    (m.send r).2.seen = m.seen ++ if (m.link.exchange r).isSeen then [r] else [] := by
  unfold send
  dsimp only
  split
  · rfl
  · exact (List.append_nil _).symm

theorem seen_answer (m : Machine) (q : Query) :
    (m.answer q).2.seen = m.seen ++ Event.seen ⟨q, (m.answer q).1⟩ := by
  cases q with
  | exchange r => exact m.seen_send r
  | exchangeBoth r s =>
    have first := m.seen_send r
    have second := (m.send r).2.seen_send s
    rw [first, List.append_assoc] at second
    exact second
  | _ => simp [answer, Event.seen]

theorem notes_answer (m : Machine) (q : Query) :
    (m.answer q).2.notes = m.notes ++ (Event.note? ⟨q, (m.answer q).1⟩).toList := by
  cases q with
  | note n => rfl
  | _ => simp [answer, Event.note?]

theorem link_answer (m : Machine) (q : Query) : (m.answer q).2.link = m.link := by
  cases q <;> simp [answer]

theorem answeredBy_answer (m : Machine) (q : Query) :
    Event.AnsweredBy m.link ⟨q, (m.answer q).1⟩ := by
  cases q <;> simp [answer, Event.AnsweredBy]

end Machine

namespace Program

variable {α : Type}

/-- A machine keeps the remarks of a run. -/
theorem notes_on (p : Program α) (m : Machine) :
    (p.on m).2.notes = m.notes ++ (p.events m).notes := by
  induction p generalizing m with
  | done a => exact (List.append_nil _).symm
  | ask q next ih =>
    have step := m.notes_answer q
    have rest := ih (m.answer q).1 (m.answer q).2
    simp only [on, events, rest, step, Trace.notes, List.filterMap_cons, List.append_assoc]
    cases Event.note? ⟨q, (m.answer q).1⟩ with
    | none => rfl
    | some n => rfl

/-- A machine keeps the requests that reach the analyzer. -/
theorem seen_on (p : Program α) (m : Machine) :
    (p.on m).2.seen = m.seen ++ (p.events m).seen := by
  induction p generalizing m with
  | done a => exact (List.append_nil _).symm
  | ask q next ih =>
    have step := m.seen_answer q
    have rest := ih (m.answer q).1 (m.answer q).2
    simp only [on, events, rest, step, Trace.seen, List.flatMap_cons, List.append_assoc]

/-- On a machine every exchange ends as its link decides. -/
theorem answeredBy_of_mem_events (p : Program α) (m : Machine) :
    ∀ e ∈ p.events m, e.AnsweredBy m.link := by
  induction p generalizing m with
  | done a =>
    intro e mem
    cases mem
  | ask q next ih =>
    intro e mem
    rcases List.mem_cons.mp mem with rfl | mem
    · exact m.answeredBy_answer q
    · have later := ih (m.answer q).1 (m.answer q).2 e mem
      rwa [m.link_answer] at later

end Program

end AnalysisBrowser
