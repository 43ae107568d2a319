import AnalysisBrowser.Run.Outcome
import AnalysisBrowser.Proofs.Run.Subject

/-!
# Exit codes

A run that fails prints nothing and exits with 2. Every other run prints something and exits with 0
or 1, by what its command holds of the one thing that the run looked at. The verdict is a function of
the command's name and of that thing, so the ways to show it cannot matter.

The statements are about runs in any surroundings. What an invocation leaves on a machine is one of
these cases.
-/
namespace AnalysisBrowser

open Arguments (Verb)

/-- What a run of an invocation leaves, with the answers that the run was given. -/
def Invocation.Leaves (i : Invocation) (colored : Bool) (t : Trace) (o : Outcome) : Prop :=
  ∃ result, i.command.run.run.Ends t result ∧
    o = ⟨exitCode result, printed colored result,
      unlines ((t.notes.filter (Note.isShown i.verbosity)).map Note.line ++ complaints result)⟩

/-- The questions of an invocation on a machine, with the answers of the machine. -/
def Invocation.events (i : Invocation) (m : Machine) : Trace :=
  i.command.run.run.events m.cleared

theorem Invocation.leaves_on (i : Invocation) (m : Machine) :
    i.Leaves false (i.events m) (i.on m).1 := by
  refine ⟨_, Program.ends_on _ _, ?_⟩
  have notes : (i.command.run.run.on m.cleared).2.notes = [] ++ (i.events m).notes :=
    Program.notes_on i.command.run.run m.cleared
  rw [List.nil_append] at notes
  rw [← notes]
  rfl

/-- The name of a command. -/
def Command.verb : Command → Verb
  | .analyze _ _ _ => .analyze
  | .tree _ _ _ => .tree
  | .symbols _ _ _ => .symbols
  | .errors _ _ _ => .errors
  | .tokens _ _ => .tokens
  | .validate _ _ _ => .validate
  | .health _ => .health
  | .init _ => .init

/-- The service answered with a status of success. -/
def Exchange.IsSuccess (x : Exchange) : Prop :=
  ∃ status body, x = .answered status body ∧ 200 ≤ status ∧ status ≤ 299

/-- What a command asks of what it looks at. -/
def Arguments.Verb.Approves : Verb → Subject → Prop
  | .analyze, .result m => m.isValid = true
  | .errors, .result m => m.isValid = true ∧ m.syntaxErrors = [] ∧ m.semanticErrors = []
  | .tokens, .result m => m.lexicalErrors = []
  | .validate, .validation v => v.isValid = true
  | .health, .health lexical later => lexical.IsSuccess ∧ later.IsSuccess
  | _, _ => True

/-- A run sees its subject, reports what its command holds of that, and prints something. -/
structure Command.Reports (c : Command) (t : Trace) (report : Report) : Prop where
  subject : ∃ s, c.Sees t s ∧ (report.isInOrder = true ↔ c.verb.Approves s)
  prints : ∀ colored, report.shown.text colored ≠ ""

theorem Command.Reports.prepend {c : Command} {s t : Trace} {report : Report}
    (reports : c.Reports t report) : c.Reports (s ++ t) report := by
  obtain ⟨subject, sees, verdict⟩ := reports.subject
  exact ⟨⟨subject, sees.prepend, verdict⟩, reports.prints⟩

theorem isHealthy_iff {x : Exchange} : Client.isHealthy x = true ↔ x.IsSuccess := by
  cases x with
  | answered status body =>
    constructor
    · intro healthy
      exact ⟨status, body, rfl, Client.isSuccess_iff.mp healthy⟩
    · rintro ⟨status, body, same, success⟩
      cases same
      exact Client.isSuccess_iff.mpr success
  | unreachable fault => simp [Client.isHealthy, Exchange.IsSuccess]
  | unanswered fault => simp [Client.isHealthy, Exchange.IsSuccess]

theorem isClear_ofModel_iff {m : ResultModel} :
    (ErrorReport.ofModel m).isClear = true ↔ m.syntaxErrors = [] ∧ m.semanticErrors = [] := by
  unfold ErrorReport.ofModel ErrorReport.build
  split
  · rename_i empty
    simpa [ErrorReport.isClear, ResultModel.syntaxFindings, ResultModel.semanticFindings]
      using empty
  · rename_i some
    simpa [ErrorReport.isClear, ResultModel.syntaxFindings, ResultModel.semanticFindings] using some

theorem contractViolations_of_noErrors {m : ResultModel} (first : m.syntaxErrors = [])
    (second : m.semanticErrors = []) : m.contractViolations = [] := by
  simp [ResultModel.contractViolations, ResultModel.violationsIn, ResultModel.syntaxFindings,
    ResultModel.semanticFindings, first, second]

namespace Shown

theorem text_page_ne_empty (colored : Bool) (line : Text.Line) (rest : Text.Page) :
    (Shown.page (line :: rest)).text colored ≠ "" := by
  intro empty
  have chars := congrArg String.toList empty
  simp [text, Text.renderPage, Text.lineChars] at chars

theorem text_inFormat_ne_empty (colored : Bool) (format : Format) (source : String)
    (p : Text.Page) (j : Json) : (inFormat format source p j).text colored ≠ "" := by
  cases format with
  | pretty => exact text_page_ne_empty colored _ _
  | json =>
    intro empty
    have chars := congrArg String.toList empty
    simp [inFormat, text, printJson] at chars

end Shown

theorem quiet_of_remarkHealth {service : Service} {x : Exchange} {t : Trace} {u : Unit}
    (run : (Client.remarkHealth service x).Ends t u) : t.Quiet := by
  unfold Client.remarkHealth at run
  split at run
  · exact Program.quiet_of_note run
  · exact Program.quiet_of_note run
  · exact Program.quiet_of_note run
  · exact Program.quiet_of_note run
  · rw [(Program.ends_done_iff.mp run).1]
    exact Trace.quiet_nil

theorem ends_remarkHealth_pair {one two : Service} {x y : Exchange} {α : Type} {a b : α} {t : Trace}
    (run : (do
      Client.remarkHealth one x
      Client.remarkHealth two y
      return a : Program α).Ends t b) :
    t.Quiet ∧ b = a := by
  obtain ⟨first, rest, _, rfl, remarked, remarking⟩ := Program.ends_bind_iff.mp run
  obtain ⟨second, after, _, rfl, remarked', done⟩ := Program.ends_bind_iff.mp remarking
  have ended := Program.ends_done_iff.mp done
  rw [ended.1, List.append_nil]
  exact ⟨(quiet_of_remarkHealth remarked).append (quiet_of_remarkHealth remarked'), ended.2⟩

/-- The last answer on health are the two replies that it is told from. -/
theorem ends_health {client : Client} {t : Trace} {up : Bool × Bool}
    (run : client.health.Ends t up) :
    ∃ replies, t.lastAnswer? =
        some ⟨.exchangeBoth (client.probe .lexical) (client.probe .syntactic), replies⟩ ∧
      up = (Client.isHealthy replies.first, Client.isHealthy replies.second) := by
  obtain ⟨asked, after, replies, rfl, exchange, remarking⟩ := Program.ends_bind_iff.mp run
  rw [Program.ends_query_iff.mp exchange]
  have remarks : after.Quiet ∧
      up = (Client.isHealthy replies.first, Client.isHealthy replies.second) := by
    split at remarking
    · exact ends_remarkHealth_pair remarking
    · exact ends_remarkHealth_pair remarking
  exact ⟨replies, Trace.lastAnswer?_append_quiet remarks.1, remarks.2⟩

/-- A run of a command that shows a result loads the result and goes on from it. -/
theorem ends_loaded {source : Source} {overrides : Overrides}
    {onward : Config × Format → Run Report} {next : Config → Format → ResultModel → Run Report}
    {t : Trace} {report : Report}
    (run : (prepare overrides >>= onward).run.Ends t (.ok report))
    (loads : ∀ config format,
      onward (config, format) = loadModel config.analyzer source >>= next config format) :
    ∃ before after config format m, t = before ++ after ∧ source.Gives before m ∧
      (next config format m).run.Ends after (.ok report) := by
  obtain ⟨prepared, rest, ⟨config, format⟩, rfl, _, loading⟩ := Program.ends_ok_bind_iff.mp run
  rw [loads] at loading
  obtain ⟨loaded, after, m, rfl, load, viewing⟩ := Program.ends_ok_bind_iff.mp loading
  have gives := (ends_loadModel load).prepend (s := prepared)
  exact ⟨prepared ++ loaded, after, config, format, m, by rw [List.append_assoc], gives, viewing⟩

/-- Only remarks stand between loading a result and the report on it. -/
theorem reports_of_gives {c : Command} {source : Source} {before after : Trace} {m : ResultModel}
    {report : Report} (shows : c.source? = some source) (gives : source.Gives before m)
    (quiet : after.Quiet) (verdict : report.isInOrder = true ↔ c.verb.Approves (.result m))
    (prints : ∀ colored, report.shown.text colored ≠ "") : c.Reports (before ++ after) report :=
  ⟨⟨.result m, .result shows (gives.append_quiet quiet), verdict⟩, prints⟩

theorem reports_of_ends_analyze {source : Source} {overrides : Overrides} {expandAll : Bool}
    {t : Trace} {report : Report}
    (run : (runAnalyze source overrides expandAll).run.Ends t (.ok report)) :
    (Command.analyze source overrides expandAll).Reports t report := by
  obtain ⟨before, rest, config, format, m, rfl, gives, viewing⟩ := ends_loaded run fun _ _ => rfl
  obtain ⟨opened, after, session, rfl, opening, done⟩ := Program.ends_lift_bind_iff.mp viewing
  have ended := Program.ends_pure_iff.mp done
  have session := ends_openSession opening
  rw [ended.1, List.append_nil, Except.ok.inj ended.2]
  refine reports_of_gives rfl gives session.1 Iff.rfl fun colored => ?_
  exact Shown.text_inFormat_ne_empty colored format source.label _ _

theorem reports_of_ends_tree {source : Source} {overrides : Overrides} {options : TreeOptions}
    {t : Trace} {report : Report}
    (run : (runTree source overrides options).run.Ends t (.ok report)) :
    (Command.tree source overrides options).Reports t report := by
  obtain ⟨before, rest, config, format, m, rfl, gives, viewing⟩ := ends_loaded run fun _ _ => rfl
  obtain ⟨opened, rest, session, rfl, opening, toggling⟩ := Program.ends_lift_bind_iff.mp viewing
  obtain ⟨toggled, after, session', rfl, toggles, done⟩ := Program.ends_lift_bind_iff.mp toggling
  have ended := Program.ends_pure_iff.mp done
  have quiet := (ends_openSession opening).1.append (ends_toggleAll toggles).1
  rw [ended.1, List.append_nil, Except.ok.inj ended.2]
  refine reports_of_gives rfl gives quiet (iff_of_true rfl trivial) fun colored => ?_
  exact Shown.text_inFormat_ne_empty colored format source.label _ _

theorem reports_of_ends_symbols {source : Source} {overrides : Overrides} {filter : SymbolFilter}
    {t : Trace} {report : Report}
    (run : (runSymbols source overrides filter).run.Ends t (.ok report)) :
    (Command.symbols source overrides filter).Reports t report := by
  obtain ⟨before, rest, config, format, m, rfl, gives, viewing⟩ := ends_loaded run fun _ _ => rfl
  obtain ⟨opened, after, session, rfl, opening, done⟩ := Program.ends_lift_bind_iff.mp viewing
  have ended := Program.ends_pure_iff.mp done
  have session := ends_openSession opening
  rw [ended.1, List.append_nil, Except.ok.inj ended.2]
  refine reports_of_gives rfl gives session.1 (iff_of_true rfl trivial) fun colored => ?_
  exact Shown.text_inFormat_ne_empty colored format source.label _ _

theorem reports_of_ends_errors {source : Source} {overrides : Overrides} {origin : OriginFilter}
    {t : Trace} {report : Report}
    (run : (runErrors source overrides origin).run.Ends t (.ok report)) :
    (Command.errors source overrides origin).Reports t report := by
  obtain ⟨before, rest, config, format, m, rfl, gives, viewing⟩ := ends_loaded run fun _ _ => rfl
  obtain ⟨opened, after, session, rfl, opening, done⟩ := Program.ends_lift_bind_iff.mp viewing
  have ended := Program.ends_pure_iff.mp done
  obtain ⟨quiet, rfl⟩ := ends_openSession opening
  rw [ended.1, List.append_nil, Except.ok.inj ended.2]
  refine reports_of_gives rfl gives quiet ?_ fun colored => ?_
  -- Whether a report is clear is told without the origin that narrows its page.
  · change (_ && m.isValid) = true ↔ m.isValid = true ∧ _
    rw [Bool.and_eq_true, and_comm]
    exact and_congr_right fun _ => isClear_ofModel_iff
  · exact Shown.text_inFormat_ne_empty colored format source.label _ _

theorem reports_of_ends_tokens {source : Source} {overrides : Overrides} {t : Trace}
    {report : Report} (run : (runTokens source overrides).run.Ends t (.ok report)) :
    (Command.tokens source overrides).Reports t report := by
  obtain ⟨before, after, config, format, m, rfl, gives, done⟩ := ends_loaded run fun _ _ => rfl
  have ended := Program.ends_pure_iff.mp done
  rw [ended.1, Except.ok.inj ended.2]
  refine reports_of_gives rfl gives Trace.quiet_nil List.isEmpty_iff fun colored => ?_
  exact Shown.text_inFormat_ne_empty colored format source.label _ _

theorem reports_of_ends_validate {path : String} {structureType : StructureType}
    {overrides : Overrides} {t : Trace} {report : Report}
    (run : (runValidate path structureType overrides).run.Ends t (.ok report)) :
    (Command.validate path structureType overrides).Reports t report := by
  obtain ⟨prepared, rest, ⟨config, format⟩, rfl, _, reading⟩ := Program.ends_ok_bind_iff.mp run
  obtain ⟨read, rest, code, rfl, reads, asking⟩ := Program.ends_ok_bind_iff.mp reading
  obtain ⟨asked, after, v, rfl, answered, done⟩ := Program.ends_ok_bind_iff.mp asking
  have ended := Program.ends_pure_iff.mp done
  have source := ends_readSource reads
  have call := ends_askAnalyzer answered
  unfold Client.validate Client.ensureSource at call
  rw [if_neg (Bool.eq_false_iff.mp source.2)] at call
  obtain ⟨x, last, delivers⟩ := lastAnswer?_of_call call
  have sees : (Command.validate path structureType overrides).Sees (read ++ asked) _ :=
    .validation source.1.append (Trace.lastAnswer?_append last) delivers
  rw [ended.1, List.append_nil, Except.ok.inj ended.2]
  refine .prepend ⟨⟨.validation v, sees, Iff.rfl⟩, fun colored => ?_⟩
  exact Shown.text_inFormat_ne_empty colored format path _ _

theorem reports_of_ends_health {overrides : Overrides} {t : Trace} {report : Report}
    (run : (runHealth overrides).run.Ends t (.ok report)) :
    (Command.health overrides).Reports t report := by
  obtain ⟨prepared, rest, ⟨config, format⟩, rfl, _, asking⟩ := Program.ends_ok_bind_iff.mp run
  obtain ⟨asked, after, up, rfl, answered, done⟩ := Program.ends_lift_bind_iff.mp asking
  obtain ⟨replies, last, rfl⟩ := ends_health answered
  have ended := Program.ends_pure_iff.mp done
  rw [ended.1, List.append_nil, Except.ok.inj ended.2]
  refine .prepend ⟨⟨_, .health last, ?_⟩, fun colored => ?_⟩
  · change (_ && _) = true ↔ replies.first.IsSuccess ∧ replies.second.IsSuccess
    rw [Bool.and_eq_true, isHealthy_iff, isHealthy_iff]
  · exact Shown.text_inFormat_ne_empty colored format config.analyzer.baseUrl _ _

/-- A configuration is reported when it was written, which is the last step. -/
theorem reports_of_ends_init {target : InitTarget} {t : Trace} {report : Report}
    (run : (runInit target).run.Ends t (.ok report)) :
    (Command.init target).Reports t report := by
  obtain ⟨chosen, rest, path, rfl, _, checking⟩ := Program.ends_ok_bind_iff.mp run
  obtain ⟨asked, rest, present, rfl, _, making⟩ := Program.ends_lift_bind_iff.mp checking
  obtain ⟨_, making⟩ := Run.ends_unless_fail making
  obtain ⟨made, rest, directories, rfl, _, making⟩ := Program.ends_lift_bind_iff.mp making
  obtain ⟨taken, rest, _, rfl, _, writing⟩ := Program.ends_ok_bind_iff.mp making
  obtain ⟨written, rest, answer, rfl, write, taking⟩ := Program.ends_lift_bind_iff.mp writing
  obtain ⟨taken', after, _, rfl, succeeded, done⟩ := Program.ends_ok_bind_iff.mp taking
  obtain ⟨rfl, rfl⟩ := Run.ends_ofExcept_iff.mp succeeded
  have ended := Program.ends_pure_iff.mp done
  rw [Program.ends_query_iff.mp write, ended.1, Except.ok.inj ended.2]
  refine .prepend (.prepend (.prepend (.prepend
    ⟨⟨.creation, .creation rfl, ?_⟩, fun colored => ?_⟩)))
  · exact iff_of_true rfl trivial
  · exact Shown.text_page_ne_empty colored _ _

theorem reports_of_ends (c : Command) {t : Trace} {report : Report}
    (run : c.run.run.Ends t (.ok report)) : c.Reports t report := by
  cases c with
  | analyze source overrides expandAll => exact reports_of_ends_analyze run
  | tree source overrides options => exact reports_of_ends_tree run
  | symbols source overrides filter => exact reports_of_ends_symbols run
  | errors source overrides origin => exact reports_of_ends_errors run
  | tokens source overrides => exact reports_of_ends_tokens run
  | validate path structureType overrides => exact reports_of_ends_validate run
  | health overrides => exact reports_of_ends_health run
  | init target => exact reports_of_ends_init run

namespace Invocation

/-- A run fails without printing, or it prints and its exit code is the verdict on its subject. -/
theorem Leaves.cases {i : Invocation} {colored : Bool} {t : Trace} {o : Outcome}
    (leaves : i.Leaves colored t o) :
    (o.exit = 2 ∧ o.stdout = "") ∨
      o.stdout ≠ "" ∧ ∃ s, i.command.Sees t s ∧
        (o.exit = 0 ∧ i.command.verb.Approves s ∨ o.exit = 1 ∧ ¬i.command.verb.Approves s) := by
  obtain ⟨result, run, rfl⟩ := leaves
  cases result with
  | error e => exact .inl ⟨rfl, rfl⟩
  | ok report =>
    have reports := reports_of_ends i.command run
    obtain ⟨s, sees, verdict⟩ := reports.subject
    refine .inr ⟨reports.prints colored, s, sees, ?_⟩
    rw [← verdict]
    cases inOrder : report.isInOrder with
    | true => exact .inl ⟨by simp [exitCode, inOrder], rfl⟩
    | false => exact .inr ⟨by simp [exitCode, inOrder], Bool.false_ne_true⟩

theorem Leaves.exit_eq_two_iff {i : Invocation} {colored : Bool} {t : Trace} {o : Outcome}
    (leaves : i.Leaves colored t o) : o.exit = 2 ↔ o.stdout = "" := by
  rcases leaves.cases with ⟨failed, silent⟩ | ⟨printed, s, _, ⟨exit, _⟩ | ⟨exit, _⟩⟩
  · simp [failed, silent]
  · simp [exit, printed]
  · simp [exit, printed]

/-- The exit code of a run that does not fail is the verdict on anything that counts as its
subject. -/
theorem Leaves.verdict {i : Invocation} {colored : Bool} {t : Trace} {o : Outcome} {s : Subject}
    (leaves : i.Leaves colored t o) (succeeded : o.exit ≠ 2) (sees : i.command.Sees t s) :
    o.exit = 0 ∧ i.command.verb.Approves s ∨ o.exit = 1 ∧ ¬i.command.verb.Approves s := by
  rcases leaves.cases with ⟨failed, _⟩ | ⟨_, s', sees', verdict⟩
  · exact absurd failed succeeded
  · rw [sees.unique sees']
    exact verdict

end Invocation

/-- Exit code 2 is the code of silence. Any other run saw one subject, and its exit code is what the
command holds of it, so two runs of one command that saw the same thing exit alike, however they
show it and wherever they found it. Findings that are all clear leave nothing for the whole view to
complain about. -/
theorem exit_tells_verdict {i j : Invocation} {colored colored' : Bool} {t t' : Trace}
    {o o' : Outcome} (run : i.Leaves colored t o) (other : j.Leaves colored' t' o') :
    (o.exit = 2 ↔ o.stdout = "") ∧
    (o.exit ≠ 2 → ∃ s, i.command.Sees t s ∧ (∀ s', i.command.Sees t s' → s' = s) ∧
      (o.exit = 0 ∧ i.command.verb.Approves s ∨ o.exit = 1 ∧ ¬i.command.verb.Approves s)) ∧
    (o.exit ≠ 2 → o'.exit ≠ 2 → i.command.verb = j.command.verb →
      (∃ s, i.command.Sees t s ∧ j.command.Sees t' s) → o.exit = o'.exit) ∧
    (i.command.verb = .errors → j.command.verb = .analyze → ∀ m,
      i.command.Sees t (.result m) → j.command.Sees t' (.result m) → o.exit = 0 → o'.exit ≠ 2 →
        o'.exit = 0 ∧ m.contractViolations = []) := by
  refine ⟨run.exit_eq_two_iff, ?_, ?_, ?_⟩
  · intro succeeded
    rcases run.cases with ⟨failed, _⟩ | ⟨_, s, sees, verdict⟩
    · exact absurd failed succeeded
    · exact ⟨s, sees, fun s' sees' => sees'.unique sees, verdict⟩
  · rintro succeeded succeeded' same ⟨s, sees, sees'⟩
    have verdict := run.verdict succeeded sees
    have verdict' := other.verdict succeeded' sees'
    rw [same] at verdict
    rcases verdict with ⟨exit, approves⟩ | ⟨exit, refuses⟩
    · rcases verdict' with ⟨exit', _⟩ | ⟨_, refuses'⟩
      · rw [exit, exit']
      · exact absurd approves refuses'
    · rcases verdict' with ⟨_, approves'⟩ | ⟨exit', _⟩
      · exact absurd approves' refuses
      · rw [exit, exit']
  · intro findings whole m sees sees' exit succeeded'
    have clear : m.isValid = true ∧ m.syntaxErrors = [] ∧ m.semanticErrors = [] := by
      rcases run.verdict (by rw [exit]; decide) sees with ⟨_, approves⟩ | ⟨exit', _⟩
      · rwa [findings] at approves
      · rw [exit] at exit'
        cases exit'
    refine ⟨?_, contractViolations_of_noErrors clear.2.1 clear.2.2⟩
    rcases other.verdict succeeded' sees' with ⟨exit', _⟩ | ⟨_, refuses⟩
    · exact exit'
    · rw [whole] at refuses
      exact absurd clear.1 refuses

/-- The text of a result that is marked valid and holds nothing. -/
def validText : String := "\x7b\"isValid\":true\x7d"

/-- A machine on which that result is saved. -/
def savedValid : Machine where
  disk := ⟨[(["r"], .file (Text.toUtf8 validText))], []⟩
  userConfig := none
  link := .down "-"
  seen := []
  notes := []

/-- The semantic findings of the saved result as a document. -/
def savedFindings : Invocation :=
  ⟨0, .errors (.saved "r") ⟨some "json", none⟩ (.only .semantic)⟩

/-- Everything about the saved result as a page. -/
def savedAnalysis : Invocation := ⟨2, .analyze (.saved "r") ⟨none, none⟩ true⟩

theorem exit_tells_verdict_savedValid :
    (savedFindings.Leaves false (savedFindings.events savedValid) (savedFindings.on savedValid).1 ∧
      savedAnalysis.Leaves false (savedAnalysis.events savedValid)
        (savedAnalysis.on savedValid).1) ∧
    ∃ m, savedFindings.command.Sees (savedFindings.events savedValid) (.result m) ∧
      savedAnalysis.command.Sees (savedAnalysis.events savedValid) (.result m) ∧
      (savedFindings.on savedValid).1.exit = 0 ∧ (savedAnalysis.on savedValid).1.exit = 0 ∧
      m.contractViolations = [] := by
  have isText : Text.ofUtf8? (Text.toUtf8 validText) = some validText := by decide +kernel
  have decodes : (Json.decodeText ResultModel.decode validText).isOk = true := by decide +kernel
  have findings : (savedFindings.on savedValid).1.exit = 0 := by decide +kernel
  have analysis : (savedAnalysis.on savedValid).1.exit ≠ 2 := by decide +kernel
  have last : (savedFindings.events savedValid).lastAnswer? =
      some ⟨.read "r", .ok (Text.toUtf8 validText)⟩ := by decide +kernel
  have last' : (savedAnalysis.events savedValid).lastAnswer? =
      some ⟨.read "r", .ok (Text.toUtf8 validText)⟩ := by decide +kernel
  have run := savedFindings.leaves_on savedValid
  have other := savedAnalysis.leaves_on savedValid
  refine ⟨⟨run, other⟩, ?_⟩
  cases decoded : Json.decodeText ResultModel.decode validText with
  | error e =>
    rw [decoded] at decodes
    cases decodes
  | ok m =>
    have sees : savedFindings.command.Sees (savedFindings.events savedValid) (.result m) :=
      .result rfl (.saved last isText decoded)
    have sees' : savedAnalysis.command.Sees (savedAnalysis.events savedValid) (.result m) :=
      .result rfl (.saved last' isText decoded)
    have both := (exit_tells_verdict run other).2.2.2 rfl rfl m sees sees' findings analysis
    exact ⟨m, sees, sees', findings, both.1, both.2⟩

end AnalysisBrowser
