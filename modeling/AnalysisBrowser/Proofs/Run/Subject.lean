import AnalysisBrowser.Run.Commands
import AnalysisBrowser.Proofs.Client.Analysis

/-!
# What runs look at

A run that does not fail has looked at one thing: a result, a validation, the health of both
services, or the configuration that it wrote. What that was is told by the last answer that the run
got, whatever the surroundings are. A saved result is the record in its file. A result of the
analyzer is made of the two answers about the source code in a file, and only if both came.
-/
namespace AnalysisBrowser

open Client (Delivers)

/-- What a run looks at. -/
inductive Subject where
  | result (m : ResultModel)
  | validation (v : StructureValidation)
  | health (lexical later : Exchange)
  /-- A configuration that was written. -/
  | creation

/-- A run read source code in a file. -/
def Trace.ReadsCode (t : Trace) (path code : String) : Prop :=
  ∃ bytes, (⟨.read path, .ok bytes⟩ : Event) ∈ t ∧ Text.ofUtf8? bytes = some code

/-- The last thing that a run came to know is the result from a source. -/
inductive Source.Gives : Source → Trace → ResultModel → Prop
  | saved {path text : String} {t : Trace} {bytes : List UInt8} {m : ResultModel}
      (last : t.lastAnswer? = some ⟨.read path, .ok bytes⟩)
      (isText : Text.ofUtf8? bytes = some text)
      (decoded : Json.decodeText ResultModel.decode text = .ok m) :
      Gives (.saved path) t m
  | code {path code : String} {t : Trace} {client : Client} {replies : Replies}
      {a : LexicalAnalysis} {b : SyntaxAnalysis} (read : t.ReadsCode path code)
      (last : t.lastAnswer? =
        some ⟨.exchangeBoth (client.lexicalRequest code) (client.laterRequest code), replies⟩)
      (first : Delivers LexicalAnalysis.decode replies.first a)
      (second : Delivers SyntaxAnalysis.decode replies.second b) :
      Gives (.code path) t (.assemble a b)

namespace Command

/-- Where the result that a command shows comes from. -/
def source? : Command → Option Source
  | .analyze source _ _ => some source
  | .tree source _ _ => some source
  | .symbols source _ _ => some source
  | .errors source _ _ => some source
  | .tokens source _ => some source
  | .validate _ _ _ => none
  | .health _ => none
  | .init _ => none

/-- The last thing that a run of a command came to know is its subject. -/
inductive Sees : Command → Trace → Subject → Prop
  | result {c : Command} {source : Source} {t : Trace} {m : ResultModel}
      (shows : c.source? = some source) (gives : source.Gives t m) : Sees c t (.result m)
  | validation {path code : String} {structureType : StructureType} {overrides : Overrides}
      {t : Trace} {client : Client} {x : Exchange} {v : StructureValidation}
      (read : t.ReadsCode path code)
      (last : t.lastAnswer? =
        some ⟨.exchange (client.post "syntax/validate" (validationRequest code structureType)), x⟩)
      (delivers : Delivers StructureValidation.decode x v) :
      Sees (.validate path structureType overrides) t (.validation v)
  | health {overrides : Overrides} {t : Trace} {client : Client} {replies : Replies}
      (last : t.lastAnswer? =
        some ⟨.exchangeBoth (client.probe .lexical) (client.probe .syntactic), replies⟩) :
      Sees (.health overrides) t (.health replies.first replies.second)
  | creation {target : InitTarget} {t : Trace} {path : String}
      (last : t.lastAnswer? = some ⟨.write path (Text.toUtf8 configTemplate), .ok ()⟩) :
      Sees (.init target) t .creation

end Command

namespace Trace

theorem exchange_unique {t : Trace} {r r' : Request} {x x' : Exchange}
    (last : t.lastAnswer? = some ⟨.exchange r, x⟩)
    (last' : t.lastAnswer? = some ⟨.exchange r', x'⟩) : x = x' := by
  have same := Option.some.inj (last.symm.trans last')
  injection same

theorem replies_unique {t : Trace} {r r' s s' : Request} {replies replies' : Replies}
    (last : t.lastAnswer? = some ⟨.exchangeBoth r s, replies⟩)
    (last' : t.lastAnswer? = some ⟨.exchangeBoth r' s', replies'⟩) : replies = replies' := by
  have same := Option.some.inj (last.symm.trans last')
  injection same

theorem bytes_unique {t : Trace} {path : String} {bytes bytes' : List UInt8}
    (last : t.lastAnswer? = some ⟨.read path, .ok bytes⟩)
    (last' : t.lastAnswer? = some ⟨.read path, .ok bytes'⟩) : bytes = bytes' := by
  have same := Option.some.inj (last.symm.trans last')
  injection same with _ answers
  exact Except.ok.inj answers

end Trace

theorem Source.Gives.unique {source : Source} {t : Trace} {m m' : ResultModel}
    (gives : source.Gives t m) (gives' : source.Gives t m') : m = m' := by
  cases gives with
  | saved last isText decoded =>
    cases gives' with
    | saved last' isText' decoded' =>
      rw [Trace.bytes_unique last last', isText'] at isText
      rw [Option.some.inj isText, decoded] at decoded'
      exact Except.ok.inj decoded'
  | code read last first second =>
    cases gives' with
    | code read' last' first' second' =>
      have same := Trace.replies_unique last last'
      subst same
      rw [first.unique first', second.unique second']

theorem Command.Sees.unique {c : Command} {t : Trace} {s s' : Subject} (sees : c.Sees t s)
    (sees' : c.Sees t s') : s = s' := by
  cases sees with
  | result shows gives =>
    cases sees' with
    | result shows' gives' =>
      rw [Option.some.inj (shows.symm.trans shows')] at gives
      rw [gives.unique gives']
    | _ => cases shows
  | validation read last delivers =>
    cases sees' with
    | result shows' gives' => cases shows'
    | validation read' last' delivers' =>
      rw [Trace.exchange_unique last last'] at delivers
      rw [delivers.unique delivers']
  | health last =>
    cases sees' with
    | result shows' gives' => cases shows'
    | health last' => rw [Trace.replies_unique last last']
  | creation last =>
    cases sees' with
    | result shows' gives' => cases shows'
    | creation last' => rfl

theorem Trace.ReadsCode.append {s t : Trace} {path code : String} (read : s.ReadsCode path code) :
    Trace.ReadsCode (s ++ t) path code := by
  obtain ⟨bytes, mem, isText⟩ := read
  exact ⟨bytes, List.mem_append_left t mem, isText⟩

theorem Trace.ReadsCode.prepend {s t : Trace} {path code : String} (read : t.ReadsCode path code) :
    Trace.ReadsCode (s ++ t) path code := by
  obtain ⟨bytes, mem, isText⟩ := read
  exact ⟨bytes, List.mem_append_right s mem, isText⟩

theorem Source.Gives.prepend {source : Source} {s t : Trace} {m : ResultModel}
    (gives : source.Gives t m) : source.Gives (s ++ t) m := by
  cases gives with
  | saved last isText decoded => exact .saved (Trace.lastAnswer?_append last) isText decoded
  | code read last first second =>
    exact .code read.prepend (Trace.lastAnswer?_append last) first second

/-- Remarks do not hide a result. -/
theorem Source.Gives.append_quiet {source : Source} {s t : Trace} {m : ResultModel}
    (gives : source.Gives s m) (quiet : t.Quiet) : source.Gives (s ++ t) m := by
  cases gives with
  | saved last isText decoded =>
    exact .saved ((Trace.lastAnswer?_append_quiet quiet).trans last) isText decoded
  | code read last first second =>
    exact .code read.append ((Trace.lastAnswer?_append_quiet quiet).trans last) first second

theorem Command.Sees.prepend {c : Command} {s t : Trace} {subject : Subject}
    (sees : c.Sees t subject) : c.Sees (s ++ t) subject := by
  cases sees with
  | result shows gives => exact .result shows gives.prepend
  | validation read last delivers =>
    exact .validation read.prepend (Trace.lastAnswer?_append last) delivers
  | health last => exact .health (Trace.lastAnswer?_append last)
  | creation last => exact .creation (Trace.lastAnswer?_append last)

namespace Run

variable {α ε : Type}

/-- A run goes on with a success only. -/
theorem ends_ofExcept_iff {failure : ε → RunError} {result : Except ε α} {t : Trace} {a : α} :
    (ofExcept failure result).run.Ends t (.ok a) ↔ t = [] ∧ result = .ok a := by
  unfold ofExcept
  rw [Program.ends_mk_iff]
  cases result with
  | ok b =>
    change t = [] ∧ Except.ok a = Except.ok b ↔ _
    simp [eq_comm]
  | error e =>
    change t = [] ∧ Except.ok a = Except.error (failure e) ↔ _
    simp

/-- A run goes on behind a refusal only where there is no reason for it. -/
theorem ends_unless_fail {c : Prop} [Decidable c] {e : RunError} {next : Unit → Run α} {t : Trace}
    {a : α} (run : (if c then (fail e >>= next) else next ()).run.Ends t (.ok a)) :
    ¬c ∧ (next ()).run.Ends t (.ok a) := by
  split at run
  · obtain ⟨_, _, _, _, failed, _⟩ := Program.ends_ok_bind_iff.mp run
    cases (Program.ends_mk_iff.mp failed).2
  · rename_i free
    exact ⟨free, run⟩

end Run

theorem ends_readTextFile {path : String} {t : Trace} {text : String}
    (run : (readTextFile path).Ends t (.ok text)) :
    ∃ bytes, t = [⟨.read path, .ok bytes⟩] ∧ Text.ofUtf8? bytes = some text := by
  obtain ⟨asked, rest, answer, rfl, read, run⟩ := Program.ends_bind_iff.mp run
  rw [Program.ends_query_iff.mp read]
  cases answer with
  | error e => cases (Program.ends_done_iff.mp run).2
  | ok bytes =>
    dsimp only at run
    split at run
    · rename_i code isText
      have ended := Program.ends_done_iff.mp run
      rw [ended.1, Except.ok.inj ended.2]
      exact ⟨bytes, rfl, isText⟩
    · cases (Program.ends_done_iff.mp run).2

theorem ends_readRecord {ε α : Type} {decode : String → Except ε α} {path : String} {t : Trace}
    {a : α} (run : (readRecord decode path).Ends t (.ok a)) :
    ∃ bytes text, t = [⟨.read path, .ok bytes⟩] ∧ Text.ofUtf8? bytes = some text ∧
      decode text = .ok a := by
  obtain ⟨before, after, result, rfl, read, run⟩ := Program.ends_bind_iff.mp run
  cases result with
  | error e => cases (Program.ends_done_iff.mp run).2
  | ok text =>
    have ended := Program.ends_done_iff.mp run
    obtain ⟨bytes, rfl, isText⟩ := ends_readTextFile read
    rw [ended.1]
    refine ⟨bytes, text, rfl, isText, ?_⟩
    cases decoded : decode text with
    | ok b =>
      rw [decoded] at ended
      rw [Except.ok.inj ended.2]
    | error e =>
      rw [decoded] at ended
      cases ended.2

theorem ends_readSource {path : String} {t : Trace} {code : String}
    (run : (readSource path).run.Ends t (.ok code)) :
    t.ReadsCode path code ∧ Text.isBlankText code = false := by
  obtain ⟨asked, rest, result, rfl, read, taking⟩ := Program.ends_lift_bind_iff.mp run
  obtain ⟨taken, rest, text, rfl, succeeded, checking⟩ := Program.ends_ok_bind_iff.mp taking
  obtain ⟨rfl, rfl⟩ := Run.ends_ofExcept_iff.mp succeeded
  obtain ⟨bytes, rfl, isText⟩ := ends_readTextFile read
  obtain ⟨notBlank, done⟩ := Run.ends_unless_fail checking
  have ended := Program.ends_pure_iff.mp done
  rw [ended.1, Except.ok.inj ended.2]
  exact ⟨⟨bytes, by simp, isText⟩, Bool.eq_false_iff.mpr notBlank⟩

theorem ends_askAnalyzer {α : Type} {client : Client} {call : Call α} {t : Trace} {a : α}
    (run : (askAnalyzer client call).run.Ends t (.ok a)) : call.run.Ends t (.ok a) := by
  obtain ⟨asked, rest, result, rfl, answered, run⟩ := Program.ends_lift_bind_iff.mp run
  obtain ⟨rfl, rfl⟩ := Run.ends_ofExcept_iff.mp run
  rw [List.append_nil]
  exact answered

/-- The last answer of an analysis with a result are the two replies that it was made of. -/
theorem lastAnswer?_of_analyze {client : Client} {code : String} {t : Trace} {m : ResultModel}
    (source : Text.isBlankText code = false) (run : (client.analyze code).run.Ends t (.ok m)) :
    ∃ replies a b,
      t.lastAnswer? =
        some ⟨.exchangeBoth (client.lexicalRequest code) (client.laterRequest code), replies⟩ ∧
      Delivers LexicalAnalysis.decode replies.first a ∧
      Delivers SyntaxAnalysis.decode replies.second b ∧ m = .assemble a b := by
  obtain ⟨before, replies, after, rfl, _, quiet, result⟩ := Client.ends_analyze client source run
  obtain ⟨a, b, first, second, same⟩ := Client.analyzed_eq_ok_iff.mp result.symm
  exact ⟨replies, a, b, Trace.lastAnswer?_append_cons rfl quiet, first, second, same⟩

/-- The last answer of a call with a result is the one that brought the result. -/
theorem lastAnswer?_of_call {α : Type} {decode : Json.Decoder α} {r : Request} {t : Trace} {a : α}
    (run : (Client.call decode r).run.Ends t (.ok a)) :
    ∃ x, t.lastAnswer? = some ⟨.exchange r, x⟩ ∧ Delivers decode x a := by
  obtain ⟨before, x, after, rfl, _, quiet, result⟩ := Client.ends_call decode r run
  have delivers := Client.received_eq_ok_iff.mp result.symm
  exact ⟨x, Trace.lastAnswer?_append_cons rfl quiet, delivers⟩

/-- A run that has loaded a result has it from its source. -/
theorem ends_loadModel {client : Client} {source : Source} {t : Trace} {m : ResultModel}
    (run : (loadModel client source).run.Ends t (.ok m)) : source.Gives t m := by
  cases source with
  | saved path =>
    obtain ⟨read, rest, result, rfl, asked, taking⟩ := Program.ends_lift_bind_iff.mp run
    obtain ⟨rfl, rfl⟩ := Run.ends_ofExcept_iff.mp taking
    obtain ⟨bytes, text, rfl, isText, decoded⟩ := ends_readRecord asked
    exact .saved rfl isText decoded
  | code path =>
    obtain ⟨before, rest, code, rfl, read, asking⟩ := Program.ends_ok_bind_iff.mp run
    obtain ⟨asked, rest, model, rfl, answered, remarking⟩ := Program.ends_ok_bind_iff.mp asking
    obtain ⟨noted, rest, _, rfl, remarked, done⟩ := Program.ends_lift_bind_iff.mp remarking
    have ended := Program.ends_pure_iff.mp done
    have source := ends_readSource read
    have analysis := lastAnswer?_of_analyze source.2 (ends_askAnalyzer answered)
    obtain ⟨replies, a, b, last, lexical, later, rfl⟩ := analysis
    have gives : Source.Gives (.code path) (before ++ asked) _ :=
      .code source.1.append (Trace.lastAnswer?_append last) lexical later
    have whole := gives.append_quiet (Program.quiet_of_note remarked)
    rw [ended.1, List.append_nil, Except.ok.inj ended.2]
    rwa [List.append_assoc] at whole

theorem ends_remarkViolations {violations : List ContractViolation} {t : Trace} {u : Unit}
    (run : (remarkViolations violations).Ends t u) : t.Quiet := by
  induction violations generalizing t with
  | nil =>
    rw [(Program.ends_done_iff.mp run).1]
    exact Trace.quiet_nil
  | cons v rest ih =>
    obtain ⟨noted, after, _, rfl, remarked, onward⟩ := Program.ends_bind_iff.mp run
    exact (Program.quiet_of_note remarked).append (ih onward)

theorem ends_openSession {m : ResultModel} {depth : Nat} {t : Trace} {s : Session}
    (run : (openSession m depth).Ends t s) : t.Quiet ∧ s = .start m depth := by
  obtain ⟨noted, after, _, rfl, remarked, done⟩ := Program.ends_bind_iff.mp run
  have ended := Program.ends_done_iff.mp done
  rw [ended.1, List.append_nil]
  exact ⟨ends_remarkViolations remarked, ended.2⟩

/-- The session after flipping the nodes that are there. -/
def Session.flipped (s : Session) (toggles : List NodePath) : Session :=
  (toggles.filter fun p => (p.resolve s.model.ast).isSome).foldl Session.toggle s

theorem ends_toggleAll {toggles : List NodePath} {s s' : Session} {t : Trace}
    (run : (toggleAll s toggles).Ends t s') : t.Quiet ∧ s' = s.flipped toggles := by
  induction toggles generalizing s t with
  | nil =>
    have ended := Program.ends_done_iff.mp run
    rw [ended.1]
    exact ⟨Trace.quiet_nil, ended.2⟩
  | cons p rest ih =>
    unfold toggleAll at run
    split at run
    · rename_i nowhere
      obtain ⟨noted, after, _, rfl, remarked, onward⟩ := Program.ends_bind_iff.mp run
      have after := ih onward
      refine ⟨(Program.quiet_of_note remarked).append after.1, after.2.trans ?_⟩
      simp [Session.flipped, nowhere]
    · rename_i found
      obtain ⟨noted, after, _, rfl, remarked, onward⟩ := Program.ends_bind_iff.mp run
      have after := ih onward
      refine ⟨(Program.quiet_of_note remarked).append after.1, after.2.trans ?_⟩
      simp [Session.flipped, Session.toggle, found]

end AnalysisBrowser
