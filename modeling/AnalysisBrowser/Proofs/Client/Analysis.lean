import AnalysisBrowser.Client.Calls
import AnalysisBrowser.Proofs.Json.Compact
import AnalysisBrowser.Proofs.Machine.Trace

/-!
# Both stages or an error

An analysis is two requests that are under way together. What one exchange brings is either a record
or the error of that exchange, never both. The analysis puts the two together: it has a result if
both exchanges brought their records, and then the order of the answers does not show; otherwise its
error is that of an exchange that failed.
-/
namespace AnalysisBrowser.Client

variable {α β : Type}

/-- The exchange brings a record: an answer with a status of success and a body that decodes. -/
def Delivers (decode : Json.Decoder α) (x : Exchange) (a : α) : Prop :=
  ∃ status bytes, x = .answered status (.ok bytes) ∧ (200 ≤ status ∧ status ≤ 299) ∧
    Json.decodeText decode (Text.ofMarkedLenient bytes) = .ok a

/-- The connection fails before the whole answer is there. -/
inductive Loses : Exchange → LinkFault → Prop
  | unreachable (fault : LinkFault) : Loses (.unreachable fault) fault
  | unanswered (fault : LinkFault) : Loses (.unanswered fault) fault
  | interrupted {status : Nat} (fault : LinkFault) (success : 200 ≤ status ∧ status ≤ 299) :
      Loses (.answered status (.error fault)) fault

/-- The ways in which an exchange brings an error. -/
inductive Fails (decode : Json.Decoder α) : Exchange → ClientError → Prop
  | network {x : Exchange} {reason : String} (lost : Loses x (.failed reason)) :
      Fails decode x (.network reason)
  | timeout {x : Exchange} (lost : Loses x .timedOut) : Fails decode x .timeout
  | status {status : Nat} (body : Except LinkFault (List UInt8))
      (noSuccess : ¬(200 ≤ status ∧ status ≤ 299)) :
      Fails decode (.answered status body) (.status status)
  | malformed {status : Nat} {bytes : List UInt8} {fault : Json.Fault}
      (success : 200 ≤ status ∧ status ≤ 299)
      (undecodable : Json.decodeText decode (Text.ofMarkedLenient bytes) = .error fault) :
      Fails decode (.answered status (.ok bytes)) (.malformed fault)

/-- What a call makes of an exchange. -/
def received (decode : Json.Decoder α) (x : Exchange) : Except ClientError α :=
  x.text.bind (decodeAnswer decode)

theorem isSuccess_iff {status : Nat} : isSuccess status = true ↔ 200 ≤ status ∧ status ≤ 299 := by
  simp [isSuccess]

theorem text_of_success {status : Nat} (success : 200 ≤ status ∧ status ≤ 299)
    (body : Except LinkFault (List UInt8)) :
    (Exchange.answered status body).text =
      (body.map Text.ofMarkedLenient).mapError .ofFault := by
  simp only [Exchange.text, isSuccess_iff.mpr success]
  cases body <;> rfl

theorem text_of_noSuccess {status : Nat} (noSuccess : ¬(200 ≤ status ∧ status ≤ 299))
    (body : Except LinkFault (List UInt8)) :
    (Exchange.answered status body).text = .error (.status status) :=
  if_neg fun success => noSuccess (isSuccess_iff.mp success)

theorem received_of_delivers {decode : Json.Decoder α} {x : Exchange} {a : α}
    (delivers : Delivers decode x a) : received decode x = .ok a := by
  obtain ⟨status, bytes, rfl, success, decoded⟩ := delivers
  unfold received
  rw [text_of_success success]
  exact congrArg (Except.mapError ClientError.malformed) decoded

theorem received_of_loses (decode : Json.Decoder α) {x : Exchange} {fault : LinkFault}
    (lost : Loses x fault) : received decode x = .error (.ofFault fault) := by
  cases lost with
  | unreachable => rfl
  | unanswered => rfl
  | interrupted fault success =>
    unfold received
    rw [text_of_success success]
    rfl

theorem received_of_fails {decode : Json.Decoder α} {x : Exchange} {e : ClientError}
    (fails : Fails decode x e) : received decode x = .error e := by
  cases fails with
  | network lost => exact received_of_loses decode lost
  | timeout lost => exact received_of_loses decode lost
  | status body noSuccess =>
    unfold received
    rw [text_of_noSuccess noSuccess]
    rfl
  | malformed success undecodable =>
    unfold received
    rw [text_of_success success]
    exact congrArg (Except.mapError ClientError.malformed) undecodable

theorem fails_of_loses (decode : Json.Decoder α) {x : Exchange} {fault : LinkFault}
    (lost : Loses x fault) : ∃ e, Fails decode x e := by
  cases fault with
  | failed reason => exact ⟨_, .network lost⟩
  | timedOut => exact ⟨_, .timeout lost⟩

/-- An exchange brings a record or an error, however it ends. -/
theorem delivers_or_fails (decode : Json.Decoder α) (x : Exchange) :
    (∃ a, Delivers decode x a) ∨ ∃ e, Fails decode x e := by
  cases x with
  | unreachable fault => exact .inr (fails_of_loses decode (.unreachable fault))
  | unanswered fault => exact .inr (fails_of_loses decode (.unanswered fault))
  | answered status body =>
    by_cases success : 200 ≤ status ∧ status ≤ 299
    · cases body with
      | error fault => exact .inr (fails_of_loses decode (.interrupted fault success))
      | ok bytes =>
        cases decoded : Json.decodeText decode (Text.ofMarkedLenient bytes) with
        | ok a => exact .inl ⟨a, status, bytes, rfl, success, decoded⟩
        | error fault => exact .inr ⟨_, .malformed success decoded⟩
    · exact .inr ⟨_, .status body success⟩

theorem received_eq_ok_iff {decode : Json.Decoder α} {x : Exchange} {a : α} :
    received decode x = .ok a ↔ Delivers decode x a := by
  constructor
  · intro result
    rcases delivers_or_fails decode x with ⟨b, delivers⟩ | ⟨e, fails⟩
    · have same := (received_of_delivers delivers).symm.trans result
      cases same
      exact delivers
    · have same := (received_of_fails fails).symm.trans result
      cases same
  · exact received_of_delivers

theorem Delivers.unique {decode : Json.Decoder α} {x : Exchange} {a b : α}
    (delivers : Delivers decode x a) (delivers' : Delivers decode x b) : a = b :=
  Except.ok.inj ((received_of_delivers delivers).symm.trans (received_of_delivers delivers'))

theorem received_eq_error_iff {decode : Json.Decoder α} {x : Exchange} {e : ClientError} :
    received decode x = .error e ↔ Fails decode x e := by
  constructor
  · intro result
    rcases delivers_or_fails decode x with ⟨b, delivers⟩ | ⟨e', fails⟩
    · have same := (received_of_delivers delivers).symm.trans result
      cases same
    · have same := (received_of_fails fails).symm.trans result
      cases same
      exact fails
  · exact received_of_fails

/-- A call that sends nothing, remarks at most, and comes to `x`. -/
def Yields (call : Call α) (x : Except ClientError α) : Prop :=
  ∀ t r, call.run.Ends t r → t.Quiet ∧ r = x

theorem quiet_of_announce {r : Request} {t : Trace} {u : Unit} (run : (announce r).Ends t u) :
    t.Quiet :=
  Program.quiet_of_note run

theorem quiet_of_remark {r : Request} {text : Except ClientError String} {t : Trace} {u : Unit}
    (run : (remark r text).Ends t u) : t.Quiet := by
  unfold remark at run
  split at run
  · exact Program.quiet_of_note run
  · exact Program.quiet_of_note run
  · rw [(Program.ends_done_iff.mp run).1]
    exact Trace.quiet_nil

theorem yields_receive (decode : Json.Decoder α) (r : Request) (x : Exchange) :
    Yields (receive decode r x) (received decode x) := by
  intro t result run
  unfold receive at run
  obtain ⟨before, after, u, rfl, noted, rest⟩ := Program.ends_lift_bind_iff.mp run
  have ended := Program.ends_mk_iff.mp rest
  rw [ended.1, List.append_nil]
  exact ⟨quiet_of_remark noted, ended.2⟩

/-- A run of one call sends its request and makes of the exchange what can be made of it. -/
theorem ends_call (decode : Json.Decoder α) (r : Request) {t : Trace}
    {result : Except ClientError α} (run : (call decode r).run.Ends t result) :
    ∃ before x after, t = before ++ ⟨.exchange r, x⟩ :: after ∧ Trace.Quiet before ∧
      Trace.Quiet after ∧ result = received decode x := by
  unfold call at run
  obtain ⟨before, rest, _, rfl, noted, run⟩ := Program.ends_lift_bind_iff.mp run
  obtain ⟨asked, after, x, rfl, exchange, run⟩ := Program.ends_lift_bind_iff.mp run
  rw [Program.ends_query_iff.mp exchange]
  have taken := yields_receive decode r x _ _ run
  exact ⟨before, x, after, rfl, quiet_of_announce noted, taken.1, taken.2⟩

theorem yields_pair {first : Call α} {second : Call β} {x : Except ClientError α}
    {y : Except ClientError β} {γ : Type} (f : α → β → γ) (left : Yields first x)
    (right : Yields second y) :
    Yields (do let a ← first; let b ← second; return f a b)
      (x.bind fun a => y.map fun b => f a b) := by
  intro t r run
  rcases Program.ends_exceptBind_iff.mp run with ⟨before, after, a, rfl, one, rest⟩ | ⟨e, one, rfl⟩
  · have came := left _ _ one
    rw [← came.2]
    rcases Program.ends_exceptBind_iff.mp rest with
      ⟨middle, last, b, rfl, two, rest⟩ | ⟨e, two, rfl⟩
    · have followed := right _ _ two
      have ended := Program.ends_pure_iff.mp rest
      rw [ended.1, List.append_nil, ended.2, ← followed.2]
      exact ⟨came.1.append followed.1, rfl⟩
    · have followed := right _ _ two
      rw [← followed.2]
      exact ⟨came.1.append followed.1, rfl⟩
  · have came := left _ _ one
    rw [← came.2]
    exact ⟨came.1, rfl⟩

/-- Two outcomes as one: both results, or the error that came first. -/
def joined (x : Except ClientError α) (y : Except ClientError β) (overtaken : Bool) :
    Except ClientError (α × β) :=
  if overtaken then y.bind fun b => x.map fun a => (a, b) else x.bind fun a => y.map fun b => (a, b)

theorem yields_receiveBoth {first : Call α} {second : Call β} {x : Except ClientError α}
    {y : Except ClientError β} (left : Yields first x) (right : Yields second y)
    (overtaken : Bool) : Yields (receiveBoth first second overtaken) (joined x y overtaken) := by
  cases overtaken with
  | false => exact yields_pair Prod.mk left right
  | true => exact yields_pair (fun b a => (a, b)) right left

theorem joined_eq_ok_iff {x : Except ClientError α} {y : Except ClientError β} {overtaken : Bool}
    {a : α} {b : β} : joined x y overtaken = .ok (a, b) ↔ x = .ok a ∧ y = .ok b := by
  unfold joined
  cases x <;> cases y <;> cases overtaken <;> simp [Except.bind, Except.map]

theorem joined_of_error {x : Except ClientError α} {y : Except ClientError β} (overtaken : Bool)
    {e : ClientError} (failed : x = .error e ∨ y = .error e) :
    ∃ e', joined x y overtaken = .error e' ∧ (x = .error e' ∨ y = .error e') := by
  unfold joined
  cases x <;> cases y <;> cases overtaken <;> simp_all [Except.bind, Except.map]

def lexicalRequest (c : Client) (code : String) : Request := c.post "analyze" (analysisRequest code)

def laterRequest (c : Client) (code : String) : Request :=
  c.post "syntax/analyze" (analysisRequest code)

/-- What an analysis makes of two replies. -/
def analyzed (replies : Replies) : Except ClientError ResultModel :=
  (joined (received LexicalAnalysis.decode replies.first)
    (received SyntaxAnalysis.decode replies.second) replies.overtaken).map fun both =>
      .assemble both.1 both.2

theorem analyze_blank (c : Client) {code : String} (blank : Text.isBlankText code = true) :
    c.analyze code = Call.ofExcept (.error .emptySource) :=
  if_pos blank

/-- A run on source that is not blank asks for both stages at once, and for nothing else. -/
theorem ends_analyze (c : Client) {code : String} (source : Text.isBlankText code = false)
    {t : Trace} {r : Except ClientError ResultModel} (run : (c.analyze code).run.Ends t r) :
    ∃ before replies after,
      t = before ++
        ⟨.exchangeBoth (c.lexicalRequest code) (c.laterRequest code), replies⟩ :: after ∧
        Trace.Quiet before ∧ Trace.Quiet after ∧ r = analyzed replies := by
  unfold analyze ensureSource at run
  rw [if_neg (Bool.eq_false_iff.mp source)] at run
  obtain ⟨first, rest, _, rfl, noted, run⟩ := Program.ends_lift_bind_iff.mp run
  obtain ⟨second, rest, _, rfl, noted', run⟩ := Program.ends_lift_bind_iff.mp run
  obtain ⟨asked, rest, replies, rfl, exchange, run⟩ := Program.ends_lift_bind_iff.mp run
  have both := yields_receiveBoth
    (yields_receive LexicalAnalysis.decode (c.lexicalRequest code) replies.first)
    (yields_receive SyntaxAnalysis.decode (c.laterRequest code) replies.second) replies.overtaken
  have quiet := (quiet_of_announce noted).append (quiet_of_announce noted')
  rw [Program.ends_query_iff.mp exchange]
  rcases Program.ends_exceptBind_iff.mp run with
    ⟨taken, last, pair, rfl, take, done⟩ | ⟨e, take, rfl⟩
  · have came := both _ _ take
    have ended := Program.ends_pure_iff.mp done
    refine ⟨first ++ second, replies, taken, ?_, quiet, came.1, ?_⟩
    · rw [ended.1]
      simp [lexicalRequest, laterRequest]
    · rw [ended.2, analyzed, ← came.2]
      rfl
  · have came := both _ _ take
    refine ⟨first ++ second, replies, rest, ?_, quiet, came.1, ?_⟩
    · simp [lexicalRequest, laterRequest]
    · rw [analyzed, ← came.2]
      rfl

theorem analyzed_eq_ok_iff {replies : Replies} {m : ResultModel} :
    analyzed replies = .ok m ↔
      ∃ a b, Delivers LexicalAnalysis.decode replies.first a ∧
        Delivers SyntaxAnalysis.decode replies.second b ∧ m = .assemble a b := by
  unfold analyzed
  constructor
  · intro result
    cases both : joined (received LexicalAnalysis.decode replies.first)
      (received SyntaxAnalysis.decode replies.second) replies.overtaken with
    | error e =>
      rw [both] at result
      cases result
    | ok pair =>
      rw [both] at result
      cases result
      have parts := joined_eq_ok_iff.mp both
      exact ⟨_, _, received_eq_ok_iff.mp parts.1, received_eq_ok_iff.mp parts.2, rfl⟩
  · rintro ⟨a, b, first, second, rfl⟩
    rw [joined_eq_ok_iff.mpr ⟨received_eq_ok_iff.mpr first, received_eq_ok_iff.mpr second⟩]
    rfl

theorem analyzed_of_fails {replies : Replies} {e : ClientError}
    (failed : Fails LexicalAnalysis.decode replies.first e ∨
      Fails SyntaxAnalysis.decode replies.second e) :
    ∃ e', analyzed replies = .error e' ∧ (Fails LexicalAnalysis.decode replies.first e' ∨
      Fails SyntaxAnalysis.decode replies.second e') := by
  have both := joined_of_error replies.overtaken
    (failed.imp received_eq_error_iff.mpr received_eq_error_iff.mpr)
  obtain ⟨e', result, cause⟩ := both
  refine ⟨e', ?_, cause.imp received_eq_error_iff.mp received_eq_error_iff.mp⟩
  unfold analyzed
  rw [result]
  rfl

/-- The request posts to an address a text that is read as the object of the source code alone. -/
structure PostsCode (r : Request) (url code : String) : Prop where
  method : r.method = "POST"
  url : r.url = url
  body : ∃ text d, r.body = some text ∧ Json.Document.read text = ⟨d, none⟩ ∧
    d.Denotes (.object [("code", .string code)])

theorem postsCode_post (c : Client) (path code : String) :
    PostsCode (c.post path (analysisRequest code)) (c.endpoint path) code := by
  have wellFormed : (analysisRequest code).WellFormed := by
    refine .object fun member mem => ?_
    rw [List.mem_singleton.mp mem]
    exact .string code
  obtain ⟨d, read, denotes⟩ := Json.read_compact wellFormed
  exact ⟨rfl, rfl, _, d, rfl, read, denotes⟩

theorem lexicalRequest_ne_laterRequest (c : Client) (code : String) :
    c.lexicalRequest code ≠ c.laterRequest code := by
  intro same
  have urls : c.endpoint "analyze" = c.endpoint "syntax/analyze" := congrArg Request.url same
  unfold AnalyzerConfig.endpoint at urls
  have paths := (String.append_right_inj _).mp urls
  revert paths
  decide

theorem isSeen_of_delivers {decode : Json.Decoder α} {x : Exchange} {a : α}
    (delivers : Delivers decode x a) : x.isSeen = true := by
  obtain ⟨status, bytes, rfl, _⟩ := delivers
  rfl

/-- What a run on a machine sends for source that is not blank, and what it makes of the link. -/
theorem on_analyze (c : Client) {code : String} (source : Text.isBlankText code = false)
    (m : Machine) :
    let replies : Replies := ⟨m.link.exchange (c.lexicalRequest code),
      m.link.exchange (c.laterRequest code),
      m.link.overtakes (c.lexicalRequest code) (c.laterRequest code)⟩
    ((c.analyze code).run.events m).requests = [c.lexicalRequest code, c.laterRequest code] ∧
      ((c.analyze code).run.events m).seen =
        Event.seen ⟨.exchangeBoth (c.lexicalRequest code) (c.laterRequest code), replies⟩ ∧
      ((c.analyze code).run.on m).1 = analyzed replies := by
  have run := ends_analyze c source ((c.analyze code).run.ends_on m)
  obtain ⟨before, replies, after, events, first, last, result⟩ := run
  have answered := (c.analyze code).run.answeredBy_of_mem_events m
    ⟨.exchangeBoth (c.lexicalRequest code) (c.laterRequest code), replies⟩
    (events ▸ List.mem_append_cons_self)
  have known : replies = _ := answered
  subst known
  have step (e : Event) : before ++ e :: after = before ++ ([e] ++ after) := rfl
  refine ⟨?_, ?_, result⟩
  · rw [events, step, Trace.requests_append, Trace.requests_append, first.requests_eq,
      last.requests_eq]
    rfl
  · rw [events, step, Trace.seen_append, Trace.seen_append, first.seen_eq, last.seen_eq]
    simp only [Trace.seen, List.flatMap_singleton, List.nil_append, List.append_nil]

/-- Blank source is refused and nothing is sent. Any other source is posted to both stages and
nowhere else. The two requests differ, so a link may end them in any two ways and in either order:
the analysis has a result exactly if both bring their records, and if one fails its error is that of
an exchange that failed. -/
theorem analyze_joins_stages (c : Client) (code : String) (m : Machine) :
    (Text.isBlankText code = true →
      (c.analyze code).run.on m = (.error .emptySource, m) ∧
        ((c.analyze code).run.events m).requests = []) ∧
    (Text.isBlankText code = false →
      c.lexicalRequest code ≠ c.laterRequest code ∧
      PostsCode (c.lexicalRequest code) (c.baseUrl ++ "/analyze") code ∧
      PostsCode (c.laterRequest code) (c.baseUrl ++ "/syntax/analyze") code ∧
      ((c.analyze code).run.events m).requests = [c.lexicalRequest code, c.laterRequest code] ∧
      (∀ result, ((c.analyze code).run.on m).1 = .ok result ↔
        ∃ a b, Delivers LexicalAnalysis.decode (m.link.exchange (c.lexicalRequest code)) a ∧
          Delivers SyntaxAnalysis.decode (m.link.exchange (c.laterRequest code)) b ∧
          result = .assemble a b) ∧
      (∀ result, ((c.analyze code).run.on m).1 = .ok result →
        ((c.analyze code).run.on m).2.seen =
          m.seen ++ [c.lexicalRequest code, c.laterRequest code]) ∧
      ((∃ e, Fails LexicalAnalysis.decode (m.link.exchange (c.lexicalRequest code)) e ∨
          Fails SyntaxAnalysis.decode (m.link.exchange (c.laterRequest code)) e) →
        ∃ e, ((c.analyze code).run.on m).1 = .error e ∧
          (Fails LexicalAnalysis.decode (m.link.exchange (c.lexicalRequest code)) e ∨
            Fails SyntaxAnalysis.decode (m.link.exchange (c.laterRequest code)) e))) := by
  constructor
  · intro blank
    rw [analyze_blank c blank]
    exact ⟨rfl, rfl⟩
  · intro source
    obtain ⟨sent, seen, outcome⟩ := on_analyze c source m
    have endpoint (path : String) (plain : AnalyzerConfig.dropSlashes path = path) :
        c.endpoint path = c.baseUrl ++ ("/" ++ path) := by
      unfold AnalyzerConfig.endpoint
      rw [plain, String.append_assoc]
    have lexical := postsCode_post c "analyze" code
    have later := postsCode_post c "syntax/analyze" code
    rw [endpoint "analyze" (by decide)] at lexical
    rw [endpoint "syntax/analyze" (by decide)] at later
    rw [outcome]
    refine ⟨lexicalRequest_ne_laterRequest c code, lexical, later, sent,
      fun result => analyzed_eq_ok_iff, ?_, ?_⟩
    · intro result succeeded
      obtain ⟨a, b, first, second, _⟩ := analyzed_eq_ok_iff.mp succeeded
      rw [Program.seen_on, seen]
      simp [Event.seen, isSeen_of_delivers first, isSeen_of_delivers second]
    · rintro ⟨e, failed⟩
      exact analyzed_of_fails failed

/-- A machine whose analyzer answers every request with an empty object, the later one first. -/
def emptyAnswers : Machine where
  disk := ⟨[], []⟩
  userConfig := none
  link := ⟨fun _ => .answered 200 (.ok [0x7b, 0x7d]), fun _ _ => true⟩
  seen := []
  notes := []

/-- Two empty objects make an empty result, and blank source is refused on the same machine. -/
theorem analyze_joins_stages_emptyAnswers :
    (Text.isBlankText "x" = false ∧
      ((analyze .unset "x").run.on emptyAnswers).1 = .ok .empty ∧
      ((analyze .unset "x").run.on emptyAnswers).2.seen =
        [lexicalRequest .unset "x", laterRequest .unset "x"]) ∧
    Text.isBlankText " \n" = true ∧
      ((analyze .unset " \n").run.events emptyAnswers).requests = [] := by
  have source : Text.isBlankText "x" = false := by decide
  have blank : Text.isBlankText " \n" = true := by decide
  obtain ⟨_, _, _, _, result, seen, _⟩ := (analyze_joins_stages .unset "x" emptyAnswers).2 source
  have first : Delivers LexicalAnalysis.decode
      (emptyAnswers.link.exchange (lexicalRequest .unset "x")) .empty :=
    ⟨200, [0x7b, 0x7d], rfl, by decide, rfl⟩
  have second : Delivers SyntaxAnalysis.decode
      (emptyAnswers.link.exchange (laterRequest .unset "x")) .empty :=
    ⟨200, [0x7b, 0x7d], rfl, by decide, rfl⟩
  have succeeded := (result .empty).mpr ⟨.empty, .empty, first, second, rfl⟩
  refine ⟨⟨source, succeeded, seen .empty succeeded⟩, blank, ?_⟩
  exact ((analyze_joins_stages .unset " \n" emptyAnswers).1 blank).2

end AnalysisBrowser.Client
