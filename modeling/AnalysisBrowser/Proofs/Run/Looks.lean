import AnalysisBrowser.Run.Commands
import AnalysisBrowser.Proofs.Machine.Effects

/-!
# Runs that only look

Every command but the one that makes a configuration reads what it is given and sends requests. It
asks for no directory and for no file, whatever it is answered.
-/
namespace AnalysisBrowser

open Program (asksOnly_query asksOnly_note)

/-- A program that only looks at files. -/
abbrev Program.Looks {α : Type} (p : Program α) : Prop := p.AsksOnly Query.OnlyLooks

namespace Run

variable {α ε : Type}

theorem looks_unless_fail {c : Prop} [Decidable c] {e : RunError} {next : Unit → Run α}
    (looks : (next ()).run.Looks) : (if c then (fail e >>= next) else next ()).run.Looks := by
  split
  · trivial
  · exact looks

end Run

theorem looks_firstPresent (paths : List String) : (firstPresent paths).Looks := by
  induction paths with
  | nil => trivial
  | cons path rest ih =>
    refine .bind (asksOnly_query trivial) fun found => ?_
    cases found with
    | true => trivial
    | false => exact ih

theorem looks_discover : discover.Looks := by
  refine .bind (looks_firstPresent configNames) fun found => ?_
  cases found with
  | some path => trivial
  | none =>
    refine .bind (asksOnly_query trivial) fun user => ?_
    cases user with
    | some path => exact looks_firstPresent [path]
    | none => trivial

theorem looks_chooseConfig (explicit : Option String) : (chooseConfig explicit).run.Looks := by
  cases explicit with
  | none => exact .lift looks_discover
  | some path =>
    refine .liftBind (asksOnly_query trivial) fun found => ?_
    cases found with
    | true => trivial
    | false => trivial

theorem looks_readTextFile (path : String) : (readTextFile path).Looks := by
  refine .bind (asksOnly_query trivial) fun answer => ?_
  cases answer with
  | error e => trivial
  | ok bytes =>
    dsimp only
    split
    · trivial
    · trivial

theorem looks_readRecord {ε α : Type} (decode : String → Except ε α) (path : String) :
    (readRecord decode path).Looks := by
  refine .bind (looks_readTextFile path) fun answer => ?_
  cases answer with
  | error e => trivial
  | ok text => trivial

theorem looks_readConfig (path : String) : (readConfig path).run.Looks :=
  .liftBind (asksOnly_note _ _ _) fun _ =>
    .liftBind (looks_readRecord _ path) fun _ => trivial

theorem looks_loadConfig (explicit : Option String) : (loadConfig explicit).run.Looks := by
  refine .exceptBind (looks_chooseConfig explicit) fun chosen => ?_
  cases chosen with
  | some path =>
    refine .exceptBind (looks_readConfig path) fun config => ?_
    dsimp only
    split
    · trivial
    · trivial
  | none =>
    refine .liftBind (asksOnly_note _ _ _) fun _ => .exceptBind trivial fun config => ?_
    dsimp only
    split
    · trivial
    · trivial

theorem looks_prepare (overrides : Overrides) : (prepare overrides).run.Looks := by
  refine .exceptBind (looks_loadConfig overrides.config) fun config => ?_
  dsimp only
  split
  · trivial
  · trivial

namespace Client

theorem looks_remark (r : Request) (result : Except ClientError String) :
    (remark r result).Looks := by
  unfold remark
  split
  · exact asksOnly_note _ _ _
  · exact asksOnly_note _ _ _
  · trivial

theorem looks_receive {α : Type} (decode : Json.Decoder α) (r : Request) (exchange : Exchange) :
    (receive decode r exchange).run.Looks :=
  .liftBind (looks_remark r exchange.text) fun _ => trivial

theorem looks_call {α : Type} (decode : Json.Decoder α) (r : Request) :
    (call decode r).run.Looks :=
  .liftBind (asksOnly_note _ _ _) fun _ =>
    .liftBind (asksOnly_query trivial) fun exchange => looks_receive decode r exchange

theorem looks_ensureSource {α : Type} {code : String} {next : Call α} (looks : next.run.Looks) :
    (ensureSource code next).run.Looks := by
  unfold ensureSource
  split
  · trivial
  · exact looks

theorem looks_validate (c : Client) (code : String) (structureType : StructureType) :
    (c.validate code structureType).run.Looks :=
  looks_ensureSource (looks_call _ _)

theorem looks_receiveBoth {α β : Type} {first : Call α} {second : Call β} (overtaken : Bool)
    (one : first.run.Looks) (other : second.run.Looks) :
    (receiveBoth first second overtaken).run.Looks := by
  unfold receiveBoth
  split
  · exact .exceptBind other fun _ => .exceptBind one fun _ => trivial
  · exact .exceptBind one fun _ => .exceptBind other fun _ => trivial

theorem looks_analyze (c : Client) (code : String) : (c.analyze code).run.Looks := by
  refine looks_ensureSource ?_
  refine .liftBind (asksOnly_note _ _ _) fun _ => .liftBind (asksOnly_note _ _ _) fun _ => ?_
  refine .liftBind (asksOnly_query trivial) fun replies => ?_
  exact .exceptBind (looks_receiveBoth _ (looks_receive _ _ _) (looks_receive _ _ _))
    fun _ => trivial

theorem looks_remarkHealth (service : Service) (x : Exchange) :
    (remarkHealth service x).Looks := by
  unfold remarkHealth
  split
  · exact asksOnly_note _ _ _
  · exact asksOnly_note _ _ _
  · exact asksOnly_note _ _ _
  · exact asksOnly_note _ _ _
  · trivial

theorem looks_health (c : Client) : c.health.Looks := by
  refine .bind (asksOnly_query trivial) fun replies => ?_
  dsimp only
  split
  · exact .bind (looks_remarkHealth _ _) fun _ => .bind (looks_remarkHealth _ _) fun _ => trivial
  · exact .bind (looks_remarkHealth _ _) fun _ => .bind (looks_remarkHealth _ _) fun _ => trivial

end Client

theorem looks_readSource (path : String) : (readSource path).run.Looks :=
  .liftBind (looks_readTextFile path) fun _ =>
    .exceptBind trivial fun _ => Run.looks_unless_fail trivial

theorem looks_askAnalyzer {α : Type} (client : Client) {call : Call α} (looks : call.run.Looks) :
    (askAnalyzer client call).run.Looks :=
  .liftBind looks fun _ => trivial

theorem looks_loadModel (client : Client) (source : Source) :
    (loadModel client source).run.Looks := by
  cases source with
  | saved path => exact .liftBind (looks_readRecord _ path) fun _ => trivial
  | code path =>
    refine .exceptBind (looks_readSource path) fun code => ?_
    refine .exceptBind (looks_askAnalyzer client (client.looks_analyze code)) fun model => ?_
    exact .liftBind (asksOnly_note _ _ _) fun _ => trivial

theorem looks_remarkViolations (violations : List ContractViolation) :
    (remarkViolations violations).Looks := by
  induction violations with
  | nil => trivial
  | cons v rest ih => exact .bind (asksOnly_note _ _ _) fun _ => ih

theorem looks_openSession (model : ResultModel) (depth : Nat) : (openSession model depth).Looks :=
  .bind (looks_remarkViolations _) fun _ => trivial

theorem looks_toggleAll (s : Session) (toggles : List NodePath) : (toggleAll s toggles).Looks := by
  induction toggles generalizing s with
  | nil => trivial
  | cons p rest ih =>
    unfold toggleAll
    split
    · exact .bind (asksOnly_note _ _ _) fun _ => ih s
    · exact .bind (asksOnly_note _ _ _) fun _ => ih (s.toggle p)

/-- A command that shows a result loads the result and goes on from it. -/
theorem looks_loaded {overrides : Overrides} {source : Source}
    {onward : Config × Format → Run Report} {next : Config → Format → ResultModel → Run Report}
    (loads : ∀ config format,
      onward (config, format) = loadModel config.analyzer source >>= next config format)
    (looks : ∀ config format m, (next config format m).run.Looks) :
    (prepare overrides >>= onward).run.Looks := by
  refine .exceptBind (looks_prepare overrides) fun ⟨config, format⟩ => ?_
  rw [loads]
  exact .exceptBind (looks_loadModel _ source) (looks _ _)

theorem Command.looks_run {c : Command} (other : ∀ target, c ≠ .init target) : c.run.run.Looks := by
  cases c with
  | analyze source overrides expandAll =>
    refine looks_loaded (fun _ _ => rfl) fun _ _ _ => ?_
    exact .liftBind (looks_openSession _ _) fun _ => trivial
  | tree source overrides options =>
    refine looks_loaded (fun _ _ => rfl) fun _ _ _ => ?_
    exact .liftBind (looks_openSession _ _) fun _ =>
      .liftBind (looks_toggleAll _ _) fun _ => trivial
  | symbols source overrides filter =>
    refine looks_loaded (fun _ _ => rfl) fun _ _ _ => ?_
    exact .liftBind (looks_openSession _ _) fun _ => trivial
  | errors source overrides origin =>
    refine looks_loaded (fun _ _ => rfl) fun _ _ _ => ?_
    exact .liftBind (looks_openSession _ _) fun _ => trivial
  | tokens source overrides =>
    refine looks_loaded (fun _ _ => rfl) fun _ _ _ => ?_
    trivial
  | validate path structureType overrides =>
    exact .exceptBind (looks_prepare overrides) fun _ => .exceptBind (looks_readSource path)
      fun code => .exceptBind (looks_askAnalyzer _ (Client.looks_validate _ code structureType))
        fun _ => trivial
  | health overrides =>
    exact .exceptBind (looks_prepare overrides) fun _ =>
      .liftBind (Client.looks_health _) fun _ => trivial
  | init target => exact absurd rfl (other target)

end AnalysisBrowser
