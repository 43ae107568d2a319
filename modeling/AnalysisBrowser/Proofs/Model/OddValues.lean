import AnalysisBrowser.Proofs.Json.Recovery
import AnalysisBrowser.Proofs.Json.Setting
import AnalysisBrowser.Proofs.Model.Outcomes
import AnalysisBrowser.Tree.Path
import Mathlib.Data.List.Basic

/-!
# Odd values of lenient fields

The severity of a finding and the type of a node are read leniently: a value of another form counts
as none. The value is nevertheless read in full, so a number out of range, a surrogate without its
partner or an array nested too deep is a fault there, and rejects the whole result. A value without
such a flaw changes that field and nothing else, wherever the finding or the node stands.
-/
namespace AnalysisBrowser

open Json (Decoder Schema Tree Plain outcome outcome_mapped outcome_nullAs Replaces SetsField AtIndex
  mapM_of_item outcome_replaces outcome_setsField reads_record_zero decodeText toOption_decodeText
  nestingLimit outcome_lenientText_of_fits outcome_lenientText_of_not_fits eq_ok_of_toOption
  exists_fault_of_toOption isText_compact wellFormed_ofNat)

variable {levels : Nat}

/-- The value under one field of a record is edited. -/
def InField (names : List String) (name : String) (edit : Tree → Tree → Prop) (t u : Tree) : Prop :=
  ∃ w v, edit w v ∧ Replaces names name w v t u

/-- The severity of the syntax finding at an index is set to a value. -/
def SetsSyntaxSeverity (i : Nat) (v : Tree) : Tree → Tree → Prop :=
  InField RecordKind.result.names "syntaxErrors"
    (AtIndex i (SetsField RecordKind.syntaxFinding.names "severity" v))

/-- The severity of the semantic finding at an index is set to a value. -/
def SetsSemanticSeverity (i : Nat) (v : Tree) : Tree → Tree → Prop :=
  InField RecordKind.result.names "semanticErrors"
    (AtIndex i (SetsField RecordKind.semanticFinding.names "severity" v))

/-- The type of the node that is reached by the children with these indices is set to a value. -/
def SetsTypeAt (v : Tree) : List Nat → Tree → Tree → Prop
  | [] => SetsField RecordKind.node.names "type" v
  | i :: is => InField RecordKind.node.names "children" (AtIndex i (SetsTypeAt v is))

def SetsNodeType (path : NodePath) (v : Tree) : Tree → Tree → Prop :=
  InField RecordKind.result.names "ast" (SetsTypeAt v path.indices)

/-- The severity that a value stands for: a string in any letter case, and none for all else. -/
def severityOf (v : Tree) : Option Severity :=
  match v.text? with
  | none => none
  | some s =>
    if Text.upper s = "ERROR" then some .error
    else if Text.upper s = "WARNING" ∨ Text.upper s = "WARN" then some .warning
    else none

/-- The tree with another type of the node that is reached by the children with these indices. -/
def Node.withTypeAt (type : Option String) : List Nat → Node → Node
  | [], n => { n with typeName := type }
  | i :: is, n => { n with children := n.children.modify i (withTypeAt type is) }

/-- The result with another severity of one syntax finding. -/
def ResultModel.withSyntaxSeverity (m : ResultModel) (i : Nat) (severity : Option Severity) :
    ResultModel :=
  { m with syntaxErrors := m.syntaxErrors.modify i fun e => { e with severity } }

/-- The result with another severity of one semantic finding. -/
def ResultModel.withSemanticSeverity (m : ResultModel) (i : Nat) (severity : Option Severity) :
    ResultModel :=
  { m with semanticErrors := m.semanticErrors.modify i fun e => { e with severity } }

def ResultModel.withNodeType (m : ResultModel) (path : NodePath) (type : Option String) :
    ResultModel :=
  { m with ast := m.ast.withTypeAt type path.indices }

theorem severityOf_eq (v : Tree) : v.text?.bind Severity.ofText? = severityOf v := by
  rw [severityOf]
  cases v.text? with
  | none => rfl
  | some s => simp only [Option.bind_some, Severity.ofText?, Bool.or_eq_true, decide_eq_true_eq]

/-- What a severity is read to: nothing is asked of the form of a value that fits. -/
theorem outcome_severity (v : Tree) :
    (v.Fits levels → outcome Severity.decodeLenient levels v = some (severityOf v)) ∧
      (¬ v.Fits levels → outcome Severity.decodeLenient levels v = none) := by
  have mapped : outcome Severity.decodeLenient levels v =
      (outcome Decoder.lenientText levels v).map (·.bind Severity.ofText?) :=
    outcome_mapped Decoder.lenientText _ levels v
  constructor
  · intro fits
    rw [mapped, outcome_lenientText_of_fits fits, Option.map_some, severityOf_eq]
  · intro unfit
    rw [mapped, outcome_lenientText_of_not_fits unfit, Option.map_none]

theorem modify_of_getElem? {β : Type} {bs : List β} {i : Nat} {b : β} (found : bs[i]? = some b)
    (g : β → β) : bs.modify i g = bs.set i (g b) := by
  rw [List.modify_eq_set_getElem?, found]
  rfl

section Lists

variable {α β γ : Type} {s : Schema α} {name : String} {decode : Decoder β} {set : List β → α → α}
  {t u : Tree} {a : α} {i : Nat} {edit : Tree → Tree → Prop} {o : Option γ} {put : γ → β → β}
  (lawful : s.Lawful) (each : ∀ f ∈ s.fields, Plain f.change levels)
  (plain : Plain decode (levels - 1)) (keeps : s.Keeps name (nullableList decode) set)
  (get : α → List β) (get_set : ∀ bs a, get (set bs a) = bs)
  (decoded : outcome s.decode (levels + 1) t = some a)
  (inField : InField (s.fields.map Json.Field.name) name (AtIndex i edit) t u)

include lawful each plain keeps get_set decoded inField

/-- Where an item of a list under a field is edited, the record has the item decoded anew. -/
theorem outcome_inList :
    ∃ x y b, edit x y ∧ outcome decode (levels - 1) x = some b ∧ (get a)[i]? = some b ∧
      outcome s.decode (levels + 1) u =
        (outcome decode (levels - 1) y).map fun c => set ((get a).set i c) a := by
  obtain ⟨w, v, item, replaced⟩ := inField
  obtain ⟨⟨a, bs, first, rfl⟩, second⟩ := outcome_replaces lawful each keeps decoded replaced
  cases item with
  | @item x y before after place inner =>
    subst place
    rw [outcome_nullableList_array plain] at first second
    cases levels with
    | zero => cases first
    | succ levels =>
      obtain ⟨b, itemDecoded, found, others⟩ := mapM_of_item first
      refine ⟨x, y, b, inner, itemDecoded, by rw [get_set]; exact found, ?_⟩
      rw [second, Tree.list?, others, get_set, Option.map_map]
      rfl

/-- Where every edit of an item puts a value in it, one item of the list is modified. -/
theorem outcome_modifies
    (item : ∀ {x y : Tree} {b : β}, edit x y → outcome decode (levels - 1) x = some b →
      outcome decode (levels - 1) y = o.map (put · b)) :
    i < (get a).length ∧
      outcome s.decode (levels + 1) u = o.map fun c => set ((get a).modify i (put c)) a := by
  obtain ⟨x, y, b, inner, before, found, all⟩ :=
    outcome_inList lawful each plain keeps get get_set decoded inField
  refine ⟨(List.getElem?_eq_some_iff.mp found).1, ?_⟩
  rw [all, item inner before, Option.map_map]
  simp only [modify_of_getElem? found]
  rfl

end Lists

theorem keeps_syntaxSeverity : SyntaxFinding.schema.Keeps "severity" Severity.decodeLenient
    fun severity e => { e with severity } :=
  ⟨⟨false, by simp [SyntaxFinding.schema, Json.Field.defaulted]⟩, fun _ _ _ => rfl⟩

theorem keeps_semanticSeverity : SemanticFinding.schema.Keeps "severity" Severity.decodeLenient
    fun severity e => { e with severity } :=
  ⟨⟨false, by simp [SemanticFinding.schema, Json.Field.defaulted]⟩, fun _ _ _ => rfl⟩

theorem keeps_syntaxErrors : ResultModel.schema.Keeps "syntaxErrors"
    (nullableList SyntaxFinding.decode) fun syntaxErrors m => { m with syntaxErrors } :=
  ⟨⟨false, by simp [ResultModel.schema, Json.Field.defaulted]⟩, fun _ _ _ => rfl⟩

theorem keeps_semanticErrors : ResultModel.schema.Keeps "semanticErrors"
    (nullableList SemanticFinding.decode) fun semanticErrors m => { m with semanticErrors } :=
  ⟨⟨false, by simp [ResultModel.schema, Json.Field.defaulted]⟩, fun _ _ _ => rfl⟩

theorem outcome_setsSyntaxSeverity {i : Nat} {v t u : Tree} {m : ResultModel}
    (edit : SetsSyntaxSeverity i v t u) (decoded : outcome ResultModel.decode 127 t = some m) :
    i < m.syntaxErrors.length ∧
      outcome ResultModel.decode 127 u =
        (outcome Severity.decodeLenient 124 v).map (m.withSyntaxSeverity i) := by
  refine outcome_modifies (RecordKind.lawful .result) plainFields_resultModel plain_syntaxFinding
    keeps_syntaxErrors ResultModel.syntaxErrors (fun _ _ => rfl) decoded edit ?_
  intro x y e inner item
  exact outcome_setsField (RecordKind.lawful .syntaxFinding) plainFields_syntaxFinding
    keeps_syntaxSeverity item inner

theorem outcome_setsSemanticSeverity {i : Nat} {v t u : Tree} {m : ResultModel}
    (edit : SetsSemanticSeverity i v t u) (decoded : outcome ResultModel.decode 127 t = some m) :
    i < m.semanticErrors.length ∧
      outcome ResultModel.decode 127 u =
        (outcome Severity.decodeLenient 124 v).map (m.withSemanticSeverity i) := by
  refine outcome_modifies (RecordKind.lawful .result) plainFields_resultModel plain_semanticFinding
    keeps_semanticErrors ResultModel.semanticErrors (fun _ _ => rfl) decoded edit ?_
  intro x y e inner item
  exact outcome_setsField (RecordKind.lawful .semanticFinding) plainFields_semanticFinding
    keeps_semanticSeverity item inner

theorem solid_of_replaces {names : List String} {name : String} {w v t u : Tree}
    (edit : Replaces names name w v t u) : t ≠ .null ∧ u ≠ .null := by
  cases edit <;> exact ⟨nofun, nofun⟩

theorem solid_of_setsTypeAt {v t u : Tree} {is : List Nat} (edit : SetsTypeAt v is t u) :
    t ≠ .null ∧ u ≠ .null := by
  cases is with
  | nil =>
    obtain ⟨w, replaced⟩ | added := edit
    · exact solid_of_replaces replaced
    · cases added <;> exact ⟨nofun, nofun⟩
  | cons i is =>
    obtain ⟨w, x, _, replaced⟩ := edit
    exact solid_of_replaces replaced

theorem exists_level {t : Tree} {n : Node} (decoded : outcome Node.decode levels t = some n) :
    ∃ below, levels = below + 1 := by
  cases levels with
  | zero =>
    rw [outcome_node, reads_record_zero.outcome_eq] at decoded
    cases decoded
  | succ below => exact ⟨below, rfl⟩

theorem keeps_type : (Node.schema Node.decode).Keeps "type" Decoder.lenientText
    fun typeName n => { n with typeName } :=
  ⟨⟨false, by simp [Node.schema, Json.Field.defaulted]⟩, fun _ _ _ => rfl⟩

theorem keeps_children : (Node.schema Node.decode).Keeps "children" (nullableList Node.decode)
    fun children n => { n with children } :=
  ⟨⟨false, by simp [Node.schema, Json.Field.defaulted, nullableList]⟩, fun _ _ _ => rfl⟩

theorem keeps_ast : ResultModel.schema.Keeps "ast" nullableNode fun ast m => { m with ast } :=
  ⟨⟨false, by simp [ResultModel.schema, Json.Field.defaulted]⟩, fun _ _ _ => rfl⟩

/-- The type of a node stands one level below the node, and a child two. -/
theorem outcome_setsTypeAt {v t u : Tree} {is : List Nat} {n : Node}
    (edit : SetsTypeAt v is t u) (decoded : outcome Node.decode levels t = some n) :
    (NodePath.follow is n).isSome = true ∧
      outcome Node.decode levels u =
        (outcome Decoder.lenientText (levels - (2 * is.length + 1)) v).map
          fun type => n.withTypeAt type is := by
  obtain ⟨below, rfl⟩ := exists_level decoded
  have record := outcome_node (below + 1)
  have plain (levels : Nat) := plainFields_node (plain_node (levels - 1))
  -- A step of the path goes through the array of the children to an item of it: two levels.
  induction is generalizing t u n below with
  | nil =>
    rw [record] at decoded ⊢
    exact ⟨rfl, outcome_setsField (lawful_node _) (plain below) keeps_type decoded edit⟩
  | cons i is ih =>
    rw [record] at decoded
    obtain ⟨x, y, c, inner, item, found, all⟩ := outcome_inList (lawful_node _) (plain below)
      (plain_node _) keeps_children Node.children (fun _ _ => rfl) decoded edit
    obtain ⟨next, under⟩ := exists_level item
    rw [under] at item all
    obtain ⟨reached, child⟩ := ih inner next item (outcome_node _)
    have deep : next + 1 - (2 * is.length + 1) = below + 1 - (2 * (i :: is).length + 1) := by
      rw [List.length_cons]
      omega
    constructor
    · rw [NodePath.follow, found, Option.bind_some]
      exact reached
    · rw [record, all, child, deep, Option.map_map]
      simp only [Node.withTypeAt, modify_of_getElem? found]
      rfl

theorem outcome_setsNodeType {path : NodePath} {v t u : Tree} {m : ResultModel}
    (edit : SetsNodeType path v t u) (decoded : outcome ResultModel.decode 127 t = some m) :
    (path.resolve m.ast).isSome = true ∧
      outcome ResultModel.decode 127 u =
        (outcome Decoder.lenientText (125 - 2 * path.depth) v).map (m.withNodeType path) := by
  have lawful : ResultModel.schema.Lawful := RecordKind.lawful .result
  obtain ⟨w, x, inner, replaced⟩ := edit
  obtain ⟨solid, still⟩ := solid_of_setsTypeAt inner
  obtain ⟨⟨m, n, first, rfl⟩, second⟩ :=
    outcome_replaces lawful plainFields_resultModel keeps_ast decoded replaced
  rw [nullableNode, outcome_nullAs _ (plain_node _) solid] at first
  rw [nullableNode, outcome_nullAs _ (plain_node _) still] at second
  obtain ⟨reached, all⟩ := outcome_setsTypeAt inner first
  refine ⟨reached, ?_⟩
  have deep : 126 - (2 * path.indices.length + 1) = 125 - 2 * path.depth := by
    rw [NodePath.depth]
    omega
  rw [ResultModel.decode, second, all, deep, Option.map_map]
  rfl

/-- A result with one finding of a severity, and with a node of a type under the root. -/
def oddResult (severity type : Json) : Json :=
  .object
    [("ast", .object [("children", .array [.object [("type", type)]])]),
      ("syntaxErrors", .array [.object
        [("message", .string "m"), ("line", .number (.ofNat 1)), ("position", .number (.ofNat 2)),
          ("errorType", .string "X"), ("severity", severity)]])]

def oddModel (severity : Option Severity) (type : Option String) : ResultModel :=
  { ResultModel.empty with
    ast := { Node.empty with children := [{ Node.empty with typeName := type }] }
    syntaxErrors := [⟨"m", 1, 2, "X", none, none, severity⟩] }

/-- A number of the grammar that no double is near to. -/
def hugeNumber : Json := .number ⟨false, ['1'], [], some ⟨false, ['9', '9', '9']⟩⟩

theorem isText_oddResult {severity type : Json} (left : severity.WellFormed)
    (right : type.WellFormed) :
    (oddResult severity type).tree.IsText (oddResult severity type).compact := by
  refine isText_compact (.object ?_)
  simp only [List.forall_mem_cons]
  refine ⟨.object ?_, .array ?_, nofun⟩
  · simp only [List.forall_mem_cons]
    refine ⟨.array ?_, nofun⟩
    simp only [List.forall_mem_cons]
    exact ⟨.object (by simpa using right), nofun⟩
  · simp only [List.forall_mem_cons]
    refine ⟨.object ?_, nofun⟩
    simp only [List.forall_mem_cons]
    exact ⟨.string _, .number (wellFormed_ofNat 1), .number (wellFormed_ofNat 2), .string _, left,
      nofun⟩

theorem wellFormed_hugeNumber : hugeNumber.WellFormed := by
  refine .number ⟨.inr ⟨'1', [], rfl, by decide⟩, List.forall_mem_singleton.mpr rfl, nofun, ?_⟩
  intro e equal
  cases equal
  simp only [List.forall_mem_cons]
  exact ⟨nofun, rfl, rfl, rfl, nofun⟩

theorem decode_oddResult {severity type : Json} {m : ResultModel} (left : severity.WellFormed)
    (right : type.WellFormed)
    (decoded : outcome ResultModel.decode 127 (oddResult severity type).tree = some m) :
    decodeText ResultModel.decode (oddResult severity type).compact = .ok m :=
  eq_ok_of_toOption
    ((toOption_decodeText plain_resultModel (isText_oddResult left right)).trans decoded)

theorem setsSyntaxSeverity_oddResult (before after type : Json) :
    SetsSyntaxSeverity 0 after.tree (oddResult before type).tree (oddResult after type).tree :=
  ⟨_, _, .item [] [] rfl (.inl ⟨before.tree, .member [_, _, _, _] []⟩), .member [_] []⟩

theorem setsNodeType_oddResult (severity before after : Json) :
    SetsNodeType ⟨[0]⟩ after.tree (oddResult severity before).tree (oddResult severity after).tree :=
  ⟨_, _, ⟨_, _, .item [] [] rfl (.inl ⟨before.tree, .member [] []⟩), .member [] []⟩, .member [] [_]⟩

/-- The text is decoded to the result if a value in it fits, and is rejected if it does not. -/
structure DecodesIf (fits : Prop) (text : String) (m : ResultModel) : Prop where
  decoded : fits → decodeText ResultModel.decode text = .ok m
  rejected : ¬ fits → ∃ fault, decodeText ResultModel.decode text = .error fault

theorem decodesIf_of_outcome {α : Type} {fits : Prop} {text : String} {u : Tree} {o : Option α}
    {value : α} {put : α → ResultModel} (isText : u.IsText text)
    (all : outcome ResultModel.decode 127 u = o.map put)
    (read : (fits → o = some value) ∧ (¬ fits → o = none)) : DecodesIf fits text (put value) := by
  have answer := toOption_decodeText plain_resultModel isText
  rw [nestingLimit, all] at answer
  constructor
  · intro fit
    rw [read.1 fit, Option.map_some] at answer
    exact eq_ok_of_toOption answer
  · intro unfit
    rw [read.2 unfit, Option.map_none] at answer
    exact exists_fault_of_toOption answer

/-- A severity or a type is set to any value, anywhere in any text that is decoded to a result. The
edited text is decoded to the result with that severity or type only, and it is rejected exactly when
the value does not fit into the levels that are left at its place. -/
theorem decode_of_oddValue {t u v : Tree} {text edited : String} {m : ResultModel}
    (isText : t.IsText text) (decoded : decodeText ResultModel.decode text = .ok m)
    (isEdited : u.IsText edited) :
    (∀ i, SetsSyntaxSeverity i v t u → i < m.syntaxErrors.length ∧
      DecodesIf (v.Fits 124) edited (m.withSyntaxSeverity i (severityOf v))) ∧
    (∀ i, SetsSemanticSeverity i v t u → i < m.semanticErrors.length ∧
      DecodesIf (v.Fits 124) edited (m.withSemanticSeverity i (severityOf v))) ∧
    ∀ path : NodePath, SetsNodeType path v t u → (path.resolve m.ast).isSome = true ∧
      DecodesIf (v.Fits (125 - 2 * path.depth)) edited (m.withNodeType path v.text?) := by
  have base : outcome ResultModel.decode 127 t = some m := by
    have all := toOption_decodeText plain_resultModel isText
    rw [decoded] at all
    exact all.symm
  refine ⟨?_, ?_, ?_⟩
  · intro i edit
    obtain ⟨inside, all⟩ := outcome_setsSyntaxSeverity edit base
    exact ⟨inside, decodesIf_of_outcome isEdited all (outcome_severity v)⟩
  · intro i edit
    obtain ⟨inside, all⟩ := outcome_setsSemanticSeverity edit base
    exact ⟨inside, decodesIf_of_outcome isEdited all (outcome_severity v)⟩
  · intro path edit
    obtain ⟨reached, all⟩ := outcome_setsNodeType edit base
    exact ⟨reached, decodesIf_of_outcome isEdited all
      ⟨outcome_lenientText_of_fits, outcome_lenientText_of_not_fits⟩⟩

/-- An object is taken for no severity, and a number out of range for a type rejects the text. -/
theorem decode_of_oddValue_object_and_huge :
    let level : Json := .object [("level", .array [.null])]
    decodeText ResultModel.decode (oddResult (.string "Warn") (.string "X")).compact =
        .ok (oddModel (some .warning) (some "X")) ∧
      decodeText ResultModel.decode (oddResult level (.string "X")).compact =
        .ok (oddModel none (some "X")) ∧
      ∃ fault, decodeText ResultModel.decode (oddResult (.string "Warn") hugeNumber).compact =
        .error fault := by
  intro level
  have wellFormed : level.WellFormed :=
    .object (List.forall_mem_singleton.mpr (.array (List.forall_mem_singleton.mpr .null)))
  have decoded : decodeText ResultModel.decode (oddResult (.string "Warn") (.string "X")).compact =
      .ok (oddModel (some .warning) (some "X")) := decode_oddResult (.string _) (.string _) rfl
  have isText := isText_oddResult (.string "Warn") (.string "X")
  refine ⟨decoded, ?_, ?_⟩
  · have fits : level.tree.Fits 124 :=
      .object (List.forall_mem_singleton.mpr rfl)
        (List.forall_mem_singleton.mpr (.array (List.forall_mem_singleton.mpr .null)))
    obtain ⟨findings, -, -⟩ :=
      decode_of_oddValue isText decoded (isText_oddResult wellFormed (.string "X"))
    exact (findings 0 (setsSyntaxSeverity_oddResult _ level _)).2.decoded fits
  · have unfit : ¬ hugeNumber.tree.Fits 123 := by
      rintro (_ | _ | range)
      exact range 0 rfl
    obtain ⟨-, -, types⟩ :=
      decode_of_oddValue isText decoded (isText_oddResult (.string "Warn") wellFormed_hugeNumber)
    exact (types ⟨[0]⟩ (setsNodeType_oddResult _ _ hugeNumber)).2.rejected unfit

/-- A severity that is a number out of range takes the whole result down. -/
theorem exists_oddValue_rejected :
    (oddResult .null .null).tree.IsText (oddResult .null .null).compact ∧
      (oddResult hugeNumber .null).tree.IsText (oddResult hugeNumber .null).compact ∧
      SetsSyntaxSeverity 0 hugeNumber.tree (oddResult .null .null).tree
        (oddResult hugeNumber .null).tree ∧
      decodeText ResultModel.decode (oddResult .null .null).compact = .ok (oddModel none none) ∧
      ∃ fault, decodeText ResultModel.decode (oddResult hugeNumber .null).compact = .error fault := by
  have isText := isText_oddResult wellFormed_hugeNumber .null
  refine ⟨isText_oddResult .null .null, isText, setsSyntaxSeverity_oddResult _ _ _,
    decode_oddResult .null .null rfl, ?_⟩
  have answer := toOption_decodeText plain_resultModel isText
  exact exists_fault_of_toOption (answer.trans rfl)

end AnalysisBrowser
