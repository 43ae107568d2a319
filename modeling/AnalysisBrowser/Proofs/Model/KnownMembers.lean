import AnalysisBrowser.Proofs.Model.Outcomes

/-!
# Only known members matter

What a result is decoded to depends on the known members of its records. Three edits at any depth
leave it alone: the members of an object in another order, a further member of a record whose name
is no field's, and a null that is left out where the record takes null for nothing.

The records of a result stand inside each other as `RecordKind.parts` says. An edit inside one of
them is followed outwards: each enclosing record reads the same, since the field that holds the
edited record does.
-/
namespace AnalysisBrowser

open Json (Decoder Doc Field Schema Tree Plain outcome outcome_mapped outcome_nullAs
  outcome_record reads_record_zero mapM_congr_item filled?_congr_member filled?_congr_item
  filled?_insert_unknown filled?_insert_null)

namespace RecordKind

/-- The fields for which null says the same as absence. -/
def nullable : RecordKind → List String
  | .result =>
    ["tokens", "lexicalErrors", "ast", "syntaxErrors", "semanticErrors", "symbolTable"]
  | .syntaxAnalysis => ["ast", "syntaxErrors", "semanticErrors", "symbolTable"]
  | .lexicalAnalysis => ["tokens", "errors"]
  | .syntaxFinding => ["expected", "found", "severity"]
  | .semanticFinding => ["symbol", "symbolType", "severity"]
  | .symbol => ["attributes"]
  | .node => ["type", "value", "children", "attributes"]
  | .token | .lexicalError => []

/-- The fields that hold a single record. -/
def records : RecordKind → List (String × RecordKind)
  | .result | .syntaxAnalysis => [("ast", .node)]
  | _ => []

/-- The fields that hold an array of records. -/
def arrays : RecordKind → List (String × RecordKind)
  | .result =>
    [("tokens", .token), ("lexicalErrors", .lexicalError), ("syntaxErrors", .syntaxFinding),
      ("semanticErrors", .semanticFinding), ("symbolTable", .symbol)]
  | .syntaxAnalysis =>
    [("syntaxErrors", .syntaxFinding), ("semanticErrors", .semanticFinding),
      ("symbolTable", .symbol)]
  | .lexicalAnalysis => [("tokens", .token), ("errors", .lexicalError)]
  | .node => [("children", .node)]
  | _ => []

theorem plainFields (kind : RecordKind) (levels : Nat) :
    ∀ f ∈ kind.schema.fields, Plain f.change levels := by
  cases kind with
  | result => exact plainFields_resultModel
  | syntaxAnalysis => exact plainFields_syntaxAnalysis
  | lexicalAnalysis => exact plainFields_lexicalAnalysis
  | token => exact plainFields_token
  | lexicalError => exact plainFields_lexicalError
  | syntaxFinding => exact plainFields_syntaxFinding
  | semanticFinding => exact plainFields_semanticFinding
  | symbol => exact plainFields_symbol
  | node => exact plainFields_node (plain_node _)

theorem plain (kind : RecordKind) (levels : Nat) : Plain kind.decode levels := by
  cases kind with
  | result => exact plain_resultModel
  | syntaxAnalysis => exact plain_syntaxAnalysis
  | lexicalAnalysis => exact plain_lexicalAnalysis
  | token => exact plain_token
  | lexicalError => exact plain_lexicalError
  | syntaxFinding => exact plain_syntaxFinding
  | semanticFinding => exact plain_semanticFinding
  | symbol => exact plain_symbol
  | node => exact plain_node levels

theorem outcome_schema (kind : RecordKind) (levels : Nat) :
    outcome kind.decode levels = outcome kind.schema.decode levels := by
  cases kind with
  | node => exact outcome_node levels
  | _ => rfl

theorem outcome_zero (kind : RecordKind) : outcome kind.decode 0 = fun _ => none :=
  (kind.outcome_schema 0).trans reads_record_zero.outcome_eq

theorem outcome_succ (kind : RecordKind) (levels : Nat) :
    outcome kind.decode (levels + 1) = kind.schema.filled? levels :=
  (kind.outcome_schema (levels + 1)).trans (outcome_record kind.lawful (kind.plainFields levels))

theorem blankOnNull_of_nullable (kind : RecordKind) :
    ∀ f ∈ kind.schema.fields, f.name ∈ kind.nullable → f.BlankOnNull kind.schema.blank := by
  cases kind <;>
    simp only [schema, ResultModel.schema, SyntaxAnalysis.schema, LexicalAnalysis.schema,
      Token.schema, LexicalError.schema, SyntaxFinding.schema, SemanticFinding.schema,
      Symbol.schema, Node.schema, List.forall_mem_cons, List.not_mem_nil, false_implies,
      implies_true, and_true] <;>
    repeat' apply And.intro
  all_goals
    first
    | exact fun mem => absurd mem (by decide)
    | exact fun _ => ⟨rfl, fun _ => ⟨_, rfl, rfl⟩⟩

theorem nullable_subset (kind : RecordKind) : kind.nullable ⊆ kind.names := by
  cases kind <;> decide

/-- A field that holds a record sets it, or a default for null. -/
theorem change_of_record {kind inner : RecordKind} :
    ∀ f ∈ kind.schema.fields, (f.name, inner) ∈ kind.records →
      ∃ (default : inner.Value) (set : inner.Value → kind.Value → kind.Value),
        f.change = fun levels d => (Decoder.nullAs default inner.decode levels d).map set := by
  cases kind <;>
    simp only [schema, ResultModel.schema, SyntaxAnalysis.schema, List.forall_mem_cons,
      List.not_mem_nil, false_implies, implies_true, and_true, records] <;>
    repeat' apply And.intro
  all_goals
    intro holds
    simp [Field.defaulted] at holds
  all_goals
    subst holds
    exact ⟨_, _, rfl⟩

/-- A field that holds an array of records sets their list. -/
theorem change_of_array {kind inner : RecordKind} :
    ∀ f ∈ kind.schema.fields, (f.name, inner) ∈ kind.arrays →
      ∃ set : List inner.Value → kind.Value → kind.Value,
        f.change = fun levels d => (nullableList inner.decode levels d).map set := by
  cases kind <;>
    simp only [schema, ResultModel.schema, SyntaxAnalysis.schema, LexicalAnalysis.schema,
      Node.schema, List.forall_mem_cons, List.not_mem_nil, false_implies, implies_true, and_true,
      arrays] <;>
    repeat' apply And.intro
  all_goals
    intro holds
    simp [Field.defaulted] at holds
  all_goals
    subst holds
    exact ⟨_, rfl⟩

end RecordKind

open RecordKind

/-- A record is edited, or a record inside it: under a field that holds one, or in an array under a
field that holds several. The enclosing records may be objects or arrays of their fields. -/
inductive Within (edit : RecordKind → Tree → Tree → Prop) : RecordKind → Tree → Tree → Prop
  | here {kind : RecordKind} {t u : Tree} (edited : edit kind t u) : Within edit kind t u
  | member {kind inner : RecordKind} {name : String} {t u : Tree}
      (before after : List (Option String × Tree)) (holds : (name, inner) ∈ kind.records)
      (inside : Within edit inner t u) :
      Within edit kind (.object (before ++ (some name, t) :: after))
        (.object (before ++ (some name, u) :: after))
  | arrayMember {kind inner : RecordKind} {name : String} {t u : Tree}
      (before after : List (Option String × Tree)) (first rest : List Tree)
      (holds : (name, inner) ∈ kind.arrays) (inside : Within edit inner t u) :
      Within edit kind (.object (before ++ (some name, .array (first ++ t :: rest)) :: after))
        (.object (before ++ (some name, .array (first ++ u :: rest)) :: after))
  | item {kind inner : RecordKind} {name : String} {t u : Tree} (before after : List Tree)
      (place : kind.names[before.length]? = some name) (holds : (name, inner) ∈ kind.records)
      (inside : Within edit inner t u) :
      Within edit kind (.array (before ++ t :: after)) (.array (before ++ u :: after))
  | arrayItem {kind inner : RecordKind} {name : String} {t u : Tree} (before after : List Tree)
      (first rest : List Tree) (place : kind.names[before.length]? = some name)
      (holds : (name, inner) ∈ kind.arrays) (inside : Within edit inner t u) :
      Within edit kind (.array (before ++ .array (first ++ t :: rest) :: after))
        (.array (before ++ .array (first ++ u :: rest) :: after))

/-- A record object gets a further member, whose name is no field's. -/
inductive Extended (kind : RecordKind) : Tree → Tree → Prop
  | member {name : String} (v : Tree) (before after : List (Option String × Tree))
      (unknown : name ∉ kind.names) :
      Extended kind (.object (before ++ after)) (.object (before ++ (some name, v) :: after))

/-- A null under a nullable field of a record object is left out. -/
inductive NullDropped (kind : RecordKind) : Tree → Tree → Prop
  | member {name : String} (before after : List (Option String × Tree))
      (nullable : name ∈ kind.nullable) :
      NullDropped kind (.object (before ++ (some name, .null) :: after)) (.object (before ++ after))

/-- Both trees are decoded to the same value, or both are rejected. -/
def Alike (kind : RecordKind) (t u : Tree) : Prop :=
  ∀ levels, outcome kind.decode levels t = outcome kind.decode levels u

theorem alike_of_filled? {kind : RecordKind} {t u : Tree}
    (same : ∀ levels, kind.schema.filled? levels t = kind.schema.filled? levels u) :
    Alike kind t u := by
  intro levels
  cases levels with
  | zero => rw [kind.outcome_zero]
  | succ levels => rw [kind.outcome_succ, same]

theorem alike_of_extended {kind : RecordKind} {t u : Tree} (edit : Extended kind t u) :
    Alike kind t u := by
  cases edit with
  | member v before after unknown =>
    exact alike_of_filled? fun levels => (filled?_insert_unknown v before after unknown).symm

theorem alike_of_nullDropped {kind : RecordKind} {t u : Tree} (distinct : t.Distinct)
    (edit : NullDropped kind t u) : Alike kind t u := by
  cases edit with
  | @member name before after nullable =>
    obtain ⟨f, mem, rfl⟩ := List.mem_map.mp (kind.nullable_subset nullable)
    have new : f.name ∉ Tree.keys (before ++ after) := by
      cases distinct with
      | object once each =>
        rw [Tree.keys_append, Tree.keys_cons_some, List.perm_middle.nodup_iff, List.nodup_cons,
          ← Tree.keys_append] at once
        exact once.1
    have null := kind.blankOnNull_of_nullable f mem nullable
    exact alike_of_filled? fun levels => filled?_insert_null kind.lawful mem null new

theorem outcome_record_congr {kind inner : RecordKind} {f : Json.Field kind.Value} {t u : Tree}
    (mem : f ∈ kind.schema.fields) (holds : (f.name, inner) ∈ kind.records)
    (solid : t ≠ .null ∧ u ≠ .null) (same : Alike inner t u) (levels : Nat) :
    outcome f.change levels t = outcome f.change levels u := by
  obtain ⟨default, set, change⟩ := change_of_record f mem holds
  rw [change, outcome_mapped, outcome_mapped, outcome_nullAs default (inner.plain levels) solid.1,
    outcome_nullAs default (inner.plain levels) solid.2, same]

theorem outcome_array_congr {kind inner : RecordKind} {f : Json.Field kind.Value} {t u : Tree}
    (mem : f ∈ kind.schema.fields) (holds : (f.name, inner) ∈ kind.arrays)
    (first rest : List Tree) (same : Alike inner t u) (levels : Nat) :
    outcome f.change levels (.array (first ++ t :: rest)) =
      outcome f.change levels (.array (first ++ u :: rest)) := by
  obtain ⟨set, change⟩ := change_of_array f mem holds
  rw [change, outcome_mapped, outcome_mapped, outcome_nullableList_array (inner.plain _),
    outcome_nullableList_array (inner.plain _)]
  cases levels with
  | zero => rfl
  | succ levels => simp only [Tree.list?, mapM_congr_item first rest (same _)]

theorem solid_of_within {edit : RecordKind → Tree → Tree → Prop}
    (solid : ∀ {kind : RecordKind} {t u : Tree}, edit kind t u → t ≠ .null ∧ u ≠ .null)
    {kind : RecordKind} {t u : Tree} (within : Within edit kind t u) : t ≠ .null ∧ u ≠ .null := by
  cases within with
  | here edited => exact solid edited
  | _ => exact ⟨nofun, nofun⟩

/-- Where an edit of a record makes no difference to it, it makes none to what the record is in. -/
theorem alike_of_within {edit : RecordKind → Tree → Tree → Prop}
    (solid : ∀ {kind : RecordKind} {t u : Tree}, edit kind t u → t ≠ .null ∧ u ≠ .null)
    (alike : ∀ {kind : RecordKind} {t u : Tree}, t.Distinct → edit kind t u → Alike kind t u)
    {kind : RecordKind} {t u : Tree} (distinct : t.Distinct) (within : Within edit kind t u) :
    Alike kind t u := by
  -- The induction adds one enclosing record at a time, whose field then reads the same.
  induction within with
  | here edited => exact alike distinct edited
  | @member kind inner name t u before after holds inside ih =>
    cases distinct with
    | object once each =>
      have same := ih (each (some name, t) (by simp))
      have solid := solid_of_within solid inside
      refine alike_of_filled? fun levels => filled?_congr_member before after _ fun f mem named => ?_
      obtain rfl := Option.some.inj named
      exact outcome_record_congr mem holds solid same levels
  | @arrayMember kind inner name t u before after first rest holds inside ih =>
    cases distinct with
    | object once each =>
      cases each (some name, .array (first ++ t :: rest)) (by simp) with
      | array each =>
        have same := ih (each t (by simp))
        refine alike_of_filled? fun levels =>
          filled?_congr_member before after _ fun f mem named => ?_
        obtain rfl := Option.some.inj named
        exact outcome_array_congr mem holds first rest same levels
  | @item kind inner name t u before after place holds inside ih =>
    cases distinct with
    | array each =>
      have same := ih (each t (by simp))
      have solid := solid_of_within solid inside
      refine alike_of_filled? fun levels => filled?_congr_item before after fun f mem named => ?_
      obtain rfl := Option.some.inj (place.symm.trans named)
      exact outcome_record_congr mem holds solid same levels
  | @arrayItem kind inner name t u before after first rest place holds inside ih =>
    cases distinct with
    | array each =>
      cases each (.array (first ++ t :: rest)) (by simp) with
      | array each =>
        have same := ih (each t (by simp))
        refine alike_of_filled? fun levels => filled?_congr_item before after fun f mem named => ?_
        obtain rfl := Option.some.inj (place.symm.trans named)
        exact outcome_array_congr mem holds first rest same levels

/-- The members of an object in another order, a further member of a record, or a null left out. -/
inductive Edit (kind : RecordKind) (t u : Tree) : Prop
  | permuted (somewhere : t.Permuted u)
  | extended (inside : Within Extended kind t u)
  | nullDropped (inside : Within NullDropped kind t u)

/-- An edit that leaves the known members alone makes no difference to what a document is decoded
to, whichever documents the two trees are written as. -/
theorem decode_eq_of_edit (kind : RecordKind) {t u : Tree} (distinct : t.Distinct)
    (edit : Edit kind t u) (levels : Nat) {d e : Doc} (before : d.Renders t) (after : e.Renders u) :
    (kind.decode levels d).toOption = (kind.decode levels e).toOption := by
  have alike : Alike kind t u := by
    cases edit with
    | permuted somewhere => exact fun levels => (kind.plain levels).order distinct somewhere
    | extended inside =>
      refine alike_of_within ?_ (fun _ => alike_of_extended) distinct inside
      rintro kind t u ⟨v, before, after, unknown⟩
      exact ⟨nofun, nofun⟩
    | nullDropped inside =>
      refine alike_of_within ?_ alike_of_nullDropped distinct inside
      rintro kind t u ⟨before, after, nullable⟩
      exact ⟨nofun, nofun⟩
  rw [(kind.plain levels).places before, (kind.plain levels).places after, alike]

/-- A tree whose type is null is the tree that has no type. -/
theorem decode_eq_of_edit_null_type :
    let t : Tree := .object [(some "ast", .object [(some "type", .null)])]
    let u : Tree := .object [(some "ast", .object [])]
    t.Distinct ∧ Edit .result t u ∧
      (ResultModel.decode 127 t.doc).toOption = (ResultModel.decode 127 u.doc).toOption ∧
      (ResultModel.decode 127 u.doc).toOption = some .empty := by
  intro t u
  have inner : Tree.Distinct (.object [(some "type", .null)]) :=
    .object (by decide) (List.forall_mem_singleton.mpr .null)
  have distinct : t.Distinct := .object (by decide) (List.forall_mem_singleton.mpr inner)
  have dropped : NullDropped .node (.object [(some "type", .null)]) (.object []) :=
    .member [] [] (by decide)
  have edit : Edit .result t u :=
    .nullDropped (.member [] [] (show ("ast", .node) ∈ RecordKind.result.records by decide)
      (.here dropped))
  have same := decode_eq_of_edit .result distinct edit 127 t.renders_doc u.renders_doc
  exact ⟨distinct, edit, same, rfl⟩

end AnalysisBrowser
