import AnalysisBrowser.Model.Result
import AnalysisBrowser.Proofs.Json.Edits

/-!
# The outcomes of the records of a result

Every record of a result has fields whose changes commute, and every decoder of the model is plain.
A node is read by a decoder that may go two levels less deep, which is what the object of the parent
and the array of its children take: its outcome is that of the record whose children are nodes.
-/
namespace AnalysisBrowser

open Json (Decoder Doc Field Schema Tree Plain Reads outcome plain_text plain_flag plain_count
  plain_choice plain_lenientText plain_optional plain_nullAs plain_list plain_map plain_record
  plain_mapped outcome_mapped
  outcome_nullAs outcome_list plain_of_reads outcome_record reads_record_zero reads_list reads_nullAs)

variable {levels : Nat}

/-- The records that a result is made of, and the payloads of its two halves. -/
inductive RecordKind where
  | result
  | syntaxAnalysis
  | lexicalAnalysis
  | token
  | lexicalError
  | syntaxFinding
  | semanticFinding
  | symbol
  | node
  deriving DecidableEq

namespace RecordKind

abbrev Value : RecordKind → Type
  | .result => ResultModel
  | .syntaxAnalysis => SyntaxAnalysis
  | .lexicalAnalysis => LexicalAnalysis
  | .token => Token
  | .lexicalError => LexicalError
  | .syntaxFinding => SyntaxFinding
  | .semanticFinding => SemanticFinding
  | .symbol => Symbol
  | .node => Node

def decode : (kind : RecordKind) → Decoder kind.Value
  | .result => ResultModel.decode
  | .syntaxAnalysis => SyntaxAnalysis.decode
  | .lexicalAnalysis => LexicalAnalysis.decode
  | .token => Token.decode
  | .lexicalError => LexicalError.decode
  | .syntaxFinding => SyntaxFinding.decode
  | .semanticFinding => SemanticFinding.decode
  | .symbol => Symbol.decode
  | .node => Node.decode

def schema : (kind : RecordKind) → Schema kind.Value
  | .result => ResultModel.schema
  | .syntaxAnalysis => SyntaxAnalysis.schema
  | .lexicalAnalysis => LexicalAnalysis.schema
  | .token => Token.schema
  | .lexicalError => LexicalError.schema
  | .syntaxFinding => SyntaxFinding.schema
  | .semanticFinding => SemanticFinding.schema
  | .symbol => Symbol.schema
  | .node => Node.schema Node.decode

/-- The names of the fields. -/
def names (kind : RecordKind) : List String := kind.schema.fields.map Field.name

end RecordKind

theorem lawful_node (child : Decoder Node) : (Node.schema child).Lawful where
  names := show ["type", "value", "line", "position", "children", "attributes"].Nodup by decide
  independent := by
    simp only [Node.schema, List.pairwise_cons, List.forall_mem_cons, List.Pairwise.nil,
      List.not_mem_nil, false_implies, implies_true, and_true]
    repeat' apply And.intro
    all_goals exact Field.independent_of_comm fun _ _ _ => rfl

/-- The fields of every record have names of their own and set parts of their own. -/
theorem RecordKind.lawful (kind : RecordKind) : kind.schema.Lawful := by
  cases kind with
  | node => exact lawful_node _
  | _ =>
    refine ⟨by decide, ?_⟩
    simp only [schema, ResultModel.schema, SyntaxAnalysis.schema, LexicalAnalysis.schema,
      Token.schema, LexicalError.schema, SyntaxFinding.schema, SemanticFinding.schema,
      Symbol.schema, List.pairwise_cons, List.forall_mem_cons, List.Pairwise.nil, List.not_mem_nil,
      false_implies, implies_true, and_true]
    repeat' apply And.intro
    all_goals exact Field.independent_of_comm fun _ _ _ => rfl

theorem plain_optionalText : Plain (Decoder.optional Decoder.text) levels :=
  plain_optional plain_text

theorem plain_attributes : Plain (Decoder.optional (Decoder.map Decoder.text)) levels :=
  plain_optional (plain_map plain_text)

theorem plain_severity : Plain Severity.decodeLenient levels :=
  plain_mapped plain_lenientText

theorem plain_nullableList {α : Type} {decode : Decoder α} (plain : Plain decode (levels - 1)) :
    Plain (nullableList decode) levels :=
  plain_nullAs [] (plain_list plain)

theorem plainFields_token : ∀ f ∈ Token.schema.fields, Plain f.change levels := by
  simp only [Token.schema, List.forall_mem_cons]
  exact ⟨plain_mapped (plain_choice _), plain_mapped plain_text, plain_mapped plain_count,
    plain_mapped plain_count, nofun⟩

theorem plain_token : Plain Token.decode levels :=
  plain_record (RecordKind.lawful .token) plainFields_token

theorem plainFields_lexicalError : ∀ f ∈ LexicalError.schema.fields, Plain f.change levels := by
  simp only [LexicalError.schema, List.forall_mem_cons]
  exact ⟨plain_mapped plain_text, plain_mapped plain_count, plain_mapped plain_count, nofun⟩

theorem plain_lexicalError : Plain LexicalError.decode levels :=
  plain_record (RecordKind.lawful .lexicalError) plainFields_lexicalError

theorem plainFields_syntaxFinding : ∀ f ∈ SyntaxFinding.schema.fields, Plain f.change levels := by
  simp only [SyntaxFinding.schema, List.forall_mem_cons]
  exact ⟨plain_mapped plain_text, plain_mapped plain_count, plain_mapped plain_count,
    plain_mapped plain_text, plain_mapped plain_optionalText, plain_mapped plain_optionalText,
    plain_mapped plain_severity, nofun⟩

theorem plain_syntaxFinding : Plain SyntaxFinding.decode levels :=
  plain_record (RecordKind.lawful .syntaxFinding) plainFields_syntaxFinding

theorem plainFields_semanticFinding : ∀ f ∈ SemanticFinding.schema.fields, Plain f.change levels := by
  simp only [SemanticFinding.schema, List.forall_mem_cons]
  exact ⟨plain_mapped plain_text, plain_mapped plain_count, plain_mapped plain_count,
    plain_mapped plain_text, plain_mapped plain_optionalText, plain_mapped plain_optionalText,
    plain_mapped plain_severity, nofun⟩

theorem plain_semanticFinding : Plain SemanticFinding.decode levels :=
  plain_record (RecordKind.lawful .semanticFinding) plainFields_semanticFinding

theorem plainFields_symbol : ∀ f ∈ Symbol.schema.fields, Plain f.change levels := by
  simp only [Symbol.schema, List.forall_mem_cons]
  exact ⟨plain_mapped plain_text, plain_mapped plain_text, plain_mapped (plain_choice _),
    plain_mapped plain_count, plain_mapped plain_count, plain_mapped plain_text,
    plain_mapped plain_flag, plain_mapped plain_attributes, nofun⟩

theorem plain_symbol : Plain Symbol.decode levels :=
  plain_record (RecordKind.lawful .symbol) plainFields_symbol

theorem plainFields_node {child : Decoder Node} (plain : Plain child (levels - 1)) :
    ∀ f ∈ (Node.schema child).fields, Plain f.change levels := by
  simp only [Node.schema, List.forall_mem_cons]
  exact ⟨plain_mapped plain_lenientText, plain_mapped plain_optionalText, plain_mapped plain_count,
    plain_mapped plain_count, plain_mapped (plain_nullAs [] (plain_list plain)),
    plain_mapped plain_attributes, nofun⟩

theorem plain_nodeRecord {child : Decoder Node} (plain : Plain child (levels - 1 - 1)) :
    Plain (Node.schema child).decode levels :=
  plain_record (lawful_node child) (plainFields_node plain)

/-- A decoder is plain at a level if it is there like one that is. -/
theorem plain_of_eq {α : Type} {decode other : Decoder α} (same : decode levels = other levels)
    (plain : Plain other levels) : Plain decode levels := by
  have equal : outcome decode levels = outcome other levels :=
    funext fun t => congrArg (fun read => (read t.doc).toOption) same
  refine ⟨?_, ?_⟩
  · intro d t renders
    rw [same, equal]
    exact plain.places renders
  · intro t u distinct permuted
    rw [equal]
    exact plain.order distinct permuted

theorem plain_tooDeep : Plain (fun _ d => .error d.tooDeep : Decoder Node) levels :=
  plain_of_reads (f := fun _ => none) (fun _ _ _ => rfl) fun _ _ => rfl

theorem plain_node (levels : Nat) : Plain Node.decode levels := by
  -- A child is read two levels deeper, and at the last two levels no child is read at all.
  induction levels using Nat.strongRecOn with
  | ind levels ih =>
    match levels with
    | 0 => exact plain_of_eq (by rw [Node.decode]) (plain_nodeRecord plain_tooDeep)
    | 1 => exact plain_of_eq (by rw [Node.decode]) (plain_nodeRecord plain_tooDeep)
    | levels + 2 =>
      have child : Plain (fun _ d => Node.decode levels d) (levels + 2 - 1 - 1) :=
        plain_of_eq (show _ = Node.decode levels from rfl) (ih levels (by omega))
      exact plain_of_eq (by rw [Node.decode]) (plain_nodeRecord child)

theorem outcome_nullableList {α : Type} {decode : Decoder α} (plain : Plain decode (levels - 1)) :
    outcome (nullableList decode) levels =
      Tree.nullAs? [] (Tree.list? (outcome decode (levels - 1)) levels) :=
  (reads_nullAs [] (reads_list plain.places)).outcome_eq

theorem outcome_nullableList_array {α : Type} {decode : Decoder α}
    (plain : Plain decode (levels - 1)) (ts : List Tree) :
    outcome (nullableList decode) levels (.array ts) =
      Tree.list? (outcome decode (levels - 1)) levels (.array ts) := by
  have solid : Tree.array ts ≠ .null := nofun
  rw [nullableList, outcome_nullAs [] (plain_list plain) solid, outcome_list plain]

/-- A node record depends on its children by their outcomes only. -/
theorem outcome_nodeRecord_congr {child other : Decoder Node} (left : Plain child (levels - 1 - 1))
    (right : Plain other (levels - 1 - 1))
    (same : 2 ≤ levels → outcome child (levels - 1 - 1) = outcome other (levels - 1 - 1)) :
    outcome (Node.schema child).decode levels = outcome (Node.schema other).decode levels := by
  cases levels with
  | zero => rw [reads_record_zero.outcome_eq, reads_record_zero.outcome_eq]
  | succ levels =>
    simp only [Nat.add_one_sub_one] at left right same
    have children : outcome (nullableList child) levels = outcome (nullableList other) levels := by
      rw [outcome_nullableList left, outcome_nullableList right]
      cases levels with
      | zero => rfl
      | succ levels => rw [same (by omega)]
    have change (o : Option Tree) :
        (Field.defaulted "children" (nullableList child)
            fun children (n : Node) => { n with children }).reading levels o =
          (Field.defaulted "children" (nullableList other)
            fun children (n : Node) => { n with children }).reading levels o := by
      cases o with
      | none => rfl
      | some t =>
        simp only [Field.reading, Field.defaulted, outcome_mapped, children]
    rw [outcome_record (lawful_node child) (plainFields_node left),
      outcome_record (lawful_node other) (plainFields_node right)]
    funext t
    simp only [nullableList] at change
    simp only [Schema.filled?, Node.schema, List.map_cons, List.map_nil, Json.fill, change]
    rfl

/-- A node is a record whose children are nodes. -/
theorem outcome_node (levels : Nat) :
    outcome Node.decode levels = outcome (Node.schema Node.decode).decode levels := by
  have same {other : Decoder Node} (equal : Node.decode levels = other levels) :
      outcome Node.decode levels = outcome other levels :=
    funext fun t => congrArg (fun read => (read t.doc).toOption) equal
  match levels with
  | 0 =>
    rw [same (by rw [Node.decode])]
    exact outcome_nodeRecord_congr plain_tooDeep (plain_node _) (by omega)
  | 1 =>
    rw [same (by rw [Node.decode])]
    exact outcome_nodeRecord_congr plain_tooDeep (plain_node _) (by omega)
  | levels + 2 =>
    have child : Plain (fun _ d => Node.decode levels d) (levels + 2 - 1 - 1) :=
      plain_of_eq (show _ = Node.decode levels from rfl) (plain_node levels)
    rw [same (by rw [Node.decode])]
    exact outcome_nodeRecord_congr child (plain_node _) fun _ => rfl

theorem plain_nullableNode : Plain nullableNode levels := plain_nullAs _ (plain_node levels)

theorem plainFields_lexicalAnalysis : ∀ f ∈ LexicalAnalysis.schema.fields, Plain f.change levels := by
  simp only [LexicalAnalysis.schema, List.forall_mem_cons]
  exact ⟨plain_mapped (plain_nullableList plain_token),
    plain_mapped (plain_nullableList plain_lexicalError), nofun⟩

theorem plain_lexicalAnalysis : Plain LexicalAnalysis.decode levels :=
  plain_record (RecordKind.lawful .lexicalAnalysis) plainFields_lexicalAnalysis

theorem plainFields_syntaxAnalysis : ∀ f ∈ SyntaxAnalysis.schema.fields, Plain f.change levels := by
  simp only [SyntaxAnalysis.schema, List.forall_mem_cons]
  exact ⟨plain_mapped plain_nullableNode, plain_mapped (plain_nullableList plain_syntaxFinding),
    plain_mapped (plain_nullableList plain_semanticFinding),
    plain_mapped (plain_nullableList plain_symbol), plain_mapped plain_flag, nofun⟩

theorem plain_syntaxAnalysis : Plain SyntaxAnalysis.decode levels :=
  plain_record (RecordKind.lawful .syntaxAnalysis) plainFields_syntaxAnalysis

theorem plainFields_resultModel : ∀ f ∈ ResultModel.schema.fields, Plain f.change levels := by
  simp only [ResultModel.schema, List.forall_mem_cons]
  exact ⟨plain_mapped (plain_nullableList plain_token),
    plain_mapped (plain_nullableList plain_lexicalError), plain_mapped plain_nullableNode,
    plain_mapped (plain_nullableList plain_syntaxFinding),
    plain_mapped (plain_nullableList plain_semanticFinding),
    plain_mapped (plain_nullableList plain_symbol), plain_mapped plain_flag, nofun⟩

theorem plain_resultModel : Plain ResultModel.decode levels :=
  plain_record (RecordKind.lawful .result) plainFields_resultModel

end AnalysisBrowser
