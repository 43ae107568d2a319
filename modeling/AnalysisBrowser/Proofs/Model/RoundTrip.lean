import AnalysisBrowser.Proofs.Model.Recovery
import AnalysisBrowser.Proofs.Tree.Height
import Mathlib.Logic.Function.Basic

/-!
# The model goes through its JSON text unchanged

A value of the model is decoded from its compact text unless the text is nested too deep. Only the
tree can be: every node adds its object and the array of its children, and all else stays within a
few levels. The limit of the decoder is therefore a limit on the depth of the tree.
-/
namespace AnalysisBrowser

open Json (Decoder Recovers decodeText decodeText_compact eq_of_compact_eq word count itemsNesting
  membersNesting membersNesting_append membersNesting_le_iff nesting_object_le nesting_list_le
  forall_mem_member?)

theorem nesting_token_le (t : Token) : t.toJson.nesting ≤ 1 := by
  refine nesting_object_le ?_
  simp [word, count, Json.nesting]

theorem nesting_lexicalError_le (e : LexicalError) : e.toJson.nesting ≤ 1 := by
  refine nesting_object_le ?_
  simp [word, count, Json.nesting]

theorem nesting_syntaxFinding_le (e : SyntaxFinding) : e.toJson.nesting ≤ 1 := by
  refine nesting_object_le ?_
  simp only [List.forall_mem_append, forall_mem_member?]
  simp [word, count, Json.nesting]

theorem nesting_semanticFinding_le (e : SemanticFinding) : e.toJson.nesting ≤ 1 := by
  refine nesting_object_le ?_
  simp only [List.forall_mem_append, forall_mem_member?]
  simp [word, count, Json.nesting]

theorem nesting_attributes_le (a : Attributes) : (Attributes.toJson a).nesting ≤ 1 := by
  refine nesting_object_le fun m mem => ?_
  obtain ⟨e, found, rfl⟩ := List.mem_map.mp mem
  exact Nat.le_refl 0

theorem nesting_symbol_le (s : Symbol) : s.toJson.nesting ≤ 2 := by
  refine nesting_object_le ?_
  simp only [List.forall_mem_append, forall_mem_member?]
  refine ⟨?_, fun a _ => nesting_attributes_le a⟩
  simp [word, count, Json.nesting]

theorem itemsNesting_nodes {ns : List Node}
    (each : ∀ n ∈ ns, n.toJson.nesting = 2 * n.height + 2) :
    itemsNesting (ns.map Node.toJson) = 2 * Node.heightBelow ns := by
  induction ns with
  | nil => rfl
  | cons n rest ih =>
    have first := each n List.mem_cons_self
    have later := ih fun m mem => each m (List.mem_cons_of_mem n mem)
    rw [List.map_cons, itemsNesting, Node.heightBelow, first, later]
    omega

/-- Each node of a path takes two levels, its object and the array of its children. -/
theorem nesting_node (n : Node) : n.toJson.nesting = 2 * n.height + 2 := by
  induction n using Node.induct with
  | node n ih =>
    have children := itemsNesting_nodes ih
    have attributes : membersNesting (Json.member? "attributes" Attributes.toJson n.attributes) ≤ 1 :=
      membersNesting_le_iff.mpr (forall_mem_member?.mpr fun a _ => nesting_attributes_le a)
    have type : membersNesting (Json.member? "type" .string n.typeName) ≤ 0 :=
      membersNesting_le_iff.mpr (forall_mem_member?.mpr fun _ _ => Nat.le_refl 0)
    have value : membersNesting (Json.member? "value" .string n.value) ≤ 0 :=
      membersNesting_le_iff.mpr (forall_mem_member?.mpr fun _ _ => Nat.le_refl 0)
    rw [toJson_node, Json.nesting, membersNesting_append, membersNesting_append, height_eq]
    simp only [membersNesting, word, count, Json.list, Json.nesting, children]
    omega

theorem nesting_resultModel_le_iff (m : ResultModel) :
    m.toJson.nesting ≤ 127 ↔ m.ast.height ≤ 62 := by
  have tokens := nesting_list_le nesting_token_le m.tokens
  have lexical := nesting_list_le nesting_lexicalError_le m.lexicalErrors
  have syntactic := nesting_list_le nesting_syntaxFinding_le m.syntaxErrors
  have semantic := nesting_list_le nesting_semanticFinding_le m.semanticErrors
  have symbols := nesting_list_le nesting_symbol_le m.symbolTable
  rw [ResultModel.toJson, Json.nesting]
  simp only [membersNesting, nesting_node, Json.nesting]
  omega

theorem nesting_syntaxAnalysis_le_iff (a : SyntaxAnalysis) :
    a.toJson.nesting ≤ 127 ↔ a.ast.height ≤ 62 := by
  have syntactic := nesting_list_le nesting_syntaxFinding_le a.syntaxErrors
  have semantic := nesting_list_le nesting_semanticFinding_le a.semanticErrors
  have symbols := nesting_list_le nesting_symbol_le a.symbolTable
  rw [SyntaxAnalysis.toJson, Json.nesting]
  simp only [membersNesting, nesting_node, Json.nesting]
  omega

theorem nesting_structureValidation_le_iff (v : StructureValidation) :
    v.toJson.nesting ≤ 127 ↔ v.ast.height ≤ 62 := by
  have structural := nesting_list_le nesting_syntaxFinding_le v.structureErrors
  have general := nesting_list_le nesting_syntaxFinding_le v.generalErrors
  rw [StructureValidation.toJson, Json.nesting]
  simp only [membersNesting, nesting_node, Json.nesting]
  omega

theorem nesting_remoteSummary_le (s : RemoteSummary) : s.toJson.nesting ≤ 2 := by
  have counts : (s.nodeTypeCounts.toJson word).nesting ≤ 1 := by
    refine nesting_object_le fun m mem => ?_
    obtain ⟨e, found, rfl⟩ := List.mem_map.mp mem
    exact Nat.le_refl 0
  refine nesting_object_le ?_
  simpa [word, count, Json.nesting] using counts

theorem nesting_astResponse_le_iff (r : AstResponse) :
    r.toJson.nesting ≤ 127 ↔ r.ast.height ≤ 62 := by
  have summary : ((r.summary.map RemoteSummary.toJson).getD .null).nesting ≤ 2 := by
    cases r.summary with
    | none => exact Nat.zero_le 2
    | some s => exact nesting_remoteSummary_le s
  rw [AstResponse.toJson, Json.nesting]
  simp only [membersNesting, nesting_node, Json.nesting]
  omega

theorem nesting_lexicalAnalysis_le (a : LexicalAnalysis) : a.toJson.nesting ≤ 127 := by
  have tokens := nesting_list_le nesting_token_le a.tokens
  have errors := nesting_list_le nesting_lexicalError_le a.errors
  rw [LexicalAnalysis.toJson, Json.nesting]
  simp only [membersNesting]
  omega

theorem nesting_symbolTableResponse_le (r : SymbolTableResponse) : r.toJson.nesting ≤ 127 := by
  have symbols := nesting_list_le nesting_symbol_le r.symbolTable
  have semantic := nesting_list_le nesting_semanticFinding_le r.semanticErrors
  rw [SymbolTableResponse.toJson, Json.nesting]
  simp only [membersNesting, word, count, Json.nesting]
  omega

/-- The values of a type come back from their compact texts, as far as these are not nested too
deep, and no two values have one text. -/
structure RoundTrips {α : Type} (toJson : α → Json) (decode : Decoder α) : Prop where
  decodes : ∀ a, (toJson a).nesting ≤ 127 → decodeText decode (toJson a).compact = .ok a
  injective : Function.Injective fun a => (toJson a).compact

theorem roundTrips_of_recovers {α : Type} {toJson : α → Json} {decode : Decoder α}
    (recovers : ∀ levels a, Recovers decode levels (toJson a) a) : RoundTrips toJson decode where
  decodes a nested := decodeText_compact (recovers _ a) nested
  injective a b same := eq_of_compact_eq (recovers · a) (recovers · b) same

/-- Every payload and result of the analyzer goes through its compact text unchanged. Where it holds
a tree, its text is shallow enough exactly when no path of the tree has more than 62 steps; the
other two are always shallow enough. -/
theorem model_roundTrips :
    (RoundTrips ResultModel.toJson ResultModel.decode ∧
      RoundTrips SyntaxAnalysis.toJson SyntaxAnalysis.decode ∧
      RoundTrips LexicalAnalysis.toJson LexicalAnalysis.decode ∧
      RoundTrips StructureValidation.toJson StructureValidation.decode ∧
      RoundTrips AstResponse.toJson AstResponse.decode ∧
      RoundTrips SymbolTableResponse.toJson SymbolTableResponse.decode) ∧
    (∀ m : ResultModel, m.toJson.nesting ≤ 127 ↔
      ∀ p : NodePath, (p.resolve m.ast).isSome = true → p.depth ≤ 62) ∧
    (∀ a : SyntaxAnalysis, a.toJson.nesting ≤ 127 ↔
      ∀ p : NodePath, (p.resolve a.ast).isSome = true → p.depth ≤ 62) ∧
    (∀ v : StructureValidation, v.toJson.nesting ≤ 127 ↔
      ∀ p : NodePath, (p.resolve v.ast).isSome = true → p.depth ≤ 62) ∧
    (∀ r : AstResponse, r.toJson.nesting ≤ 127 ↔
      ∀ p : NodePath, (p.resolve r.ast).isSome = true → p.depth ≤ 62) ∧
    (∀ a : LexicalAnalysis, a.toJson.nesting ≤ 127) ∧
    ∀ r : SymbolTableResponse, r.toJson.nesting ≤ 127 := by
  refine ⟨⟨?_, ?_, ?_, ?_, ?_, ?_⟩, ?_, ?_, ?_, ?_, ?_, ?_⟩
  · exact roundTrips_of_recovers fun _ => recovers_resultModel
  · exact roundTrips_of_recovers fun _ => recovers_syntaxAnalysis
  · exact roundTrips_of_recovers fun _ => recovers_lexicalAnalysis
  · exact roundTrips_of_recovers fun _ => recovers_structureValidation
  · exact roundTrips_of_recovers fun _ => recovers_astResponse
  · exact roundTrips_of_recovers fun _ => recovers_symbolTableResponse
  · exact fun m => (nesting_resultModel_le_iff m).trans height_le_iff
  · exact fun a => (nesting_syntaxAnalysis_le_iff a).trans height_le_iff
  · exact fun v => (nesting_structureValidation_le_iff v).trans height_le_iff
  · exact fun r => (nesting_astResponse_le_iff r).trans height_le_iff
  · exact nesting_lexicalAnalysis_le
  · exact nesting_symbolTableResponse_le

/-- A result with a tree of two levels, an unknown type, an empty map and texts to escape. -/
def smallResult : ResultModel where
  tokens := [⟨.identifier, "a\tb", 1, 1⟩]
  lexicalErrors := [⟨"stray \"", 1, 4⟩]
  ast :=
    { Node.ofType .program 1 1 with
      children := [{ Node.empty with typeName := some "MACRO", attributes := some .empty }] }
  syntaxErrors := [⟨"missing", 2, 1, "MISSING", none, some "\\", some .error⟩]
  semanticErrors := [⟨"unused", 2, 3, "UNUSED", some "b", none, none⟩]
  symbolTable := [⟨"b", "int", .variable, 1, 1, "", false, some (.insert "" "\n" .empty)⟩]
  isValid := false

theorem model_roundTrips_smallResult :
    smallResult.toJson.nesting ≤ 127 ∧
      decodeText ResultModel.decode smallResult.toJson.compact = .ok smallResult := by
  have nested : smallResult.toJson.nesting ≤ 127 := by decide
  exact ⟨nested, model_roundTrips.1.1.decodes smallResult nested⟩

end AnalysisBrowser
