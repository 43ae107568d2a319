import AnalysisBrowser.Client.Wire
import AnalysisBrowser.Proofs.Json.Recovery

/-!
# The types of the model are recovered

Each type is recovered from its JSON form. For a record it is enough to go through its fields: what
the form writes under the name of a field, the decoder of the field recovers. The tree needs an
induction, since a node is read by a decoder that is one node shallower.
-/
namespace AnalysisBrowser

open Json (Recovers Fills recovers_text recovers_flag recovers_count recovers_lenientText
  recovers_choice recovers_none recovers_some recovers_nullAs recovers_list recovers_map
  recovers_record)

variable {levels : Nat}

theorem recovers_token (t : Token) : Recovers Token.decode levels t.toJson t := by
  refine recovers_record (by decide) ?_
  exact .mandatory (recovers_choice t.type.lookup_name) <| .mandatory (recovers_text _) <|
    .mandatory (recovers_count _) <| .mandatory (recovers_count _) .done

theorem recovers_lexicalError (e : LexicalError) :
    Recovers LexicalError.decode levels e.toJson e := by
  refine recovers_record (by decide) ?_
  exact .mandatory (recovers_text _) <| .mandatory (recovers_count _) <|
    .mandatory (recovers_count _) .done

theorem ofText?_name (s : Severity) : Severity.ofText? s.name = some s := by
  cases s <;> decide

/-- The name of a severity is recovered, although any other value would be let pass. -/
theorem recovers_severity (s : Severity) :
    Recovers Severity.decodeLenient levels (.string s.name) (some s) := by
  have name : Recovers Json.Decoder.lenientText levels (.string s.name) (some s.name) :=
    recovers_lenientText s.name
  refine ⟨name.wellFormed, fun nested d denotes => ?_⟩
  rw [Severity.decodeLenient, name.decodes nested d denotes, Except.map, Option.bind_some,
    ofText?_name]

theorem recovers_optionalText (s : String) :
    Recovers (Json.Decoder.optional Json.Decoder.text) levels (.string s) (some s) :=
  recovers_some (by rintro ⟨⟩) (recovers_text s)

theorem recovers_syntaxFinding (e : SyntaxFinding) :
    Recovers SyntaxFinding.decode levels e.toJson e := by
  rw [SyntaxFinding.toJson, List.append_assoc, List.append_assoc]
  refine recovers_record (by decide) ?_
  exact .mandatory (recovers_text _) <| .mandatory (recovers_count _) <|
    .mandatory (recovers_count _) <| .mandatory (recovers_text _) <|
    .member? (fun s _ => recovers_optionalText s) rfl <|
    .member? (fun s _ => recovers_optionalText s) rfl <|
    .lastMember? (fun s _ => recovers_severity s) rfl

theorem recovers_semanticFinding (e : SemanticFinding) :
    Recovers SemanticFinding.decode levels e.toJson e := by
  rw [SemanticFinding.toJson, List.append_assoc, List.append_assoc]
  refine recovers_record (by decide) ?_
  exact .mandatory (recovers_text _) <| .mandatory (recovers_count _) <|
    .mandatory (recovers_count _) <| .mandatory (recovers_text _) <|
    .member? (fun s _ => recovers_optionalText s) rfl <|
    .member? (fun s _ => recovers_optionalText s) rfl <|
    .lastMember? (fun s _ => recovers_severity s) rfl

theorem recovers_attributes (a : Attributes) :
    Recovers (Json.Decoder.optional (Json.Decoder.map Json.Decoder.text)) levels
      (Attributes.toJson a) (some a) :=
  recovers_some (by rintro ⟨⟩) (recovers_map fun e _ => recovers_text e.2)

theorem recovers_symbol (s : Symbol) : Recovers Symbol.decode levels s.toJson s := by
  refine recovers_record (by decide) ?_
  exact .mandatory (recovers_text _) <| .mandatory (recovers_text _) <|
    .mandatory (recovers_choice s.kind.lookup_name) <| .mandatory (recovers_count _) <|
    .mandatory (recovers_count _) <| .mandatory (recovers_text _) <|
    .mandatory (recovers_flag _) <| .lastMember? (fun a _ => recovers_attributes a) rfl

theorem childrenJson_eq_map (ns : List Node) : Node.childrenJson ns = ns.map Node.toJson := by
  induction ns with
  | nil => rfl
  | cons n rest ih => rw [Node.childrenJson, ih, List.map_cons]

theorem toJson_node (n : Node) :
    n.toJson = .object
      (Json.member? "type" .string n.typeName ++ (Json.member? "value" .string n.value ++
        ("line", .word n.line) :: ("position", .word n.position) ::
          ("children", .list Node.toJson n.children) ::
            Json.member? "attributes" Attributes.toJson n.attributes)) := by
  cases n
  rw [Node.toJson, childrenJson_eq_map, List.append_assoc, List.append_assoc]
  rfl

theorem recovers_schema {child : Json.Decoder Node} {n : Node}
    (children : ∀ c ∈ n.children, Recovers child (levels - 1 - 1) c.toJson c) :
    Recovers (Node.schema child).decode levels n.toJson n := by
  have distinct : ((Node.schema child).fields.map Json.Field.name).Nodup :=
    show ["type", "value", "line", "position", "children", "attributes"].Nodup by decide
  rw [toJson_node]
  refine recovers_record distinct ?_
  -- The type contains itself, so a node is not its fields by definition.
  cases n
  exact .member? (fun s _ => recovers_lenientText s) rfl <|
    .member? (fun s _ => recovers_optionalText s) rfl <|
    .defaulted (recovers_count _) <| .defaulted (recovers_count _) <|
    .defaulted (recovers_nullAs (by rintro ⟨⟩) (recovers_list children)) <|
    .lastMember? (fun a _ => recovers_attributes a) rfl

/-- A node takes two levels at least: its own object and the array of its children. -/
theorem two_le_nesting (n : Node) : 2 ≤ n.toJson.nesting := by
  rw [toJson_node, Json.nesting, Json.membersNesting_append, Json.membersNesting_append]
  simp only [Json.membersNesting, Json.list, Json.nesting]
  omega

theorem recovers_node (n : Node) : Recovers Node.decode levels n.toJson n := by
  induction n using Node.induct generalizing levels with
  | node n ih =>
    have anyLevel : Recovers (Node.schema Node.decode).decode 0 n.toJson n :=
      recovers_schema fun c mem => ih c mem
    refine ⟨anyLevel.wellFormed, fun nested d denotes => ?_⟩
    obtain ⟨levels, rfl⟩ : ∃ k, levels = k + 2 := by
      have least := two_le_nesting n
      exact ⟨levels - 2, by omega⟩
    have children : ∀ c ∈ n.children,
        Recovers (fun _ d => Node.decode levels d) (levels + 2 - 1 - 1) c.toJson c :=
      fun c mem => ⟨(ih c mem : Recovers _ levels _ _).wellFormed, (ih c mem).decodes⟩
    rw [Node.decode]
    exact (recovers_schema children).decodes nested d denotes

theorem recovers_nullableNode (n : Node) : Recovers nullableNode levels n.toJson n := by
  refine recovers_nullAs ?_ (recovers_node n)
  rw [toJson_node]
  rintro ⟨⟩

theorem recovers_nullableList {α : Type} {decode : Json.Decoder α} {form : α → Json} (as : List α)
    (each : ∀ a, Recovers decode (levels - 1) (form a) a) :
    Recovers (nullableList decode) levels (.list form as) as :=
  recovers_nullAs (by rintro ⟨⟩) (recovers_list fun a _ => each a)

theorem recovers_lexicalAnalysis (a : LexicalAnalysis) :
    Recovers LexicalAnalysis.decode levels a.toJson a := by
  refine recovers_record (by decide) ?_
  exact .defaulted (recovers_nullableList _ recovers_token) <|
    .defaulted (recovers_nullableList _ recovers_lexicalError) .done

theorem recovers_syntaxAnalysis (a : SyntaxAnalysis) :
    Recovers SyntaxAnalysis.decode levels a.toJson a := by
  refine recovers_record (by decide) ?_
  exact .defaulted (recovers_nullableNode _) <|
    .defaulted (recovers_nullableList _ recovers_syntaxFinding) <|
    .defaulted (recovers_nullableList _ recovers_semanticFinding) <|
    .defaulted (recovers_nullableList _ recovers_symbol) <| .defaulted (recovers_flag _) .done

theorem recovers_resultModel (m : ResultModel) :
    Recovers ResultModel.decode levels m.toJson m := by
  refine recovers_record (by decide) ?_
  exact .defaulted (recovers_nullableList _ recovers_token) <|
    .defaulted (recovers_nullableList _ recovers_lexicalError) <|
    .defaulted (recovers_nullableNode _) <|
    .defaulted (recovers_nullableList _ recovers_syntaxFinding) <|
    .defaulted (recovers_nullableList _ recovers_semanticFinding) <|
    .defaulted (recovers_nullableList _ recovers_symbol) <| .defaulted (recovers_flag _) .done

theorem recovers_structureValidation (v : StructureValidation) :
    Recovers StructureValidation.decode levels v.toJson v := by
  refine recovers_record (by decide) ?_
  exact .defaulted (recovers_text _) <| .defaulted (recovers_flag _) <|
    .defaulted (recovers_nullableList _ recovers_syntaxFinding) <|
    .defaulted (recovers_nullableList _ recovers_syntaxFinding) <|
    .defaulted (recovers_nullableNode _) .done

theorem recovers_remoteSummary (s : RemoteSummary) :
    Recovers RemoteSummary.decode levels s.toJson s := by
  refine recovers_record (by decide) ?_
  exact .defaulted (recovers_text _) <| .defaulted (recovers_text _) <|
    .defaulted (recovers_count _) <| .defaulted (recovers_flag _) <|
    .defaulted (recovers_map fun e _ => recovers_count e.2) <| .defaulted (recovers_count _) .done

theorem recovers_summary (o : Option RemoteSummary) :
    Recovers (Json.Decoder.optional RemoteSummary.decode) levels
      ((o.map RemoteSummary.toJson).getD .null) o := by
  cases o with
  | none => exact recovers_none
  | some s => exact recovers_some (by rintro ⟨⟩) (recovers_remoteSummary s)

theorem recovers_astResponse (r : AstResponse) :
    Recovers AstResponse.decode levels r.toJson r := by
  refine recovers_record (by decide) ?_
  exact .defaulted (recovers_nullableNode _) <| .defaulted (recovers_flag _) <|
    .defaulted (recovers_summary _) .done

theorem recovers_symbolTableResponse (r : SymbolTableResponse) :
    Recovers SymbolTableResponse.decode levels r.toJson r := by
  refine recovers_record (by decide) ?_
  exact .defaulted (recovers_nullableList _ recovers_symbol) <| .defaulted (recovers_count _) <|
    .defaulted (recovers_nullableList _ recovers_semanticFinding) .done

end AnalysisBrowser
