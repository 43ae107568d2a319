import AnalysisBrowser.Session
import AnalysisBrowser.View.Page
import AnalysisBrowser.Proofs.Text.Escapes
import AnalysisBrowser.Proofs.Text.Shown
import AnalysisBrowser.Proofs.Tree.PreOrder

/-!
# Texts in results

The texts that a result brings along, part by part, and what becomes of them on a page. Padding,
joining and quoting never bring an escape character into a text.
-/
namespace AnalysisBrowser

open Text (AllPlain Plain)

namespace Text

/-- A fixed text is looked through as the list of its characters. -/
theorem plain_ofList {cs : List Char} (clear : '\x1b' ∉ cs) : Plain (String.ofList cs) := by
  unfold Plain
  rwa [String.toList_ofList]

theorem plain_of_notMem {s : String} (clear : '\x1b' ∉ s.toList) : Plain s := clear

@[simp] theorem plain_append {s t : String} : Plain (s ++ t) ↔ Plain s ∧ Plain t := by
  simp [Plain]

theorem plain_spaces (n : Nat) : Plain (spaces n) := by
  intro mem
  rw [spaces, String.toList_ofList] at mem
  have space := List.eq_of_mem_replicate mem
  revert space
  decide

@[simp] theorem plain_padRight {width : Nat} {s : String} : Plain (padRight width s) ↔ Plain s := by
  simp [padRight, plain_spaces]

@[simp] theorem plain_padLeft {width : Nat} {s : String} : Plain (padLeft width s) ↔ Plain s := by
  simp [padLeft, plain_spaces]

/-- The escape character is hidden. -/
theorem plain_of_shown {s : String} (shown : Shown s) : Plain s := shown.notMem (by decide)

@[simp] theorem plain_decimal (n : Nat) : Plain (Number.decimal n) :=
  plain_of_shown (shown_decimal n)

@[simp] theorem plain_quoted (s : String) : Plain (quoted s) := plain_of_shown (shown_quoted s)

theorem plain_joinWith {separator : String} {texts : List String} (plain : Plain separator)
    (all : AllPlain texts) : Plain (joinWith separator texts) := by
  fun_induction joinWith separator texts with
  | case1 => decide
  | case2 s => exact all s List.mem_cons_self
  | case3 s rest _ ih =>
    have first := all s List.mem_cons_self
    have others := ih fun t mem => all t (List.mem_cons_of_mem s mem)
    simp [first, others, plain]

theorem plain_replaceChar {old new : Char} {s : String} (printed : new ≠ '\x1b') (plain : Plain s) :
    Plain (replaceChar old new s) := by
  intro mem
  rw [replaceChar, String.toList_ofList, List.mem_map] at mem
  obtain ⟨c, mem, same⟩ := mem
  split at same
  · exact printed same
  · rw [same] at mem
    exact plain mem

@[simp] theorem allPlain_nil : AllPlain [] := by
  intro s mem
  cases mem

@[simp] theorem allPlain_cons {s : String} {texts : List String} :
    AllPlain (s :: texts) ↔ Plain s ∧ AllPlain texts :=
  List.forall_mem_cons

@[simp] theorem allPlain_append {s t : List String} :
    AllPlain (s ++ t) ↔ AllPlain s ∧ AllPlain t :=
  List.forall_mem_append

@[simp] theorem allPlain_flatMap {α : Type} {f : α → List String} {items : List α} :
    AllPlain (items.flatMap f) ↔ ∀ a ∈ items, AllPlain (f a) := by
  simp only [AllPlain, List.mem_flatMap]
  constructor
  · intro all a mem s text
    exact all s ⟨a, mem, text⟩
  · rintro all s ⟨a, mem, text⟩
    exact all a mem s text

@[simp] theorem allPlain_map {α : Type} {f : α → String} {items : List α} :
    AllPlain (items.map f) ↔ ∀ a ∈ items, Plain (f a) :=
  List.forall_mem_map

@[simp] theorem allPlain_toList {s? : Option String} :
    AllPlain s?.toList ↔ ∀ s, s? = some s → Plain s := by
  simp [AllPlain]

@[simp] theorem pageTexts_nil : pageTexts [] = [] := rfl

@[simp] theorem pageTexts_cons (line : Line) (page : Page) :
    pageTexts (line :: page) = lineTexts line ++ pageTexts page := rfl

@[simp] theorem pageTexts_append (p q : Page) : pageTexts (p ++ q) = pageTexts p ++ pageTexts q :=
  List.flatMap_append

@[simp] theorem pageTexts_map {α : Type} (f : α → Line) (items : List α) :
    pageTexts (items.map f) = items.flatMap fun a => lineTexts (f a) := by
  simp [pageTexts, List.flatMap_map]

@[simp] theorem pageTexts_flatMap {α : Type} (f : α → Page) (items : List α) :
    pageTexts (items.flatMap f) = items.flatMap fun a => pageTexts (f a) := by
  simp [pageTexts, List.flatMap_assoc]

@[simp] theorem lineTexts_nil : lineTexts [] = [] := rfl

@[simp] theorem lineTexts_cons (piece : Piece) (line : Line) :
    lineTexts (piece :: line) = piece.text :: lineTexts line := rfl

@[simp] theorem lineTexts_append (l k : Line) : lineTexts (l ++ k) = lineTexts l ++ lineTexts k :=
  List.map_append

@[simp] theorem lineTexts_flatMap {α : Type} (f : α → Line) (items : List α) :
    lineTexts (items.flatMap f) = items.flatMap fun a => lineTexts (f a) := by
  simp [lineTexts, List.map_flatMap]

@[simp] theorem text_plain (s : String) : (Piece.plain s).text = s := rfl

@[simp] theorem text_painted (paints : List Paint) (s : String) :
    (Piece.painted paints s).text = s := rfl

end Text

def Token.texts (t : Token) : List String := [t.value]

def LexicalError.texts (e : LexicalError) : List String := [e.message]

def Attributes.texts (attributes : Option Attributes) : List String :=
  (attributes.getD .empty).toList.flatMap fun (k, v) => [k, v]

def Symbol.texts (s : Symbol) : List String :=
  [s.name, s.type, s.scope] ++ Attributes.texts s.attributes

def Detail.texts : Detail → List String
  | .syntactic expected found => expected.toList ++ found.toList
  | .semantic symbol symbolType => symbol.toList ++ symbolType.toList

def Finding.texts (f : Finding) : List String := [f.message, f.errorType] ++ f.detail.texts

/-- The texts of a node, without those of its children. -/
def Node.ownTexts (n : Node) : List String :=
  n.typeName.toList ++ n.value.toList ++ Attributes.texts n.attributes

mutual

/-- The texts of all nodes of a tree. -/
def Node.texts : Node → List String
  | ⟨typeName, value, line, position, children, attributes⟩ =>
    (⟨typeName, value, line, position, children, attributes⟩ : Node).ownTexts ++
      Node.textsAll children

def Node.textsAll : List Node → List String
  | [] => []
  | n :: rest => n.texts ++ Node.textsAll rest

end

def ResultModel.texts (m : ResultModel) : List String :=
  m.tokens.flatMap Token.texts ++ m.lexicalErrors.flatMap LexicalError.texts ++ m.ast.texts ++
    m.syntaxFindings.flatMap Finding.texts ++ m.semanticFindings.flatMap Finding.texts ++
    m.symbolTable.flatMap Symbol.texts

def StructureValidation.texts (v : StructureValidation) : List String :=
  [v.structureType] ++
    (v.structureErrors ++ v.generalErrors).flatMap (fun e => e.toFinding.texts) ++ v.ast.texts

theorem Node.texts_eq (n : Node) : n.texts = n.ownTexts ++ Node.textsAll n.children := by
  cases n
  rw [Node.texts]

theorem Node.textsAll_eq (ns : List Node) : Node.textsAll ns = ns.flatMap Node.texts := by
  induction ns with
  | nil => rfl
  | cons n rest ih => rw [Node.textsAll, ih, List.flatMap_cons]

/-- Every node of a plain tree is plain. -/
theorem Node.allPlain_of_follow {is : List Nat} {n c : Node} (plain : AllPlain n.texts)
    (found : NodePath.follow is n = some c) : AllPlain c.ownTexts := by
  induction is generalizing n with
  | nil =>
    cases found
    rw [Node.texts_eq, Text.allPlain_append] at plain
    exact plain.1
  | cons i rest ih =>
    obtain ⟨child, nth, onward⟩ := Option.bind_eq_some_iff.mp found
    rw [Node.texts_eq, Node.textsAll_eq, Text.allPlain_append, Text.allPlain_flatMap] at plain
    exact ih (plain.2 child (List.mem_of_getElem? nth)) onward

end AnalysisBrowser
