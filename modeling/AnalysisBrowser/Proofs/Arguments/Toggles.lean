import AnalysisBrowser.Arguments.Invocation
import AnalysisBrowser.Proofs.Tree.Blocks
import AnalysisBrowser.Proofs.Tree.PathText
import AnalysisBrowser.View.Document

/-!
# Toggles on the command line

A tree document names each row by the text of its path. Any number of these texts can be given back
to the tree command, each behind its option, and are read as the very paths they were written from.
A text begins with a digit or a point, never with a dash, so the option always gets it as its value.
-/
namespace AnalysisBrowser

open Arguments

namespace Arguments

/-- The parameter of the tree command that names a node. -/
def toggleParameter : Parameter Settings :=
  .list "toggle" (some 't') "PATH" readNodePath fun p a => { a with toggles := a.toggles ++ [p] }

theorem long?_toggle : Verb.tree.grammar.long? "toggle" = some toggleParameter := rfl

/-- The text of a path does not begin with a dash. -/
theorem isWord_text (p : NodePath) : isWord p.text = true := by
  unfold isWord
  split
  next more dash =>
    have : '-' ∈ p.text.toList := dash ▸ List.mem_cons_self
    have := p.canonical_text.chars '-' this
    contradiction
  next => rfl

namespace Progress

variable {σ : Type} {g : Grammar σ} {p : Progress σ}

theorem argument_of_isWord {text : String} (open_ : p.trailing = false)
    (word : isWord text = true) : p.argument g text = p.plain g text := by
  unfold isWord at word
  unfold argument
  rw [if_neg (by simp [open_])]
  split
  next dashes => simp [dashes] at word
  next dashes => simp [dashes] at word
  next dashes => simp [dashes] at word
  next => rfl

/-- A parameter that waits for a value takes the next word as it is. -/
theorem argument_of_waiting {text : String} {q : Parameter σ} (open_ : p.trailing = false)
    (waits : p.pending = some ⟨q, none⟩) (word : isWord text = true) :
    p.argument g text = .ok { p with pending := some ⟨q, some text⟩ } := by
  rw [argument_of_isWord open_ word, plain, waits]

theorem long_of_known {name : String} {q : Parameter σ} (known : g.long? name = some q)
    (takes : q.takesValue = true) : p.long g name none = p.await q none := by
  unfold long
  rw [known]
  exact if_pos takes

/-- The option for a toggle settles what has come before it, and waits for a value. -/
theorem argument_toggle {p p' : Progress Settings} (open_ : p.trailing = false)
    (settles : p.settle = .ok p') :
    p.argument Verb.tree.grammar "--toggle" =
      .ok { p' with pending := some ⟨toggleParameter, none⟩ } := by
  have named : p.argument Verb.tree.grammar "--toggle" =
      p.long Verb.tree.grammar "toggle" none := by
    unfold argument
    rw [if_neg (by simp [open_])]
    rfl
  rw [named, long_of_known long?_toggle rfl, await, settles]
  rfl

/-- How far the reading has come behind a file and some toggles, with nothing pending. -/
def behind (file : String) (paths : List NodePath) : Progress Settings where
  settings := { Settings.blank with file := some file, toggles := paths }
  given := optionalFile :: paths.map fun _ => toggleParameter.display
  raised := 0
  pending := none
  operandCame := true
  trailing := false

/-- A value that can be read is kept, where its parameter may be given. -/
theorem apply_of_read {q : Parameter σ} {read : String → Except Misreading (σ → σ)}
    {set : σ → σ} (value : String) (takes : q.effect = .take read) (reads : read value = .ok set)
    (allowed : (p.given.contains q.display && !q.repeats) = false) :
    p.apply q (some value) =
      .ok { p with settings := set p.settings, given := p.given ++ [q.display] } := by
  unfold apply mention
  simp only [takes, reads, allowed]
  rfl

theorem settle_toggle (file : String) (done : List NodePath) {q : NodePath} (fits : q.Fits) :
    settle { behind file done with pending := some ⟨toggleParameter, some q.text⟩ } =
      .ok (behind file (done ++ [q])) := by
  have read : readNodePath q.text = .ok q := by
    rw [readNodePath, NodePath.parse_text fits]
    rfl
  have applied := apply_of_read (p := behind file done) (q := toggleParameter) q.text rfl
    (congrArg _ read) (Bool.and_false _)
  refine applied.trans ?_
  rw [behind, behind, List.map_append, List.cons_append]
  rfl

theorem settle_file {file : String} (path : file ≠ "") :
    settle { start Verb.tree.grammar with
      pending := some ⟨fileOperand optionalFile, some file⟩, operandCame := true } =
      .ok (behind file []) := by
  have read : readPath file = .ok file := if_neg (by simpa using path)
  exact apply_of_read (p := { start Verb.tree.grammar with operandCame := true })
    (q := fileOperand optionalFile) file rfl (congrArg _ read) rfl

/-- Toggles are kept in the order of the command line. -/
theorem arguments_toggles {file : String} {done : List NodePath} (paths : List NodePath)
    {p : Progress Settings} (fits : ∀ q ∈ paths, q.Fits) (open_ : p.trailing = false)
    (settles : p.settle = .ok (behind file done)) :
    p.arguments Verb.tree.grammar (paths.flatMap fun q => ["--toggle", q.text]) =
      .ok (behind file (done ++ paths)) := by
  induction paths generalizing p done with
  | nil => rw [List.append_nil]; exact settles
  | cons q rest ih =>
    obtain ⟨first, others⟩ := List.forall_mem_cons.mp fits
    -- The option settles what is pending, and its own value stays pending for the rest.
    have named := argument_toggle open_ settles
    have valued := argument_of_waiting (g := Verb.tree.grammar) (q := toggleParameter)
      (p := { behind file done with pending := some ⟨toggleParameter, none⟩ }) rfl rfl
      (isWord_text q)
    rw [List.flatMap_cons, List.cons_append, List.cons_append, List.nil_append, arguments, named]
    change (do
      let p ← argument _ _ q.text
      p.arguments _ _) = _
    rw [valued, List.append_cons]
    exact ih others rfl (settle_toggle file done first)

theorem mem_given_behind {file : String} {paths : List NodePath} {a : String}
    (mem : a ∈ (behind file paths).given) : a = optionalFile ∨ a = toggleParameter.display := by
  obtain rfl | mem := List.mem_cons.mp mem
  · exact .inl rfl
  · obtain ⟨_, -, rfl⟩ := List.mem_map.mp mem
    exact .inr rfl

theorem checkExclusions_behind (file : String) (paths : List NodePath) :
    (behind file paths).checkExclusions Verb.tree.grammar = .ok () := by
  have together : ∀ a ∈ (behind file paths).given, ∀ b ∈ (behind file paths).given,
      Verb.tree.grammar.excludes a b = false := by
    intro a ha b hb
    obtain rfl | rfl := mem_given_behind ha <;> obtain rfl | rfl := mem_given_behind hb <;> rfl
  have none : ((behind file paths).given.find? fun a =>
      (behind file paths).given.any (Verb.tree.grammar.excludes a)) = none := by
    refine List.find?_eq_none.mpr fun a ha found => ?_
    obtain ⟨b, hb, excludes⟩ := List.any_eq_true.mp found
    rw [together a ha b hb] at excludes
    cases excludes
  rw [checkExclusions, none]

end Progress

theorem read_toggles {file : String} (word : isWord file = true) (path : file ≠ "")
    {paths : List NodePath} (fits : ∀ q ∈ paths, q.Fits) :
    Verb.tree.grammar.read (file :: paths.flatMap fun q => ["--toggle", q.text]) =
      .ok ((Progress.behind file paths).settings, 0) := by
  have first : (Progress.start Verb.tree.grammar).argument Verb.tree.grammar file =
      .ok { Progress.start Verb.tree.grammar with
        pending := some ⟨fileOperand optionalFile, some file⟩, operandCame := true } := by
    rw [Progress.argument_of_isWord rfl word]
    rfl
  have all := Progress.arguments_toggles paths fits rfl (Progress.settle_file path)
  rw [List.nil_append] at all
  rw [Grammar.read, Progress.arguments, first]
  simp only [bind, Except.bind, all, Progress.checkExclusions_behind]
  rfl

end Arguments

/-- The paths of toggles are those whose texts stand on the command line, in the same order. -/
theorem Invocation.ofWords_toggles {file : String} (word : isWord file = true) (path : file ≠ "")
    {paths : List NodePath} (fits : ∀ q ∈ paths, q.Fits) :
    Invocation.ofWords ("tree" :: file :: paths.flatMap fun q => ["--toggle", q.text]) =
      .ok ⟨0, .tree (.code file) ⟨none, none⟩ ⟨.none, paths, none, false⟩⟩ := by
  have named : Verb.ofName? "tree" = some .tree := rfl
  rw [Invocation.ofWords, readInvocation, if_neg (by decide), if_neg (by decide), named]
  dsimp only
  rw [read_toggles word path fits]
  rfl

/-- The text of a path is read as that path, and paths have different texts. A text is read as a path
if it spells one between blanks, and is not read otherwise. Of the spellings of a path its text is
the canonical one, which is read and written as it stands. The texts that a tree document has for
its rows, given back as toggles, stand for the nodes of these rows. -/
theorem pathText_roundTrips :
    (∀ p : NodePath, p.Fits → NodePath.parse p.text = .ok p) ∧
    (∀ p q : NodePath, p.Fits → p.text = q.text → p = q) ∧
    (∀ s p, NodePath.parse s = .ok p ↔
      ∃ middle, Text.Trims s.toList middle ∧ NodePath.Spells middle p) ∧
    (∀ s p, NodePath.parse s = .ok p →
      p.Fits ∧ NodePath.parse p.text = .ok p ∧ NodePath.Canonical p.text.toList ∧
        (NodePath.Canonical s.toList → s = p.text)) ∧
    ∀ root e file, isWord file = true → file ≠ "" →
      ∀ rows : List VisibleRow,
        (∀ r ∈ rows, r ∈ (TreeView.available root).visible e ∧ r.path.Fits) →
        (∀ r ∈ rows, TreeEntry.ofRow e r ∈ (TreeDocument.ofView (.available root) e).nodes ∧
          r.path.resolve root = some r.node) ∧
        Invocation.ofWords
            ("tree" :: file :: rows.flatMap fun r => ["--toggle", (TreeEntry.ofRow e r).path]) =
          .ok ⟨0, .tree (.code file) ⟨none, none⟩
            ⟨.none, rows.map VisibleRow.path, none, false⟩⟩ := by
  refine ⟨fun p => NodePath.parse_text, fun p q => NodePath.text_injective,
    fun s p => NodePath.parse_eq_ok_iff, fun s p read => ?_, fun root e file word path rows shown => ?_⟩
  · have fits := (NodePath.parse_eq_ok_iff_spells.mp read).fits
    exact ⟨fits, NodePath.parse_text fits, p.canonical_text, fun canonical => canonical.eq_text read⟩
  · refine ⟨fun r mem => ⟨List.mem_map_of_mem (shown r mem).1, ?_⟩, ?_⟩
    · exact (listsExpanded_visible root e).node r (shown r mem).1
    · have fits : ∀ q ∈ rows.map VisibleRow.path, q.Fits := by
        intro q mem
        obtain ⟨r, listed, rfl⟩ := List.mem_map.mp mem
        exact (shown r listed).2
      have words := Invocation.ofWords_toggles word path fits
      rwa [List.flatMap_map] at words

/-- A path in another spelling, and the first of two statements named by its text. -/
theorem pathText_roundTrips_twoStatements :
    (NodePath.Fits ⟨[0, 2]⟩ ∧ NodePath.parse (NodePath.text ⟨[0, 2]⟩) = .ok ⟨[0, 2]⟩) ∧
    (NodePath.parse " +00.2 " = .ok ⟨[0, 2]⟩ ∧ NodePath.Canonical (NodePath.text ⟨[0, 2]⟩).toList) ∧
    ∃ r ∈ (TreeView.available twoStatements).visible (.ofDepth 1),
      r.path = ⟨[0]⟩ ∧ r.path.Fits ∧ isWord "a" = true ∧ "a" ≠ "" ∧
      r.path.resolve twoStatements = some r.node ∧
      Invocation.ofWords ["tree", "a", "--toggle", (TreeEntry.ofRow (.ofDepth 1) r).path] =
        .ok ⟨0, .tree (.code "a") ⟨none, none⟩ ⟨.none, [r.path], none, false⟩⟩ := by
  obtain ⟨reads, -, -, spells, back⟩ := pathText_roundTrips
  have fits : NodePath.Fits ⟨[0, 2]⟩ := by decide
  have read : NodePath.parse " +00.2 " = .ok ⟨[0, 2]⟩ := by rfl
  let r : VisibleRow :=
    ⟨{ Node.ofType .statement 1 1 with children := [Node.ofType .expression 1 3] }, 1, ⟨[0]⟩, false⟩
  have mem : r ∈ (TreeView.available twoStatements).visible (.ofDepth 1) := mem_visible.mpr rfl
  have rowFits : r.path.Fits := by decide
  have rows : ∀ s ∈ [r], s ∈ (TreeView.available twoStatements).visible (.ofDepth 1) ∧ s.path.Fits :=
    List.forall_mem_singleton.mpr ⟨mem, rowFits⟩
  obtain ⟨nodes, words⟩ := back twoStatements (.ofDepth 1) "a" (by decide) (by decide) [r] rows
  exact ⟨⟨fits, reads _ fits⟩, ⟨read, (spells _ _ read).2.2.1⟩,
    r, mem, rfl, rowFits, by decide, by decide, (nodes r List.mem_cons_self).2, words⟩

end AnalysisBrowser
