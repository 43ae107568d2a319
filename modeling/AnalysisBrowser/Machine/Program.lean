import AnalysisBrowser.Client.Exchange
import AnalysisBrowser.Machine.Disk
import AnalysisBrowser.Machine.Note

/-!
# Programs

A program is what a run asks of its surroundings, question by question, and what it does with each
answer. It is plain data: `execute` plays it against any surroundings, a model of a machine as well
as a real one, so what holds of every program holds of both.
-/
namespace AnalysisBrowser

/-- How two requests that are under way together end. -/
structure Replies where
  first : Exchange
  second : Exchange
  /-- Whether the second exchange ended before the first. -/
  overtaken : Bool

/-- One question to the surroundings. -/
inductive Query where
  | isPresent (path : String)
  | isDirectory (path : String)
  | read (path : String)
  | makeDirectory (path : String)
  | write (path : String) (content : List UInt8)
  /-- The path of the user's own settings. -/
  | userConfig
  | exchange (request : Request)
  | exchangeBoth (first second : Request)
  | note (n : Note)

/-- What the surroundings answer to a question. -/
@[reducible] def Query.Answer : Query → Type
  | .isPresent _ => Bool
  | .isDirectory _ => Bool
  | .read _ => Except FileError (List UInt8)
  | .makeDirectory _ => Except FileError Unit
  | .write _ _ => Except FileError Unit
  | .userConfig => Option String
  | .exchange _ => Exchange
  | .exchangeBoth _ _ => Replies
  | .note _ => Unit

/-- Questions and what follows each answer, up to a result. -/
inductive Program (α : Type) : Type where
  | done (result : α)
  | ask (query : Query) (next : query.Answer → Program α)

namespace Program

variable {α β : Type}

/-- Goes on with a program that depends on the result. -/
def bind : Program α → (α → Program β) → Program β
  | .done a, k => k a
  | .ask query next, k => .ask query fun answer => (next answer).bind k

instance : Monad Program where
  pure := .done
  bind := bind

/-- The program of one question. -/
def query (q : Query) : Program q.Answer := .ask q .done

/-- Plays a program against surroundings. -/
def execute {m : Type → Type} [Monad m] (answer : (q : Query) → m q.Answer) :
    Program α → m α
  | .done a => pure a
  | .ask q next => do
    let a ← answer q
    execute answer (next a)

@[simp] theorem done_bind (a : α) (k : α → Program β) : (Program.done a).bind k = k a := rfl

@[simp] theorem ask_bind (q : Query) (next : q.Answer → Program α) (k : α → Program β) :
    (Program.ask q next).bind k = .ask q fun answer => (next answer).bind k := rfl

@[simp] theorem bind_done (p : Program α) : p.bind .done = p := by
  induction p with
  | done a => rfl
  | ask q next ih => simp only [ask_bind, ih]

theorem bind_assoc {γ : Type} (p : Program α) (f : α → Program β) (g : β → Program γ) :
    (p.bind f).bind g = p.bind fun a => (f a).bind g := by
  induction p with
  | done a => rfl
  | ask q next ih => simp only [ask_bind, ih]

instance : LawfulMonad Program :=
  LawfulMonad.mk' Program bind_done (fun _ _ => rfl) bind_assoc

/-- Remarks something. -/
def note (level : NoteLevel) (area : NoteArea) (text : String) : Program Unit :=
  query (.note ⟨level, area, text⟩)

end Program

end AnalysisBrowser
