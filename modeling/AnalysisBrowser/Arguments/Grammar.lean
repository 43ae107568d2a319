/-!
# Grammars of command lines

What may stand on a command line: parameters with a long and perhaps a short name, and at most one
word without a name. A grammar says how each of them changes a record of settings, which exclude
each other, and what must not be missing at the end.
-/
namespace AnalysisBrowser.Arguments

/-- Why a word is no value for a parameter. -/
inductive Misreading where
  /-- Only a text with at least one character is a value. -/
  | empty
  | because (reason : String)
  deriving DecidableEq, Repr

/-- Why a command line is not carried out. -/
inductive Refusal where
  | help
  | version
  /-- Nothing is on the command line. -/
  | nothingGiven
  | noCommand
  | unknownCommand
  | unknownArgument (text : String)
  /-- The argument is given twice, or together with one that it excludes. -/
  | conflict (parameter : String)
  /-- A value is attached to a parameter that takes none. -/
  | unwantedValue
  | noValue (parameter : String)
  | badValue (parameter value reason : String)
  | missing (parameters : List String)
  deriving DecidableEq, Repr

/-- What a parameter does where it is given. -/
inductive Effect (σ : Type) where
  /-- Sets something, without a value. -/
  | mark (set : σ → σ)
  /-- Takes a value and keeps it. -/
  | take (read : String → Except Misreading (σ → σ))
  /-- Raises the verbosity, every time. -/
  | raise
  /-- Ends the reading. -/
  | finish (refusal : Refusal)

/-- Something that may be given by name. -/
structure Parameter (σ : Type) where
  /-- How messages call it. -/
  display : String
  long : String
  short : Option Char
  /-- Whether it may be given more than once. -/
  repeats : Bool
  effect : Effect σ

namespace Parameter

variable {σ : Type}

/-- A parameter without a value. -/
def flag (long : String) (short : Option Char) (set : σ → σ) : Parameter σ :=
  ⟨"--" ++ long, long, short, false, .mark set⟩

def option {α : Type} (long : String) (short : Option Char) (valueName : String)
    (read : String → Except Misreading α) (set : α → σ → σ) : Parameter σ :=
  ⟨"--" ++ long ++ " <" ++ valueName ++ ">", long, short, false,
    .take fun s => (read s).map set⟩

/-- A parameter with a value that may be given again. -/
def list {α : Type} (long : String) (short : Option Char) (valueName : String)
    (read : String → Except Misreading α) (add : α → σ → σ) : Parameter σ :=
  { option long short valueName read add with repeats := true }

def verbose : Parameter σ := ⟨"--verbose", "verbose", some 'v', true, .raise⟩

def help : Parameter σ := ⟨"--help", "help", some 'h', true, .finish .help⟩

/-- The parameter that asks for the version. -/
def version : Parameter σ := ⟨"--version", "version", some 'V', true, .finish .version⟩

/-- Whether a parameter waits for a value. -/
def takesValue (p : Parameter σ) : Bool :=
  match p.effect with
  | .take _ => true
  | _ => false

end Parameter

/-- What may stand on a command line. -/
structure Grammar (σ : Type) where
  blank : σ
  parameters : List (Parameter σ)
  /-- What the word without a name is for. -/
  operand : Option (Parameter σ)
  /-- Pairs of parameters, by display, that exclude each other. -/
  exclusions : List (String × String)

namespace Grammar

variable {σ : Type}

def long? (g : Grammar σ) (name : String) : Option (Parameter σ) :=
  g.parameters.find? (·.long == name)

/-- The parameter with a short name. -/
def short? (g : Grammar σ) (c : Char) : Option (Parameter σ) :=
  g.parameters.find? (·.short == some c)

/-- Whether two parameters exclude each other. -/
def excludes (g : Grammar σ) (a b : String) : Bool :=
  g.exclusions.contains (a, b) || g.exclusions.contains (b, a)

end Grammar

/-- A text with at least one character, such as the path of a file. -/
def readPath (s : String) : Except Misreading String :=
  if s.isEmpty then .error .empty else .ok s

/-- Any text. -/
def readText (s : String) : Except Misreading String := .ok s

end AnalysisBrowser.Arguments
