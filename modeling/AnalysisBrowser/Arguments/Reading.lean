import AnalysisBrowser.Arguments.Grammar

/-!
# Reading command lines

Words are read from the left. A parameter that is given without an attached value waits for the
next word; a word that starts with a dash is never that value. What a parameter has been given is
looked at only when the next known parameter or the end comes, so a later argument that is unknown
is reported before an earlier value that is bad. After a double dash every word is without a name.
-/
namespace AnalysisBrowser.Arguments

/-- A parameter whose value has not been looked at. -/
structure Pending (σ : Type) where
  parameter : Parameter σ
  value : Option String

/-- What has been read so far. -/
structure Progress (σ : Type) where
  settings : σ
  /-- The displays of the parameters given, in order. -/
  given : List String
  /-- How often the verbosity was raised. -/
  raised : Nat
  pending : Option (Pending σ)
  /-- Whether the word without a name has come. -/
  operandCame : Bool
  /-- Whether a double dash has come. -/
  trailing : Bool

namespace Progress

variable {σ : Type}

def start (g : Grammar σ) : Progress σ := ⟨g.blank, [], 0, none, false, false⟩

/-- Records that a parameter is given. -/
def mention (p : Progress σ) (q : Parameter σ) : Except Refusal (Progress σ) :=
  if p.given.contains q.display && !q.repeats then .error (.conflict q.display)
  else .ok { p with given := p.given ++ [q.display] }

/-- Carries out a parameter. -/
def apply (p : Progress σ) (q : Parameter σ) (value : Option String) :
    Except Refusal (Progress σ) :=
  match q.effect, value with
  | .finish refusal, _ => .error refusal
  | .raise, _ => .ok { p with raised := p.raised + 1 }
  | .mark set, _ => do
    let p ← p.mention q
    return { p with settings := set p.settings }
  | .take _, none => .error (.noValue q.display)
  | .take read, some text => do
    let p ← p.mention q
    match read text with
    | .ok set => return { p with settings := set p.settings }
    | .error .empty => throw (.noValue q.display)
    | .error (.because reason) => throw (.badValue q.display text reason)

/-- Looks at what is pending. -/
def settle (p : Progress σ) : Except Refusal (Progress σ) :=
  match p.pending with
  | none => .ok p
  | some q => { p with pending := none }.apply q.parameter q.value

/-- Leaves a parameter pending. -/
def await (p : Progress σ) (q : Parameter σ) (value : Option String) :
    Except Refusal (Progress σ) := do
  let p ← p.settle
  return { p with pending := some ⟨q, value⟩ }

def carryOut (p : Progress σ) (q : Parameter σ) (value : Option String) :
    Except Refusal (Progress σ) := do
  let p ← p.settle
  p.apply q value

/-- Takes a parameter that is given by a long name. -/
def long (g : Grammar σ) (p : Progress σ) (name : String) (attached : Option String) :
    Except Refusal (Progress σ) :=
  match g.long? name, attached with
  | none, _ => .error (.unknownArgument ("--" ++ name))
  | some q, none => if q.takesValue then p.await q none else p.carryOut q none
  | some q, some value =>
    if q.takesValue then p.carryOut q (some value) else .error .unwantedValue

/-- The value that is attached to a short name, without an equals sign in front. -/
def attachedValue : List Char → Option String
  | [] => none
  | '=' :: rest => some (String.ofList rest)
  | rest => some (String.ofList rest)

/-- Takes the parameters that are given by short names behind one dash. -/
def cluster (g : Grammar σ) : Progress σ → List Char → Except Refusal (Progress σ)
  | p, [] => .ok p
  | p, c :: rest =>
    match g.short? c with
    | none => .error (.unknownArgument (String.ofList ['-', c]))
    | some q =>
      if q.takesValue then
        match attachedValue rest with
        | none => p.await q none
        | some value => p.carryOut q (some value)
      else do
        let p ← p.carryOut q none
        p.cluster g rest

/-- Takes a word without a name. -/
def word (g : Grammar σ) (p : Progress σ) (text : String) : Except Refusal (Progress σ) :=
  match g.operand, p.operandCame with
  | some q, false => do
    let p ← p.settle
    return { p with pending := some ⟨q, some text⟩, operandCame := true }
  | _, _ => .error (.unknownArgument text)

/-- Takes a word that is no parameter: the value that is waited for, or one without a name. -/
def plain (g : Grammar σ) (p : Progress σ) (text : String) : Except Refusal (Progress σ) :=
  match p.pending with
  | some ⟨q, none⟩ => .ok { p with pending := some ⟨q, some text⟩ }
  | _ => p.word g text

/-- A long name and its attached value. -/
def splitEquals (cs : List Char) : String × Option String :=
  match cs.dropWhile (· != '=') with
  | [] => (String.ofList cs, none)
  | _ :: value => (String.ofList (cs.takeWhile (· != '=')), some (String.ofList value))

/-- Takes one argument of a command line. -/
def argument (g : Grammar σ) (p : Progress σ) (text : String) : Except Refusal (Progress σ) :=
  if p.trailing then p.word g text
  else match text.toList with
    | ['-', '-'] => .ok { p with trailing := true }
    | '-' :: '-' :: rest =>
      let (name, attached) := splitEquals rest
      p.long g name attached
    | '-' :: c :: rest => p.cluster g (c :: rest)
    | _ => p.plain g text

/-- Refuses parameters that exclude each other; the one that came first is reported. -/
def checkExclusions (g : Grammar σ) (p : Progress σ) : Except Refusal Unit :=
  match p.given.find? fun a => p.given.any (g.excludes a) with
  | some a => .error (.conflict a)
  | none => .ok ()

/-- Takes all arguments of a command line. -/
def arguments (g : Grammar σ) : Progress σ → List String → Except Refusal (Progress σ)
  | p, [] => p.settle
  | p, text :: rest => do
    let p ← p.argument g text
    p.arguments g rest

end Progress

namespace Grammar

variable {σ : Type}

/-- Reads the arguments of a command: its settings and how often the verbosity was raised. -/
def read (g : Grammar σ) (words : List String) : Except Refusal (σ × Nat) := do
  let p ← (Progress.start g).arguments g words
  p.checkExclusions g
  return (p.settings, p.raised)

end Grammar

end AnalysisBrowser.Arguments
