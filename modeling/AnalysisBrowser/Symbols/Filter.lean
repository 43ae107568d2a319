import AnalysisBrowser.Model.Symbol

/-!
# Filtering symbols

A filter narrows the symbol table row by row and never reorders it. Its three conditions must all
hold. Scopes are opaque texts: no scope name is special.
-/
namespace AnalysisBrowser

/-- The kinds to keep. -/
inductive KindFilter where
  | all
  | only (kind : SymbolKind)
  deriving DecidableEq, Repr

/-- The kinds that a text asks for: every one, or one of them by name. -/
def KindFilter.ofText? (s : String) : Option KindFilter :=
  if Text.equalsIgnoringAsciiCase s "all" then some .all else (SymbolKind.ofText? s).map .only

def KindFilter.accepts : KindFilter → SymbolKind → Bool
  | .all, _ => true
  | .only kind, k => k == kind

/-- The scopes to keep. -/
inductive ScopeFilter where
  | all
  | only (scope : String)
  deriving DecidableEq, Repr

/-- Every scope, or the one that is named. -/
def ScopeFilter.ofOption : Option String → ScopeFilter
  | none => .all
  | some s => .only s

def ScopeFilter.accepts : ScopeFilter → String → Bool
  | .all, _ => true
  | .only scope, s => s == scope

/-- The conditions on a row of the symbol table. -/
structure SymbolFilter where
  kind : KindFilter
  scope : ScopeFilter
  includeUnused : Bool
  deriving DecidableEq, Repr

namespace SymbolFilter

/-- The filter that keeps every row. -/
def everything : SymbolFilter := ⟨.all, .all, true⟩

/-- Whether a symbol meets every condition. -/
def accepts (f : SymbolFilter) (s : Symbol) : Bool :=
  f.kind.accepts s.kind && f.scope.accepts s.scope && (f.includeUnused || s.used)

/-- Whether any condition is set. -/
def isActive (f : SymbolFilter) : Bool := f != everything

/-- The rows of a table that meet every condition. -/
def apply (f : SymbolFilter) (table : List Symbol) : List Symbol := table.filter f.accepts

end SymbolFilter

end AnalysisBrowser
