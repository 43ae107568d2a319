import AnalysisBrowser.Diagnostics.Report
import AnalysisBrowser.Symbols.Statistics
import AnalysisBrowser.Tree.View

/-!
# Sessions

A session holds the result of the latest run and the expansion of its tree. Every view is derived
from the two on request. A new result starts with a fresh expansion of the same depth.
-/
namespace AnalysisBrowser

/-- One result and how its tree is expanded. -/
structure Session where
  model : ResultModel
  expansion : Expansion

namespace Session

def start (model : ResultModel) (expandDepth : Nat) : Session := ⟨model, .ofDepth expandDepth⟩

/-- The session after a new run. -/
def replace (s : Session) (model : ResultModel) : Session := start model s.expansion.expandDepth

/-- Flips the node at a path. -/
def toggle (s : Session) (p : NodePath) : Session := { s with expansion := s.expansion.toggle p }

/-- Expands every node. -/
def expandAll (s : Session) : Session := { s with expansion := s.expansion.expandAll s.model.ast }

/-- Collapses every node. -/
def collapseAll (s : Session) : Session :=
  { s with expansion := s.expansion.collapseAll s.model.ast }

def tree (s : Session) : TreeView := .ofNode s.model.ast

/-- The rows of the tree that show. -/
def visible (s : Session) : List VisibleRow := s.tree.visible s.expansion

/-- The view of the symbol table. -/
def symbols (s : Session) : SymbolView := .ofTable s.model.symbolTable

/-- The report on the findings. -/
def errors (s : Session) : ErrorReport := .ofModel s.model

end Session

end AnalysisBrowser
