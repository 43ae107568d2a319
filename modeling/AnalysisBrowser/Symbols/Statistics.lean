import AnalysisBrowser.Symbols.Filter

/-!
# Facets and statistics of the symbol table

Both always describe the whole table, whatever filter is in use.
-/
namespace AnalysisBrowser

/-- The values of a list without repetitions, in order of first occurrence. -/
def firstOccurrences {α : Type} [DecidableEq α] (values : List α) : List α :=
  values.foldl (fun seen v => if v ∈ seen then seen else seen ++ [v]) []

/-- The distinct kinds and scopes of a table, in order of first occurrence. -/
structure Facets where
  kinds : List SymbolKind
  scopes : List String
  deriving DecidableEq, Repr

namespace Facets

def ofTable (table : List Symbol) : Facets :=
  ⟨firstOccurrences (table.map Symbol.kind), firstOccurrences (table.map Symbol.scope)⟩

def toJson (f : Facets) : Json :=
  .object [("kinds", .list (fun k => .string k.name) f.kinds), ("scopes", .list .string f.scopes)]

end Facets

/-- Counts over a whole table. -/
structure SymbolStatistics where
  total : Nat
  used : Nat
  unused : Nat
  variableCount : Nat
  functionCount : Nat
  classCount : Nat
  interfaceCount : Nat
  /-- Every kind, also those that do not occur. -/
  byKind : List (SymbolKind × Nat)
  deriving DecidableEq, Repr

namespace SymbolStatistics

def countKind (table : List Symbol) (k : SymbolKind) : Nat := table.countP fun s => s.kind == k

def ofTable (table : List Symbol) : SymbolStatistics :=
  let used := table.countP Symbol.used
  { total := table.length
    used
    unused := table.length - used
    variableCount := countKind table .variable
    functionCount := countKind table .function
    classCount := countKind table .classType
    interfaceCount := countKind table .interface
    byKind := SymbolKind.all.map fun k => (k, countKind table k) }

/-- The number of symbols of one kind. -/
def countOf (s : SymbolStatistics) (k : SymbolKind) : Nat := (s.byKind.lookup k).getD 0

def toJson (s : SymbolStatistics) : Json :=
  .object
    [("total", .count s.total), ("used", .count s.used), ("unused", .count s.unused),
      ("variables", .count s.variableCount), ("functions", .count s.functionCount),
      ("classes", .count s.classCount), ("interfaces", .count s.interfaceCount),
      ("by_kind",
        .list (fun (k, n) => .object [("kind", .string k.name), ("count", .count n)]) s.byKind)]

end SymbolStatistics

/-- A symbol table as it is shown: an empty one is told apart. -/
inductive SymbolView where
  | noSymbols
  | table (symbols : List Symbol)

def SymbolView.ofTable : List Symbol → SymbolView
  | [] => .noSymbols
  | s :: rest => .table (s :: rest)

/-- The symbols with at least one attribute, in order. -/
def withAttributes (symbols : List Symbol) : List Symbol := symbols.filter Symbol.hasAttributes

end AnalysisBrowser
