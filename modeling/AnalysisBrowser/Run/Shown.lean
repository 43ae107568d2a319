import AnalysisBrowser.Run.Discovery
import AnalysisBrowser.View.Page

/-!
# What runs print

A run that succeeds prints one page or one document, and says whether what it looked at is in
order. Nothing is printed before that is settled.
-/
namespace AnalysisBrowser

/-- What a run prints. -/
inductive Shown where
  | page (p : Text.Page)
  | document (j : Json)

namespace Shown

/-- The text of what is printed, with or without colour. -/
def text (colored : Bool) : Shown → String
  | .page p => Text.renderPage colored p
  | .document j => printJson j

/-- A view in an output format; a page is headed by its source. -/
def inFormat (format : Format) (source : String) (p : Text.Page) (j : Json) : Shown :=
  match format with
  | .pretty => .page (Page.header source ++ p)
  | .json => .document j

end Shown

/-- The result of a run that did not fail. -/
structure Report where
  shown : Shown
  /-- Whether what the run looked at is in order. -/
  isInOrder : Bool

end AnalysisBrowser
