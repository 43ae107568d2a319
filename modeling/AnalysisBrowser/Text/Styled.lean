/-!
# Styled lines

A page is a list of lines and a line is a list of pieces, some of them painted. A page is rendered
with or without colour. With colour, a painted piece is an opening sequence, its text and the reset
sequence, also when the text is empty; a reset inside the text is followed by the opening sequence
again, so the paint covers the whole piece.
-/
namespace AnalysisBrowser.Text

/-- One way to paint a piece. -/
inductive Paint where
  | bold
  | dimmed
  | red
  | green
  | yellow
  | blue
  | magenta
  | cyan
  | white
  deriving DecidableEq, Repr

/-- The number of a paint in a select-graphic-rendition sequence. -/
def Paint.code : Paint → String
  | .bold => "1"
  | .dimmed => "2"
  | .red => "31"
  | .green => "32"
  | .yellow => "33"
  | .blue => "34"
  | .magenta => "35"
  | .cyan => "36"
  | .white => "37"

/-- A stretch of text, plain or painted. -/
inductive Piece where
  | plain (text : String)
  | painted (paints : List Paint) (text : String)
  deriving DecidableEq, Repr

abbrev Line := List Piece

abbrev Page := List Line

/-- The codes of several paints, joined by semicolons. -/
def joinCodes : List Paint → List Char
  | [] => []
  | [p] => p.code.toList
  | p :: rest => p.code.toList ++ ';' :: joinCodes rest

/-- The sequence that switches paints on. -/
def opening (paints : List Paint) : List Char :=
  '\x1b' :: '[' :: joinCodes paints ++ ['m']

/-- The sequence that switches every paint off. -/
def reset : List Char := ['\x1b', '[', '0', 'm']

def reopenAfterReset (again : List Char) : List Char → List Char
  | '\x1b' :: '[' :: '0' :: 'm' :: rest => reset ++ again ++ reopenAfterReset again rest
  | c :: rest => c :: reopenAfterReset again rest
  | [] => []

/-- A painted stretch of text with its escape sequences. -/
def paintChars (paints : List Paint) (text : List Char) : List Char :=
  opening paints ++ reopenAfterReset (opening paints) text ++ reset

/-- The characters of a piece, with or without its paint. -/
def Piece.chars (colored : Bool) : Piece → List Char
  | .plain text => text.toList
  | .painted paints text => if colored then paintChars paints text.toList else text.toList

/-- The characters of a line, with the line break that ends it. -/
def lineChars (colored : Bool) (line : Line) : List Char :=
  line.flatMap (Piece.chars colored) ++ ['\n']

def renderPage (colored : Bool) (page : Page) : String :=
  String.ofList (page.flatMap (lineChars colored))

theorem renderPage_append (colored : Bool) (p q : Page) :
    renderPage colored (p ++ q) = renderPage colored p ++ renderPage colored q := by
  simp [renderPage, List.flatMap_append, String.ofList_append]

end AnalysisBrowser.Text
