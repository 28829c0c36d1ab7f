import TracePlot.Drawing.FigurePage
import TracePlot.Drawing.HistogramPage
import TracePlot.Failure
import TracePlot.Log

/-! Writing drawings to files. -/

namespace TracePlot.Drawing

/-- The last part of a path that names something. -/
def fileName? (path : String) : Option String :=
  match ((path.splitOn "/").filter fun part => part ≠ "" && part ≠ ".").getLast? with
  | some ".." => none
  | other => other

/-- Whether the name ends in `.svg`, in any case, after something else. -/
def hasSvgName (path : String) : Bool :=
  match fileName? path with
  | none => false
  | some name =>
    let parts := name.splitOn "."
    2 ≤ parts.length && (parts.dropLast ≠ [""]) &&
      (parts.getLast?.map fun e => Number.asciiLower e.toList) = some "svg".toList

/-- A drawing that goes to a file, with what is reported on the way. -/
structure Output where
  /-- Reported before the drawing is written. -/
  before : List Log
  written : Except Failure (Option (String × Document × Log))

def figureOutput (files : Files) (f : Figure) (path : String) : Output where
  before :=
    if hasSvgName path then []
    else [⟨.warn, .drawing, path ++ " has no .svg extension, writing SVG anyway"⟩]
  written :=
    match files.writeFault? path with
    | some fault => .error (.unwritten "figure" path fault)
    | none =>
      .ok (some (path, FigurePage.document f, ⟨.info, .drawing, "Figure written to " ++ path⟩))

def histogramOutput (files : Files) (h : Histogram) (path : String) : Output where
  before := []
  written :=
    match HistogramPage.document? h with
    | none => .ok none
    | some document =>
      match files.writeFault? path with
      | some fault => .error (.unwritten "histogram" path fault)
      | none =>
        .ok (some (path, document, ⟨.info, .histogram, "Histogram written to " ++ path⟩))

end TracePlot.Drawing
