import TracePlot.Drawing.Colour
import TracePlot.Number.Format

/-! Drawings as lists of shapes, and their SVG text. -/

namespace TracePlot.Drawing

abbrev Pixel := Int × Int

inductive Shape where
  /-- A rectangle with the given corner on the upper left. -/
  | box (corner : Pixel) (width height : Int) (filled : Bool) (colour : Colour)
  | circle (centre : Pixel) (radius : Nat) (colour : Colour)
  | line (points : List Pixel) (colour : Colour) (width : Nat)
  /-- A text that starts at a place or has its middle there. -/
  | text (place : Pixel) (centred : Bool) (size : Nat) (content : String)
  /-- A label of a tick, below a place or on the left of it. -/
  | tick (place : Pixel) (below : Bool) (size : Nat) (content : String)
  deriving Inhabited

structure Document where
  width : Nat
  height : Nat
  shapes : List Shape
  deriving Inhabited

def boxBetween (a b : Pixel) (filled : Bool) (colour : Colour) : Shape :=
  let left := min a.1 b.1
  let top := min a.2 b.2
  .box (left, top) (max a.1 b.1 - left) (max a.2 b.2 - top) filled colour

def escapeChar (c : Char) : String :=
  if c = '<' then "&lt;"
  else if c = '>' then "&gt;"
  else if c = '&' then "&amp;"
  else if c = '"' then "&quot;"
  else if c = '\'' then "&apos;"
  else c.toString

/-- A text as it stands in a document. -/
def escapeText (s : String) : String :=
  String.join (s.toList.map escapeChar)

def pointsText (points : List Pixel) : String :=
  " ".intercalate (points.map fun (x, y) => toString x ++ "," ++ toString y)

def attr (name value : String) : String :=
  " " ++ name ++ "=\"" ++ value ++ "\""

def tag (name : String) (attributes : List (String × String)) : String :=
  "<" ++ name ++ String.join (attributes.map fun (n, v) => attr n v)

def textSvg (place : Pixel) (shift anchor : String) (size : Nat) (content : String) : String :=
  tag "text" [("x", toString place.1), ("y", toString place.2), ("dy", shift),
    ("text-anchor", anchor), ("font-family", "sans-serif"), ("font-size", toString size)] ++
    ">" ++ escapeText content ++ "</text>"

def Shape.svg : Shape → String
  | .box (x, y) width height filled colour =>
    let hex := colour.hexText
    tag "rect" [("x", toString x), ("y", toString y), ("width", toString width),
      ("height", toString height), ("opacity", Number.plain colour.alpha),
      ("fill", if filled then hex else "none"), ("stroke", if filled then "none" else hex)] ++ "/>"
  | .circle (x, y) radius colour =>
    tag "circle" [("cx", toString x), ("cy", toString y), ("r", toString radius),
      ("opacity", Number.plain colour.alpha), ("fill", colour.hexText), ("stroke", "none")] ++ "/>"
  | .line points colour width =>
    tag "polyline" [("fill", "none"), ("opacity", Number.plain colour.alpha),
      ("stroke", colour.hexText), ("stroke-width", toString width),
      ("points", pointsText points)] ++ "/>"
  | .text place centred size content =>
    textSvg place "0.76em" (if centred then "middle" else "start") size content
  | .tick place below size content =>
    textSvg place (if below then "0.76em" else "0.5ex") (if below then "middle" else "end") size
      content

def vocabulary : String :=
  "http:" ++ "//www.w3.org/2000/svg"

def Document.svg (d : Document) : String :=
  let size := attr "width" (toString d.width) ++ attr "height" (toString d.height)
  let box := attr "viewBox" ("0 0 " ++ toString d.width ++ " " ++ toString d.height)
  "<svg" ++ size ++ box ++ attr "xmlns" vocabulary ++ ">\n" ++
    String.join (d.shapes.map fun s => s.svg ++ "\n") ++ "</svg>\n"

end TracePlot.Drawing
