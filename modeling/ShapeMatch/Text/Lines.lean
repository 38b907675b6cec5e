/-!
# Lines of a text

A line ends with a line feed, which a carriage return may precede. Text after the last line feed
is a line of its own. Those who read what the program prints take it apart in this way; what a report
is to them follows in `ShapeMatch.Proofs.Report`.

## Main definitions

* `textLines`: the lines of a text.
-/

namespace ShapeMatch

/-- A line without the carriage return at its end. -/
def dropCarriageReturn (line : List Char) : List Char :=
  if line.getLast? = some '\r' then line.dropLast else line

/-- The lines of a text, where `current` holds what was read of the first, last character
first. -/
def linesAfter (current : List Char) : List Char → List (List Char)
  | [] => if current.isEmpty then [] else [current.reverse]
  | c :: rest =>
    if c = '\n' then dropCarriageReturn current.reverse :: linesAfter [] rest
    else linesAfter (c :: current) rest

/-- The lines of a text. -/
def textLines (s : String) : List String := (linesAfter [] s.toList).map String.ofList

end ShapeMatch
