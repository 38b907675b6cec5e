import ShapeMatch.Text.Quoted

/-!
# Outlines

The one-line notation in which trees are shown to a reader: `Name(part, part)`,
a name with labelled parts in braces, lists in brackets and maps in braces.
-/

namespace ShapeMatch.Outline

/-- Parts separated by commas. -/
def commas (parts : List String) : String := ", ".intercalate parts

/-- A name with its parts in parentheses. -/
def call (name : String) (parts : List String) : String := name ++ "(" ++ commas parts ++ ")"

/-- A name with its labelled parts in braces. -/
def record (name : String) (fields : List (String × String)) : String :=
  name ++ " \x7b " ++ commas (fields.map fun f => f.1 ++ ": " ++ f.2) ++ " \x7d"

/-- Parts in brackets. -/
def list (parts : List String) : String := "[" ++ commas parts ++ "]"

/-- Parts in braces, each after its key. -/
def map (entries : List (String × String)) : String :=
  "\x7b" ++ commas (entries.map fun e => e.1 ++ ": " ++ e.2) ++ "\x7d"

/-- Nothing, or one part. -/
def option (part : Option String) : String :=
  match part with
  | none => "None"
  | some text => call "Some" [text]

end ShapeMatch.Outline
