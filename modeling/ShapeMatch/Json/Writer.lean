/-!
# Writing JSON

Reports are written over several lines, with two spaces for each level. The fields of an object
keep the order in which they are given.

## Main definitions

* `Json.Layout`: what is to be written.
* `Json.Layout.pretty`: its text.
-/

namespace ShapeMatch.Json

/-- What is to be written: strings, arrays, and objects with their fields in order. -/
inductive Layout where
  | str (s : String)
  | arr (items : List Layout)
  | obj (fields : List (String × Layout))
deriving Repr

/-- How a character is written between quotes. Controls without an escape of their own are
written by code point. -/
def escapedChar (c : Char) : List Char :=
  match c with
  | '"' => ['\\', '"']
  | '\\' => ['\\', '\\']
  | '\x08' => ['\\', 'b']
  | '\x0c' => ['\\', 'f']
  | '\n' => ['\\', 'n']
  | '\r' => ['\\', 'r']
  | '\t' => ['\\', 't']
  | c =>
    if c.toNat < 0x20 then
      let digits := Nat.toDigits 16 c.toNat
      ['\\', 'u'] ++ List.replicate (4 - digits.length) '0' ++ digits
    else [c]

/-- A string between quotes. -/
def stringText (s : String) : String :=
  String.ofList ('"' :: s.toList.flatMap escapedChar ++ ['"'])

/-- The start of a line at a level. -/
def lineStart (level : Nat) : String := "\n" ++ String.ofList (List.replicate (2 * level) ' ')

/-- Parts on lines of their own, one level further in, between two marks. Without parts the marks
stand together. -/
def block (opening closing : String) (level : Nat) (parts : List String) : String :=
  if parts.isEmpty then opening ++ closing
  else
    opening ++ lineStart (level + 1) ++ ("," ++ lineStart (level + 1)).intercalate parts ++
      lineStart level ++ closing

namespace Layout

mutual

/-- The text at a level. -/
def textAt (level : Nat) : Layout → String
  | str s => stringText s
  | arr items => block "[" "]" level (itemTexts (level + 1) items)
  | obj fields => block "\x7b" "\x7d" level (fieldTexts (level + 1) fields)

def itemTexts (level : Nat) : List Layout → List String
  | [] => []
  | item :: rest => item.textAt level :: itemTexts level rest

def fieldTexts (level : Nat) : List (String × Layout) → List String
  | [] => []
  | (key, item) :: rest =>
    (stringText key ++ ": " ++ item.textAt level) :: fieldTexts level rest

end

/-- The text over several lines. -/
def pretty (l : Layout) : String := l.textAt 0

end Layout

end ShapeMatch.Json
