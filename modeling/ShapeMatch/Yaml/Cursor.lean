/-!
# Positions in YAML text

Cutting YAML text into tokens needs the column for indentation, the line for keys that may not
cross one, and a look ahead of a few characters. The end of the text reads as NUL, a character
that YAML text may not contain.

## Main definitions

* `Yaml.isAllowed`, `Yaml.isBlank`, `Yaml.isBreak`, `Yaml.isNameChar`: classes of characters.
* `Yaml.Cursor`: what is left of a text, and where that is.
* `Yaml.Cursor.repeat?`: repeats a step that moves forward until it is done.
-/

namespace ShapeMatch.Yaml

/-- The characters that YAML text may contain. -/
def isAllowed (c : Char) : Bool :=
  let n := c.toNat
  c == '\t' || c == '\n' || c == '\r' || (0x20 ≤ n && n ≤ 0x7E) || n == 0x85 ||
    (0xA0 ≤ n && n ≤ 0xD7FF) || (0xE000 ≤ n && n ≤ 0xFFFD) || 0x10000 ≤ n

/-- What the end of the text reads as. -/
def endMark : Char := '\x00'

def isBlank (c : Char) : Bool := c == ' ' || c == '\t'

/-- The characters that end a line: line feed, carriage return, next line, and the line and
paragraph separators. -/
def isBreak (c : Char) : Bool :=
  c == '\n' || c == '\r' || c == '\u0085' || c == '\u2028' || c == '\u2029'

/-- A line break or the end of the text. -/
def isBreakOrEnd (c : Char) : Bool := isBreak c || c == endMark

/-- A blank, a line break or the end of the text. -/
def isGap (c : Char) : Bool := isBlank c || isBreakOrEnd c

/-- The characters of anchors, tag handles and directive names. -/
def isNameChar (c : Char) : Bool := c.isAlphanum || c == '_' || c == '-'

/-- The indicators of flow collections that also separate their parts. -/
def isFlowIndicator (c : Char) : Bool :=
  c == ',' || c == '[' || c == ']' || c == '\x7b' || c == '\x7d'

/-- The length of a text in UTF-8. -/
def octetCount (cs : List Char) : Nat := cs.foldl (fun n c => n + c.utf8Size) 0

/-- What is left of a text, with the number of octets before it, its line and its column. -/
structure Cursor where
  rest : List Char
  index : Nat
  line : Nat
  column : Nat

namespace Cursor

/-- The start of a text. -/
def start (text : List Char) : Cursor := ⟨text, 0, 0, 0⟩

/-- The next character. -/
def peek (c : Cursor) : Char := c.rest.headD endMark

/-- The character `n` places ahead. -/
def peekAt (c : Cursor) (n : Nat) : Char := c.rest.getD n endMark

/-- Moves on by `n` characters of one line. -/
def advance (c : Cursor) (n : Nat) : Cursor :=
  let passed := c.rest.take n
  ⟨c.rest.drop n, c.index + octetCount passed, c.line, c.column + passed.length⟩

/-- Moves past the next character. -/
def next (c : Cursor) : Cursor :=
  match c.rest with
  | [] => c
  | p :: rest => ⟨rest, c.index + p.utf8Size, c.line, c.column + 1⟩

/-- Moves past a line break; carriage return and line feed together are one. -/
def nextLine (c : Cursor) : Cursor :=
  match c.rest with
  | '\r' :: '\n' :: rest => ⟨rest, c.index + 2, c.line + 1, 0⟩
  | b :: rest => if isBreak b then ⟨rest, c.index + b.utf8Size, c.line + 1, 0⟩ else c
  | [] => c

/-- The text of the line break at the cursor: separators stand for themselves, and every other
break is a line feed. -/
def lineBreak (c : Cursor) : List Char :=
  let b := c.peek
  if b == '\u2028' || b == '\u2029' then [b] else if isBreak b then ['\n'] else []

/-- The longest run of characters of a class that holds no line breaks, and what follows. -/
def span (c : Cursor) (inClass : Char → Bool) : List Char × Cursor :=
  let (run, rest) := c.rest.span inClass
  (run, ⟨rest, c.index + octetCount run, c.line, c.column + run.length⟩)

/-- Moves past a run of characters of a class that holds no line breaks. -/
def skip (c : Cursor) (inClass : Char → Bool) : Cursor := (c.span inClass).2

/-- Moves past blanks and a comment, up to the end of the line or the next text. -/
def skipComment (c : Cursor) : Cursor :=
  let c := c.skip isBlank
  if c.peek == '#' then c.skip (!isBreakOrEnd ·) else c

/-- Whether `---` or `...` stands at the start of a line, with nothing attached. -/
def atDocumentMark (c : Cursor) (mark : Char) : Bool :=
  c.column == 0 && c.peek == mark && c.peekAt 1 == mark && c.peekAt 2 == mark &&
    isGap (c.peekAt 3)

/-- Whether a document marker stands at the cursor. -/
def atDocumentEdge (c : Cursor) : Bool := c.atDocumentMark '-' || c.atDocumentMark '.'

end Cursor

/-- What a repeated step says: to go on with a state, or that it is done. -/
inductive Progress (σ β : Type) where
  | more (state : σ)
  | done (result : β)

/-- Repeats a step as often as `fuel` has characters, and once more. -/
def Cursor.repeatWith {σ β : Type} (step : σ → Cursor → Option (Progress σ β × Cursor))
    (fuel : List Char) (s : σ) (c : Cursor) : Option (β × Cursor) :=
  match step s c, fuel with
  | some (.done b, c), _ => some (b, c)
  | some (.more s, c), _ :: fuel => Cursor.repeatWith step fuel s c
  | _, _ => none

/-- Repeats a step until it is done or fails. A step that goes on must move past a character,
so as many steps as there are characters left, and one more at the end, are enough. -/
def Cursor.repeat? {σ β : Type} (c : Cursor) (s : σ)
    (step : σ → Cursor → Option (Progress σ β × Cursor)) : Option (β × Cursor) :=
  Cursor.repeatWith step c.rest s c

end ShapeMatch.Yaml
