import ShapeMatch.Yaml.Cursor
import ShapeMatch.Number.Literal

/-!
# Scalars in YAML text

Plain, quoted and block scalars, with their rules for joining lines. Text in progress is kept
last character first, so that adding to it does not depend on its length.

## Main definitions

* `Yaml.Gap`: blanks and line breaks between two words of a plain or quoted scalar.
* `Yaml.plainScalar?`, `Yaml.quotedScalar?`, `Yaml.blockScalar?`: the text of a scalar and what
  follows it.
-/

namespace ShapeMatch.Yaml

/-- Blanks and line breaks between two words, the last first. Before the first line break the
blanks count; from then on only the line breaks do. -/
structure Gap where
  blanks : List Char
  broken : Bool
  firstBreak : List Char
  otherBreaks : List Char

namespace Gap

/-- No gap yet. -/
def none : Gap := ⟨[], false, [], []⟩

/-- A gap that begins after a line break which leaves no trace. -/
def afterHiddenBreak : Gap := ⟨[], true, [], []⟩

/-- What stands for the gap, last character first: the blanks; or a space for a single line
break; or the line breaks but for the first. A separator is no line feed and stands for
itself. -/
def text (g : Gap) : List Char :=
  if !g.broken then g.blanks
  else if g.firstBreak = ['\n'] then
    if g.otherBreaks.isEmpty then [' '] else g.otherBreaks
  else g.otherBreaks ++ g.firstBreak

/-- Takes in the blank or the line break at the cursor. -/
def absorb (g : Gap) (c : Cursor) : Gap × Cursor :=
  if isBlank c.peek then
    (if g.broken then g else { g with blanks := c.peek :: g.blanks }, c.next)
  else if g.broken then
    ({ g with otherBreaks := c.lineBreak ++ g.otherBreaks }, c.nextLine)
  else (⟨[], true, c.lineBreak, []⟩, c.nextLine)

/-- Takes in all blanks and line breaks at the cursor. The check refuses a blank in a place
where it may not stand. -/
def absorbAll? (g : Gap) (c : Cursor) (allowed : Gap → Cursor → Bool) : Option (Gap × Cursor) :=
  c.repeat? g fun g c =>
    if isBlank c.peek || isBreak c.peek then
      if allowed g c then
        let (g, c) := g.absorb c
        some (.more g, c)
      else Option.none
    else some (.done g, c)

end Gap

/-! ## Plain scalars -/

/-- The next word of a plain scalar and what follows it. A colon ends the scalar before a gap,
and a flow indicator ends it inside a flow collection, where a colon may not stand directly
before an indicator. -/
def plainWord? (inFlow : Bool) : List Char → Option (List Char × List Char)
  | [] => some ([], [])
  | c :: rest =>
    let next := rest.headD endMark
    if isGap c then some ([], c :: rest)
    else if inFlow && c == ':' && (isFlowIndicator next || next == '?') then none
    else if (c == ':' && isGap next) || (inFlow && isFlowIndicator c) then some ([], c :: rest)
    else (plainWord? inFlow rest).map fun (word, rest) => (c :: word, rest)

/-- A plain scalar in progress: its text, last character first, and the gap after it. -/
structure PlainText where
  text : List Char
  gap : Gap

/-- The text of a plain scalar, whether a line break follows it, and what follows. The lines
after the first must be indented by at least `indent` outside flow collections. -/
def plainScalar? (inFlow : Bool) (indent : Nat) (c : Cursor) :
    Option ((List Char × Bool) × Cursor) :=
  c.repeat? (⟨[], .none⟩ : PlainText) fun s c =>
    let finish (s : PlainText) (c : Cursor) := some (.done (s.text.reverse, s.gap.broken), c)
    if c.atDocumentEdge || c.peek == '#' then finish s c
    else
      match plainWord? inFlow c.rest with
      | none => none
      | some (word, _) =>
        let s : PlainText :=
          if word.isEmpty then s else ⟨word.reverse ++ (s.gap.text ++ s.text), .none⟩
        let c := c.advance word.length
        if !(isBlank c.peek || isBreak c.peek) then finish s c
        else
          let allowed (g : Gap) (c : Cursor) : Bool :=
            !(g.broken && c.column < indent && c.peek == '\t')
          match s.gap.absorbAll? c allowed with
          | none => none
          | some (gap, c) =>
            let s := { s with gap := gap }
            if !inFlow && c.column < indent then finish s c else some (.more s, c)

/-! ## Quoted scalars -/

/-- What a double-quoted scalar may have after a backslash: a character for itself, or the
number of hexadecimal digits that give one. -/
def escape? : Char → Option (Char ⊕ Nat)
  | '0' => some (.inl '\x00')
  | 'a' => some (.inl '\x07')
  | 'b' => some (.inl '\x08')
  | 't' | '\t' => some (.inl '\t')
  | 'n' => some (.inl '\n')
  | 'v' => some (.inl '\x0b')
  | 'f' => some (.inl '\x0c')
  | 'r' => some (.inl '\r')
  | 'e' => some (.inl '\x1b')
  | ' ' => some (.inl ' ')
  | '"' => some (.inl '"')
  | '/' => some (.inl '/')
  | '\\' => some (.inl '\\')
  | 'N' => some (.inl '\u0085')
  | '_' => some (.inl '\u00a0')
  | 'L' => some (.inl '\u2028')
  | 'P' => some (.inl '\u2029')
  | 'x' => some (.inr 2)
  | 'u' => some (.inr 4)
  | 'U' => some (.inr 8)
  | _ => none

/-- The character with a code point, unless that is a surrogate or too large. -/
def charOfCode? (n : Nat) : Option Char :=
  if h : n.isValidChar then some (Char.ofNatAux n h) else none

/-- The number that `count` hexadecimal digits denote. -/
def hexNumber? (count : Nat) (cs : List Char) : Option Nat :=
  if (cs.take count).length < count then none
  else (cs.take count).foldlM (fun n c => (hexDigit? c).map (16 * n + ·)) 0

/-- The next word of a quoted scalar, last character first, whether an escaped line break ends
it, and what follows. -/
def quotedWord? (single : Bool) (c : Cursor) : Option ((List Char × Bool) × Cursor) :=
  let quote := if single then '\x27' else '"'
  c.repeat? ([] : List Char) fun word c =>
    let p := c.peek
    if isGap p then some (.done (word, false), c)
    else if single && p == quote && c.peekAt 1 == quote then
      some (.more (quote :: word), c.advance 2)
    else if p == quote then some (.done (word, false), c)
    else if !single && p == '\\' then
      if isBreak (c.peekAt 1) then some (.done (word, true), c.next.nextLine)
      else
        match escape? (c.peekAt 1) with
        | none => none
        | some (.inl e) => some (.more (e :: word), c.advance 2)
        | some (.inr digits) => do
          let code ← hexNumber? digits (c.rest.drop 2)
          let e ← charOfCode? code
          return (.more (e :: word), c.advance (2 + digits))
    else some (.more (p :: word), c.next)

/-- The text of a quoted scalar, from its opening quote on, and what follows it. -/
def quotedScalar? (single : Bool) (c : Cursor) : Option (List Char × Cursor) :=
  let quote := if single then '\x27' else '"'
  c.next.repeat? ([] : List Char) fun text c =>
    if c.atDocumentEdge || c.peek == endMark then none
    else
      match quotedWord? single c with
      | none => none
      | some ((word, hidden), c) =>
        if c.peek == quote then some (.done (word ++ text).reverse, c.next)
        else
          let gap := if hidden then Gap.afterHiddenBreak else .none
          (gap.absorbAll? c fun _ _ => true).map fun (gap, c) =>
            (.more (gap.text ++ (word ++ text)), c)

/-! ## Block scalars -/

/-- What becomes of the line breaks at the end of a block scalar. -/
inductive Chomping where
  | strip
  | clip
  | keep
deriving DecidableEq

/-- The header of a block scalar: chomping and, if given, the number of columns by which its
lines are indented. The two may stand in either order. -/
def blockHeader? (c : Cursor) : Option ((Chomping × Option Nat) × Cursor) :=
  let chomping (c : Cursor) : Chomping × Cursor :=
    if c.peek == '+' then (.keep, c.next)
    else if c.peek == '-' then (.strip, c.next)
    else (.clip, c)
  let columns? (c : Cursor) : Option (Option Nat × Cursor) :=
    if c.peek == '0' then none
    else if c.peek.isDigit then some (some (c.peek.toNat - '0'.toNat), c.next)
    else some (none, c)
  if c.peek.isDigit then do
    let (columns, c) ← columns? c
    let (chomp, c) := chomping c
    return ((chomp, columns), c)
  else do
    let (chomp, c') := chomping c
    if chomp = .clip then return ((.clip, none), c)
    else
      let (columns, c) ← columns? c'
      return ((chomp, columns), c)

/-- Blank lines before a line of a block scalar: their line breaks, the last first, and the
largest column reached. Indentation ends at column `indent`, or with the spaces if that is not known. -/
structure BlankLines where
  breaks : List Char
  reached : Nat

/-- Moves past the indentation of lines without text. A tab may not stand in indentation. -/
def blankLines? (indent : Option Nat) (c : Cursor) : Option (BlankLines × Cursor) :=
  c.repeat? (⟨[], 0⟩ : BlankLines) fun s c =>
    let spaces := (c.rest.takeWhile (· == ' ')).length
    let c := c.advance (indent.elim spaces fun n => min spaces (n - c.column))
    let s := { s with reached := max s.reached c.column }
    let within := indent.all fun n => c.column < n
    if within && c.peek == '\t' then none
    else if isBreak c.peek then some (.more { s with breaks := c.lineBreak ++ s.breaks }, c.nextLine)
    else some (.done s, c)

/-- A block scalar in progress: its text, the line break after it and the blank lines after that,
all last character first, and whether its last line began with a blank. -/
structure BlockText where
  text : List Char
  lineBreak : List Char
  blankLines : List Char
  blankBefore : Bool

namespace BlockText

/-- Adds a line. In a folded scalar the break between two lines that begin with text becomes a
space, or nothing where blank lines lie between. -/
def addLine (s : BlockText) (literal : Bool) (line lineBreak blankLines : List Char) : BlockText :=
  let blank := line.head?.any isBlank
  let join :=
    if !literal && s.lineBreak == ['\n'] && !s.blankBefore && !blank then
      if s.blankLines.isEmpty then [' '] else []
    else s.lineBreak
  ⟨line.reverse ++ (s.blankLines ++ (join ++ s.text)), lineBreak, blankLines, blank⟩

/-- The text, first character first, with the line breaks at its end as chomping has it. -/
def chomp (s : BlockText) : Chomping → List Char
  | .strip => s.text.reverse
  | .clip => (s.lineBreak ++ s.text).reverse
  | .keep => (s.blankLines ++ (s.lineBreak ++ s.text)).reverse

end BlockText

/-- The text of a block scalar, from its mark on, and what follows it. Its lines are indented
more than the collection around it, whose indentation is `outer`, by a given number of columns
or as the first line of text is. -/
def blockScalar? (literal : Bool) (outer : Int) (c : Cursor) : Option (List Char × Cursor) := do
  let ((chomping, columns), c) ← blockHeader? c.next
  let c := c.skipComment
  if !isBreakOrEnd c.peek then none
  let c := c.nextLine
  let given := columns.map fun n => (max outer 0).toNat + n
  let (blank, c) ← blankLines? given c
  let indent := given.getD (max (max blank.reached (outer + 1).toNat) 1)
  c.repeat? (⟨[], [], blank.breaks, false⟩ : BlockText) fun s c =>
    if c.column == indent && c.peek != endMark then do
      let (line, c) := c.span (!isBreakOrEnd ·)
      let (blank, after) ← blankLines? (some indent) c.nextLine
      return (.more (s.addLine literal line c.lineBreak blank.breaks), after)
    else some (.done (s.chomp chomping), c)

end ShapeMatch.Yaml
