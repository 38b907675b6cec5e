import ShapeMatch.Yaml.Token.Property
import ShapeMatch.Yaml.Token.Scalar

/-!
# Cutting YAML text into tokens

Block collections show by indentation only, and a key by the colon after it. While tokens are
cut, the layout keeps the columns of the open block collections and, for each open flow
collection, the place where a key may have begun. When a colon follows, the key token is put in
at that place, and with it the start of the mapping if its column is new.

## Main definitions

* `Yaml.Candidate`: a place where a key may have begun.
* `Yaml.Layout`: the state between two tokens.
* `Yaml.tokens?`: the tokens of a text.
-/

namespace ShapeMatch.Yaml

/-- A place where a key may have begun: how many tokens come before it, and where it is. It is
required where a line of a block mapping can be nothing else. -/
structure Candidate where
  required : Bool
  tokensBefore : Nat
  index : Nat
  line : Nat
  column : Nat

/-- The state between two tokens: the tokens so far, the columns of the open block collections,
innermost first, the candidates of the open flow collections and of the block context, innermost
first, and whether a key may begin here. -/
structure Layout where
  tokens : Array Token
  indents : List Nat
  candidates : List (Option Candidate)
  keyAllowed : Bool

namespace Layout

/-- The state at the start of a text. -/
def start : Layout := ⟨#[], [], [none], true⟩

/-- Whether a flow collection is open. -/
def inFlow (s : Layout) : Bool := 1 < s.candidates.length

/-- The column of the innermost block collection, or -1 outside all of them. -/
def indent (s : Layout) : Int := s.indents.head?.elim (-1) Int.ofNat

def push (s : Layout) (t : Token) : Layout := { s with tokens := s.tokens.push t }

def allowKey (s : Layout) (allowed : Bool) : Layout := { s with keyAllowed := allowed }

/-- Closes the block collections that are indented more than a column. -/
def closeBlocks (s : Layout) (column : Int) : Layout :=
  if s.inFlow then s
  else
    let closed := s.indents.takeWhile fun (n : Nat) => column < n
    { s with
      indents := s.indents.drop closed.length
      tokens := s.tokens ++ Array.replicate closed.length .blockEnd }

/-- Opens a block collection at a column that is indented more than the innermost one. Its first
token goes in at the given place. -/
def openBlock (s : Layout) (column place : Nat) (t : Token) : Layout :=
  if !s.inFlow && s.indent < column then
    { s with
      indents := column :: s.indents
      tokens := s.tokens.insertIdxIfInBounds place t }
  else s

/-- Drops the innermost candidate, which must not be required. -/
def dropCandidate? (s : Layout) : Option Layout :=
  match s.candidates with
  | some k :: rest => if k.required then none else some { s with candidates := none :: rest }
  | _ => some s

/-- Makes the cursor a candidate, if a key may begin there. -/
def saveCandidate? (s : Layout) (c : Cursor) : Option Layout :=
  if s.keyAllowed then do
    let s ← s.dropCandidate?
    let k : Candidate :=
      { required := !s.inFlow && s.indent == c.column
        tokensBefore := s.tokens.size
        index := c.index
        line := c.line
        column := c.column }
    return { s with candidates := some k :: s.candidates.tail }
  else some s

/-- Drops the candidates that the cursor has left behind: a key stays on its line and is at most
1024 octets long. A required one must not be left behind. -/
def dropStale? (s : Layout) (c : Cursor) : Option Layout := do
  let candidates ← s.candidates.mapM fun candidate =>
    match candidate with
    | some k =>
      if k.line < c.line || k.index + 1024 < c.index then
        if k.required then none else some none
      else some (some k)
    | none => some none
  return { s with candidates }

/-! ## Tokens by their first character -/

/-- Moves to the next token, past blanks, comments and line breaks. A tab counts as a blank
where no key may begin. In the block context a key may begin after a line break. -/
def skipToToken? (s : Layout) (c : Cursor) : Option (Layout × Cursor) :=
  c.repeat? s fun s c =>
    let c := if c.column == 0 && c.peek == '\ufeff' then c.next else c
    let c := c.skip fun b => b == ' ' || (b == '\t' && (s.inFlow || !s.keyAllowed))
    let c := if c.peek == '#' then c.skip (!isBreakOrEnd ·) else c
    if isBreak c.peek then some (.more (if s.inFlow then s else s.allowKey true), c.nextLine)
    else some (.done s, c)

/-- The end of the text closes all block collections. -/
def finish? (s : Layout) : Option Layout := do
  let s ← (s.closeBlocks (-1)).dropCandidate?
  return s.push .streamEnd

def addDirective? (s : Layout) (c : Cursor) : Option (Layout × Cursor) := do
  let s ← (s.closeBlocks (-1)).dropCandidate?
  let (t, c) ← directive? c
  return ((s.allowKey false).push t, c)

def addDocumentMark? (s : Layout) (t : Token) (c : Cursor) : Option (Layout × Cursor) := do
  let s ← (s.closeBlocks (-1)).dropCandidate?
  return ((s.allowKey false).push t, c.advance 3)

def openFlow? (s : Layout) (t : Token) (c : Cursor) : Option (Layout × Cursor) := do
  let s ← s.saveCandidate? c
  return (({ s with candidates := none :: s.candidates, keyAllowed := true }).push t, c.next)

def closeFlow? (s : Layout) (t : Token) (c : Cursor) : Option (Layout × Cursor) := do
  let s ← s.dropCandidate?
  let candidates := if s.inFlow then s.candidates.tail else s.candidates
  return (({ s with candidates, keyAllowed := false }).push t, c.next)

def addFlowEntry? (s : Layout) (c : Cursor) : Option (Layout × Cursor) := do
  let s ← s.dropCandidate?
  return ((s.allowKey true).push .flowEntry, c.next)

/-- A dash before a gap. In the block context it may open a sequence. -/
def addBlockEntry? (s : Layout) (c : Cursor) : Option (Layout × Cursor) := do
  if !s.inFlow && !s.keyAllowed then none
  let s ← (s.openBlock c.column s.tokens.size .blockSequenceStart).dropCandidate?
  return ((s.allowKey true).push .blockEntry, c.next)

/-- A question mark that marks a key. In the block context it may open a mapping. -/
def addKey? (s : Layout) (c : Cursor) : Option (Layout × Cursor) := do
  if !s.inFlow && !s.keyAllowed then none
  let s ← (s.openBlock c.column s.tokens.size .blockMappingStart).dropCandidate?
  return ((s.allowKey !s.inFlow).push .key, c.next)

/-- A colon that marks a value. If a key may have begun before it, that was a key. -/
def addValue? (s : Layout) (c : Cursor) : Option (Layout × Cursor) :=
  match s.candidates with
  | some k :: rest =>
    let s := { s with
      tokens := s.tokens.insertIdxIfInBounds k.tokensBefore .key
      candidates := none :: rest }
    let s := s.openBlock k.column k.tokensBefore .blockMappingStart
    some ((s.allowKey false).push .value, c.next)
  | _ =>
    if !s.inFlow && !s.keyAllowed then none
    else
      let s := s.openBlock c.column s.tokens.size .blockMappingStart
      some ((s.allowKey !s.inFlow).push .value, c.next)

def addAnchor? (s : Layout) (isAlias : Bool) (c : Cursor) : Option (Layout × Cursor) := do
  let s ← s.saveCandidate? c
  let (name, c) ← anchorName? c
  return ((s.allowKey false).push (if isAlias then .alias name else .anchor name), c)

def addTag? (s : Layout) (c : Cursor) : Option (Layout × Cursor) := do
  let s ← s.saveCandidate? c
  let (t, c) ← tag? s.inFlow c
  return ((s.allowKey false).push t, c)

def addBlockScalar? (s : Layout) (literal : Bool) (c : Cursor) : Option (Layout × Cursor) := do
  let s ← s.dropCandidate?
  let (text, c) ← blockScalar? literal s.indent c
  return ((s.allowKey true).push (.scalar (String.ofList text) false), c)

def addQuotedScalar? (s : Layout) (single : Bool) (c : Cursor) : Option (Layout × Cursor) := do
  let s ← s.saveCandidate? c
  let (text, c) ← quotedScalar? single c
  return ((s.allowKey false).push (.scalar (String.ofList text) false), c)

/-- A plain scalar. A key may begin after it if it ends with a line break. -/
def addPlainScalar? (s : Layout) (c : Cursor) : Option (Layout × Cursor) := do
  let s ← s.saveCandidate? c
  let ((text, broken), c) ← plainScalar? s.inFlow (s.indent + 1).toNat c
  return ((s.allowKey broken).push (.scalar (String.ofList text) true), c)

/-- Whether a plain scalar may begin at the cursor. -/
def startsPlain (inFlow : Bool) (c : Cursor) : Bool :=
  let p := c.peek
  !(isGap p || isFlowIndicator p || "-?:#&*!|>\x27\"%@`".toList.contains p) ||
    (p == '-' && !isBlank (c.peekAt 1)) ||
    (!inFlow && (p == '?' || p == ':') && !isGap (c.peekAt 1))

/-- Cuts the next token, whose first character is at the cursor. -/
def addToken? (s : Layout) (c : Cursor) : Option (Layout × Cursor) :=
  let p := c.peek
  let marks := isGap (c.peekAt 1)
  if c.column == 0 && p == '%' then s.addDirective? c
  else if c.atDocumentMark '-' then s.addDocumentMark? .documentStart c
  else if c.atDocumentMark '.' then s.addDocumentMark? .documentEnd c
  else if p == '[' then s.openFlow? .flowSequenceStart c
  else if p == '\x7b' then s.openFlow? .flowMappingStart c
  else if p == ']' then s.closeFlow? .flowSequenceEnd c
  else if p == '\x7d' then s.closeFlow? .flowMappingEnd c
  else if p == ',' then s.addFlowEntry? c
  else if p == '-' && marks then s.addBlockEntry? c
  else if p == '?' && (s.inFlow || marks) then s.addKey? c
  else if p == ':' && (s.inFlow || marks) then s.addValue? c
  else if p == '*' then s.addAnchor? true c
  else if p == '&' then s.addAnchor? false c
  else if p == '!' then s.addTag? c
  else if p == '|' && !s.inFlow then s.addBlockScalar? true c
  else if p == '>' && !s.inFlow then s.addBlockScalar? false c
  else if p == '\x27' then s.addQuotedScalar? true c
  else if p == '"' then s.addQuotedScalar? false c
  else if startsPlain s.inFlow c then s.addPlainScalar? c
  else none

/-- Moves to the next token and cuts it. At the end of the text the layout is finished. -/
def step? (s : Layout) (c : Cursor) : Option (Progress Layout Layout × Cursor) := do
  let (s, c) ← s.skipToToken? c
  let s ← s.dropStale? c
  let s := s.closeBlocks c.column
  if c.peek == endMark then return (.done (← s.finish?), c)
  else
    let (s, c) ← s.addToken? c
    return (.more s, c)

end Layout

/-- The tokens of a text. -/
def tokens? (text : List Char) : Option (List Token) :=
  if text.all isAllowed then
    ((Cursor.start text).repeat? Layout.start Layout.step?).map (·.1.tokens.toList)
  else none

end ShapeMatch.Yaml
