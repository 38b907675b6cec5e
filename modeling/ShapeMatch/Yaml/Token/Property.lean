import ShapeMatch.Number.Literal
import ShapeMatch.Yaml.Cursor
import ShapeMatch.Yaml.Token

/-!
# Anchors, tags and directives in YAML text

The tokens that say something about a node or a document.

## Main definitions

* `Yaml.anchorName?`: the name of an anchor or an alias.
* `Yaml.tag?`: a tag, as a handle and a suffix.
* `Yaml.directive?`: a directive, up to the end of its line.
-/

namespace ShapeMatch.Yaml

/-- The name after the mark of an anchor or an alias. It must end at a gap or at one of a few
indicators. -/
def anchorName? (c : Cursor) : Option (String × Cursor) :=
  let (name, c) := c.next.span isNameChar
  if !name.isEmpty && (isGap c.peek || "?:,]\x7d%@`".toList.contains c.peek) then
    some (String.ofList name, c)
  else none

/-! ## Tags -/

/-- An octet written in hexadecimal after a percent sign. -/
def octet? (cs : List Char) : Option (UInt8 × List Char) :=
  match cs with
  | '%' :: a :: b :: rest => do
    return ((16 * (← hexDigit? a) + (← hexDigit? b)).toUInt8, rest)
  | _ => none

/-- The next `count` octets, which must be continuations. -/
def continuations? : Nat → List Char → Option (List UInt8 × List Char)
  | 0, cs => some ([], cs)
  | count + 1, cs => do
    let (octet, rest) ← octet? cs
    if octet / 64 != 2 then none
    let (octets, rest) ← continuations? count rest
    return (octet :: octets, rest)

/-- How many continuations an octet announces. -/
def announced? (octet : UInt8) : Option Nat :=
  if octet < 0x80 then some 0
  else if octet / 32 = 6 then some 1
  else if octet / 16 = 14 then some 2
  else if octet / 8 = 30 then some 3
  else none

/-- Escaped octets, one and the continuations it announces. Whether they encode a character is
not asked here. -/
def escapedOctets? (cs : List Char) : Option (List UInt8) := do
  let (first, rest) ← octet? cs
  let (octets, _) ← continuations? (← announced? first) rest
  return first :: octets

/-- How many characters an escaped octet takes. -/
def escapeLength : Nat := 3

/-- The characters of tag URIs. Commas and brackets are among them only where they cannot end a
flow collection. -/
def isUriChar (brackets : Bool) (c : Char) : Bool :=
  isNameChar c || ";/?:@&=+$.%!~*\x27()".toList.contains c ||
    (brackets && (c == ',' || c == '[' || c == ']'))

/-- The octets of the longest run of URI characters, which are ASCII, and of escapes. Those read
so far are kept last first. -/
def uri? (brackets : Bool) (c : Cursor) : Option (List UInt8 × Cursor) :=
  c.repeat? ([] : List UInt8) fun octets c =>
    if !isUriChar brackets c.peek then some (.done octets.reverse, c)
    else if c.peek == '%' then do
      let escaped ← escapedOctets? c.rest
      return (.more (escaped.reverse ++ octets), c.advance (escapeLength * escaped.length))
    else some (.more (c.peek.toNat.toUInt8 :: octets), c.next)

/-- A run of URI characters that must not be empty. -/
def someUri? (brackets : Bool) (c : Cursor) : Option (Tag × Cursor) :=
  match uri? brackets c with
  | some (octets, c) => if octets.isEmpty then none else some (.ofOctets octets, c)
  | none => none

/-- The start of a tag: an exclamation mark, a name, and a second mark if there is one. -/
def tagHandle? (c : Cursor) : Option (List Char × Cursor) :=
  if c.peek == '!' then
    let (name, c) := c.next.span isNameChar
    if c.peek == '!' then some ('!' :: name ++ ['!'], c.next) else some ('!' :: name, c)
  else none

/-- A tag that is not verbatim. Without a second mark the name belongs to the suffix of the
handle `!`; a mark all by itself is the suffix of the empty handle. -/
def shorthandTag? (c : Cursor) : Option (Token × Cursor) := do
  let (handle, c) ← tagHandle? c
  if 2 ≤ handle.length ∧ handle.getLast? = some '!' then
    let (suffix, c) ← someUri? false c
    return (.tag (String.ofList handle) suffix, c)
  else
    let (octets, c) ← uri? false c
    let suffix := Tag.ofOctets ((String.ofList (handle.drop 1)).toUTF8.toList ++ octets)
    return (if suffix.isEmpty then .tag "" .mark else .tag "!" suffix, c)

/-- A tag between angle brackets. -/
def verbatimTag? (c : Cursor) : Option (Token × Cursor) := do
  let (suffix, c) ← someUri? true (c.advance 2)
  if c.peek == '>' then return (.tag "" suffix, c.next) else none

/-- A tag. It must end at a gap, or at a comma in a flow collection. -/
def tag? (inFlow : Bool) (c : Cursor) : Option (Token × Cursor) :=
  (if c.peekAt 1 == '<' then verbatimTag? c else shorthandTag? c).filter fun (_, c) =>
    isGap c.peek || (inFlow && c.peek == ',')

/-! ## Directives -/

/-- A part of a version: at most nine digits. -/
def versionNumber? (c : Cursor) : Option (Nat × Cursor) :=
  let (digits, c) := c.span Char.isDigit
  if digits.isEmpty || 9 < digits.length then none else some (natOfDigits digits, c)

/-- The two numbers of a version directive. -/
def versionDirective? (c : Cursor) : Option (Token × Cursor) := do
  let (major, c) ← versionNumber? (c.skip isBlank)
  if c.peek != '.' then none
  let (minor, c) ← versionNumber? c.next
  return (.versionDirective major minor, c)

/-- The handle of a tag directive and what it stands for. -/
def tagDirective? (c : Cursor) : Option (Token × Cursor) := do
  let (handle, c) ← tagHandle? (c.skip isBlank)
  if !(handle = ['!'] || (2 ≤ handle.length && handle.getLast? == some '!')) then none
  if !isBlank c.peek then none
  let (expansion, c) ← someUri? true (c.skip isBlank)
  if !isGap c.peek then none
  return (.tagDirective (String.ofList handle) expansion, c)

/-- A directive. Nothing but a comment may follow it on its line. -/
def directive? (c : Cursor) : Option (Token × Cursor) := do
  let (name, c) := c.next.span isNameChar
  if !isGap c.peek then none
  let (token, c) ←
    if name = "YAML".toList then versionDirective? c
    else if name = "TAG".toList then tagDirective? c
    else none
  let c := c.skipComment
  if isBreakOrEnd c.peek then return (token, c.nextLine) else none

end ShapeMatch.Yaml
