import ShapeMatch.Number.Literal
import ShapeMatch.Yaml.Tag
import ShapeMatch.Yaml.Tree

/-!
# The meaning of YAML scalars

A plain scalar without a tag is null, a truth value, an integer, a double or a string, in this
order. A tag of the core schema asks for one of these.

## Main definitions

* `Yaml.integer?`, `Yaml.float?`: the numbers that texts denote.
* `Yaml.plainTree?`: the meaning of a plain scalar.
* `Yaml.scalarTree?`: the meaning of a scalar with its tag and style.
-/

namespace ShapeMatch.Yaml

def isNull (s : String) : Bool := s == "~" || s == "null" || s == "Null" || s == "NULL"

def bool? (s : String) : Option Bool :=
  if s == "true" || s == "True" || s == "TRUE" then some true
  else if s == "false" || s == "False" || s == "FALSE" then some false
  else none

/-- A text without its sign, and whether the sign is a minus. -/
def splitSign : List Char → Bool × List Char
  | '-' :: rest => (true, rest)
  | '+' :: rest => (false, rest)
  | cs => (false, cs)

/-- Several digits of which the first is zero: a string rather than a number. -/
def isZeroPadded (s : String) : Bool :=
  match (splitSign s.toList).2 with
  | '0' :: c :: rest => (c :: rest).all Char.isDigit
  | _ => false

/-- The integer that a text denotes, of any size: decimal without padding, or in base 16, 8 or
2 after the mark of the base. -/
def integer? (s : String) : Option Int :=
  let (negative, body) := splitSign s.toList
  let magnitude :=
    match body with
    | '0' :: 'x' :: digits => natOfRadix? 16 digits
    | '0' :: 'o' :: digits => natOfRadix? 8 digits
    | '0' :: 'b' :: digits => natOfRadix? 2 digits
    | digits => if isZeroPadded s then none else natOfRadix? 10 digits
  magnitude.map fun n => if negative then -Int.ofNat n else n

/-- The double that a text denotes. A finite text that overflows denotes none. -/
def float? (s : String) : Option Double :=
  if [".inf", ".Inf", ".INF", "+.inf", "+.Inf", "+.INF"].contains s then some (.infinite false)
  else if ["-.inf", "-.Inf", "-.INF"].contains s then some (.infinite true)
  else if [".nan", ".NaN", ".NAN"].contains s then some .nan
  else
    let (negative, body) := splitSign s.toList
    ((decimal? body).map (·.toDouble negative)).filter fun x =>
      match x with
      | .finite _ => true
      | _ => false

/-- What becomes of the text of an integer. -/
inductive IntegerReading where
  | fits (i : Int)
  /-- Too large for a document, yet an integer. -/
  | refused
  /-- Beyond 128 bits, or no integer at all. -/
  | notInteger

/-- Reads an integer. Documents hold those from `-2 ^ 63` to `2 ^ 64 - 1`; others that 128 bits
can hold are refused. -/
def readInteger (s : String) : IntegerReading :=
  match integer? s with
  | none => .notInteger
  | some i =>
    if integerRange.1 ≤ i ∧ i ≤ integerRange.2 then .fits i
    else if -Nat.pow 2 127 ≤ i ∧ i < Nat.pow 2 128 then .refused
    else .notInteger

/-- The meaning of a plain scalar without a tag, unless it is an integer out of range. -/
def plainTree? (s : String) : Option Tree :=
  if s.isEmpty || isNull s then some .null
  else
    match bool? s with
    | some b => some (.bool b)
    | none =>
      match readInteger s with
      | .fits i => some (.num (.int i))
      | .refused => none
      | .notInteger =>
        match if isZeroPadded s then none else float? s with
        | some x => some (.num (.float x))
        | none => some (.str s)

/-- The meaning of a scalar under a tag that is not the document's own. Tags of the core schema
ask for a kind, and any other makes a string. -/
def coreTree? (tag : Tag) (s : String) : Option Tree :=
  match tag.core? with
  | some .bool => (bool? s).map .bool
  | some .int =>
    match readInteger s with
    | .fits i => some (.num (.int i))
    | _ => none
  | some .float => (float? s).map fun x => .num (.float x)
  | some .null => if isNull s then some .null else none
  | none => some (.str s)

/-- The name of a tag that is the document's own and can be read. -/
def ownTag? (tag : Option Tag) : Option String :=
  ((tag.filter Tag.isOwn).bind Tag.text?).map tagName

/-- The meaning of a scalar. A tag of the document's own leaves its meaning alone, and stays
with it if it can be read. -/
def scalarTree? (tag : Option Tag) (s : String) (plain : Bool) : Option Tree :=
  let untagged := if plain then plainTree? s else some (.str s)
  match tag with
  | none => untagged
  | some t =>
    if t.isOwn then
      match ownTag? tag with
      | some name => untagged.map (.tagged name)
      | none => untagged
    else coreTree? t s

end ShapeMatch.Yaml
