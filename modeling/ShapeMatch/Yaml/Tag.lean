/-!
# YAML tags

A tag is a string of octets: escapes may put octets into it that encode no characters. It ends
before the first zero octet. A tag that begins with an exclamation mark is the document's own;
others are known everywhere, and those of the core schema ask for a kind of scalar.

## Main definitions

* `Yaml.Tag`: a tag.
* `Yaml.Tag.isOwn`, `Yaml.Tag.text?`: whether it is the document's own, and its characters.
* `Yaml.CoreTag`: the tags that ask for a kind of scalar.
-/

namespace ShapeMatch.Yaml

/-- A tag, or a part of one, as octets without a zero. -/
structure Tag where
  octets : List UInt8
deriving DecidableEq, Repr

namespace Tag

/-- The tag that octets spell, up to the first zero. -/
def ofOctets (octets : List UInt8) : Tag := ⟨octets.takeWhile (· != 0)⟩

/-- The tag that a text spells. -/
def ofString (s : String) : Tag := ofOctets s.toUTF8.toList

/-- The tag that two parts spell together. -/
def append (t u : Tag) : Tag := ⟨t.octets ++ u.octets⟩

def isEmpty (t : Tag) : Bool := t.octets.isEmpty

/-- Whether a tag is the document's own. -/
def isOwn (t : Tag) : Bool := t.octets.head? == some 0x21

/-- The characters of a tag, if its octets encode characters. -/
def text? (t : Tag) : Option String := String.fromUTF8? ⟨t.octets.toArray⟩

/-- A single exclamation mark. -/
def mark : Tag := ⟨[0x21]⟩

/-- What begins the tags of the core schema. -/
def coreStart : Tag := ofString "tag:yaml.org,2002:"

end Tag

/-- The tags that ask for a kind of scalar. -/
inductive CoreTag where
  | bool
  | int
  | float
  | null
deriving DecidableEq, Repr

/-- The core tag that a tag is. -/
def Tag.core? (t : Tag) : Option CoreTag :=
  match t.text? with
  | some "tag:yaml.org,2002:bool" => some .bool
  | some "tag:yaml.org,2002:int" => some .int
  | some "tag:yaml.org,2002:float" => some .float
  | some "tag:yaml.org,2002:null" => some .null
  | _ => none

end ShapeMatch.Yaml
