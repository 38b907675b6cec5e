import ShapeMatch.Yaml.Event
import ShapeMatch.Yaml.Scalar
import ShapeMatch.Yaml.Token.Layout

/-!
# Reading YAML

The tree of a document from its events. An alias stands for the node that its anchor marks, read
again at each use; the depth of nesting and the number of uses are limited, so aliases cannot
make a tree without end.

## Main definitions

* `Yaml.Anchors`: the anchors of a document and the nodes they mark.
* `Yaml.Document.content?`: the tree of the node at a position.
* `Yaml.read?`: the tree of a text that holds one document, or none.
-/

namespace ShapeMatch.Yaml

/-- The anchors of a document: a number for each name, and the position that each number marks.
A new anchor takes as its number how many names there are, so a name that is anchored again may
come to share its number with the next name. -/
structure Anchors where
  numbers : List (String × Nat)
  positions : List (Nat × Nat)

namespace Anchors

/-- Anchors a name at a position. -/
def add (a : Anchors) (name : String) (position : Nat) : Anchors :=
  let number := a.numbers.length
  { numbers := (name, number) :: a.numbers.filter (·.1 != name)
    positions := (number, position) :: a.positions }

/-- The position that a number marks. -/
def position? (a : Anchors) (number : Nat) : Option Nat := a.positions.lookup number

end Anchors

/-- A piece of structure in which aliases are numbers. -/
inductive Piece where
  | alias (number : Nat)
  | scalar (tag : Option Tag) (text : String) (plain : Bool)
  | sequenceStart (tag : Option Tag)
  | mappingStart (tag : Option Tag)
  | collectionEnd

/-- A document: its pieces, and the positions that numbers mark. -/
structure Document where
  pieces : Array Piece
  anchors : Anchors

namespace Document

/-- Adds an event at the end. An alias must name an anchor before it. -/
def add? (d : Document) (e : Event) : Option Document :=
  let push (props : Properties) (piece : Piece) : Document :=
    { pieces := d.pieces.push piece
      anchors := props.anchor.elim d.anchors (d.anchors.add · d.pieces.size) }
  match e with
  | .alias name => (d.anchors.numbers.lookup name).map fun n => push .none (.alias n)
  | .scalar props text plain => some (push props (.scalar props.tag text plain))
  | .sequenceStart props => some (push props (.sequenceStart props.tag))
  | .mappingStart props => some (push props (.mappingStart props.tag))
  | .sequenceEnd | .mappingEnd => some (push .none .collectionEnd)

/-- The document of a list of events. -/
def ofEvents? (events : List Event) : Option Document := events.foldlM add? ⟨#[], ⟨[], []⟩⟩

/-- A node that has been read: its tree, the position after it, and how many aliases have been
followed so far. -/
structure Reading where
  tree : Tree
  next : Nat
  followed : Nat

/-- Reads a node by its position and the number of aliases followed so far. -/
abbrev NodeReader := Nat → Nat → Option Reading

/-- How often aliases may be followed in a document. -/
def aliasLimit (d : Document) : Nat := 100 * d.pieces.size

/-- Follows an alias to the node it stands for; any other node is read where it is. -/
def followWith (d : Document) (content : NodeReader) : NodeReader := fun position followed =>
  match d.pieces[position]? with
  | some (.alias number) =>
    if d.aliasLimit < followed + 1 then none
    else do
      let target ← d.anchors.position? number
      let r ← content target (followed + 1)
      return { r with next := position + 1 }
  | _ => content position followed

/-- Whether a collection ends at a position. -/
def endsAt (d : Document) (position : Nat) : Bool :=
  match d.pieces[position]? with
  | some .collectionEnd => true
  | _ => false

/-- Reads the items of a sequence, at most `fuel` of them. -/
def itemsWith (d : Document) (node : NodeReader) :
    (fuel position followed : Nat) → List Tree → Option (List Tree × Nat × Nat)
  | 0, _, _, _ => none
  | fuel + 1, position, followed, items =>
    if d.endsAt position then some (items.reverse, position + 1, followed)
    else do
      let r ← node position followed
      itemsWith d node fuel r.next r.followed (r.tree :: items)

/-- Reads the entries of a mapping, at most `fuel` of them. No key may occur twice. -/
def entriesWith (d : Document) (node : NodeReader) :
    (fuel position followed : Nat) → List (Tree × Tree) → Option (List (Tree × Tree) × Nat × Nat)
  | 0, _, _, _ => none
  | fuel + 1, position, followed, entries =>
    if d.endsAt position then some (entries.reverse, position + 1, followed)
    else do
      let key ← node position followed
      if entries.any (·.1.same key.tree) then none
      let value ← node key.next key.followed
      entriesWith d node fuel value.next value.followed ((key.tree, value.tree) :: entries)

/-- Adds the document's own tag to a collection; other tags do not matter. -/
def withTag (tag : Option Tag) (t : Tree) : Tree :=
  match ownTag? tag with
  | some name => .tagged name t
  | none => t

/-- Reads a node that is not an alias, with at most `depth` collections within each other. -/
def content? (d : Document) : (depth : Nat) → NodeReader
  | 0, position, followed =>
    match d.pieces[position]? with
    | some (.scalar tag text plain) =>
      (scalarTree? tag text plain).map fun t => ⟨t, position + 1, followed⟩
    | _ => none
  | depth + 1, position, followed =>
    let node := d.followWith (d.content? depth)
    let fuel := d.pieces.size
    match d.pieces[position]? with
    | some (.scalar tag text plain) =>
      (scalarTree? tag text plain).map fun t => ⟨t, position + 1, followed⟩
    | some (.sequenceStart tag) =>
      (d.itemsWith node fuel (position + 1) followed []).map fun (items, next, followed) =>
        ⟨withTag tag (.seq items), next, followed⟩
    | some (.mappingStart tag) =>
      (d.entriesWith node fuel (position + 1) followed []).map fun (entries, next, followed) =>
        ⟨withTag tag (.map entries), next, followed⟩
    | _ => none

end Document

/-- Documents nest at most this deep. -/
def documentDepth : Nat := 128

/-- The tree of a document. -/
def treeOfEvents? (events : List Event) : Option Tree := do
  let d ← Document.ofEvents? events
  let r ← d.followWith (d.content? documentDepth) 0 0
  return r.tree

/-- The tree of a text that holds one document. A text without any is null. -/
def read? (text : List Char) : Option Tree := do
  match ← documents? (← tokens? text) with
  | [] => return .null
  | [events] => treeOfEvents? events
  | _ => none

end ShapeMatch.Yaml
