import ShapeMatch.Number.Text
import ShapeMatch.Text.Outline

/-!
# YAML trees

A YAML document as a tree. Unlike a JSON value it may hold infinities and NaN, tags, and
mappings whose keys are of any kind and keep their order.

## Main definitions

* `Yaml.Numeral`: an integer or any double.
* `Yaml.Numeral.signed?`, `Yaml.Numeral.unsigned?`, `Yaml.Numeral.toDouble`: its views.
* `Yaml.Tree`: a document.
* `Yaml.Tree.same`: equality of trees, by which keys are told apart.
* `Yaml.Tree.describe`: the outline of a tree.
-/

namespace ShapeMatch.Yaml

/-- A number of a YAML document. -/
inductive Numeral where
  | int (i : Int)
  | float (x : Double)
deriving DecidableEq, Repr

namespace Numeral

/-- Equality of numbers of one kind. NaN equals itself and the zeros are equal. -/
def same : Numeral → Numeral → Bool
  | int i, int j => i == j
  | float .nan, float .nan => true
  | float x, float y => x.ieeeEq y
  | _, _ => false

/-- The number as a signed integer of 64 bits, which an integer from `2 ^ 63` on is not. -/
def signed? : Numeral → Option Int
  | int i => if i < Nat.pow 2 63 then some i else none
  | float _ => none

/-- The number as an unsigned integer. -/
def unsigned? : Numeral → Option Nat
  | int (.ofNat n) => some n
  | _ => none

/-- The number as a double; an integer is rounded. -/
def toDouble : Numeral → Double
  | int i => .ofInt i
  | float x => x

/-- The text of a number; infinities and NaN begin with a point. -/
def text : Numeral → String
  | int i => toString i
  | float (.finite x) => x.text .bare
  | float (.infinite negative) => if negative then "-.inf" else ".inf"
  | float .nan => ".nan"

end Numeral

/-- A YAML document. -/
inductive Tree where
  | null
  | bool (b : Bool)
  | num (n : Numeral)
  | str (s : String)
  | seq (items : List Tree)
  | map (entries : List (Tree × Tree))
  | tagged (tag : String) (content : Tree)
deriving Repr

/-- The name of a tag, without the mark in front. -/
def tagName (tag : String) : String :=
  match tag.toList with
  | '!' :: c :: rest => String.ofList (c :: rest)
  | _ => tag

namespace Tree

mutual

/-- Equality of trees. The order of entries does not matter, nor the mark of a tag. -/
def same : Tree → Tree → Bool
  | null, null => true
  | bool a, bool b => a == b
  | num m, num n => m.same n
  | str s, str t => s == t
  | seq xs, seq ys => sameItems xs ys
  | map xs, map ys => xs.length == ys.length && sameEntries xs ys
  | tagged s x, tagged t y => tagName s == tagName t && x.same y
  | _, _ => false

def sameItems : List Tree → List Tree → Bool
  | [], [] => true
  | x :: xs, y :: ys => x.same y && sameItems xs ys
  | _, _ => false

/-- Each entry of the first list has an equal one in the second. -/
def sameEntries : List (Tree × Tree) → List (Tree × Tree) → Bool
  | [], _ => true
  | (key, x) :: rest, ys => ys.any (fun y => key.same y.1 && x.same y.2) && sameEntries rest ys

end

mutual

/-- The outline of a tree. -/
def describe : Tree → String
  | null => "Null"
  | bool b => Outline.call "Bool" [toString b]
  | num n => Outline.call "Number" [n.text]
  | str s => Outline.call "String" [quoted s]
  | seq items => "Sequence " ++ Outline.list (describeItems items)
  | map entries => "Mapping " ++ Outline.map (describeEntries entries)
  | tagged tag content =>
    Outline.record "TaggedValue" [("tag", "!" ++ tagName tag), ("value", content.describe)]

def describeItems : List Tree → List String
  | [] => []
  | x :: rest => x.describe :: describeItems rest

/-- The outlines of entries. Keys that are plain scalars are shown bare. -/
def describeEntries : List (Tree × Tree) → List (String × String)
  | [] => []
  | (key, x) :: rest =>
    let label := match key with
      | bool b => toString b
      | num n => n.text
      | str s => quoted s
      | key => key.describe
    (label, x.describe) :: describeEntries rest

end

/-- Adds an entry to a mapping. The value of an equal key is replaced in place. -/
def insertEntry (key x : Tree) : List (Tree × Tree) → List (Tree × Tree)
  | [] => [(key, x)]
  | (k, y) :: rest => if k.same key then (k, x) :: rest else (k, y) :: insertEntry key x rest

end Tree

end ShapeMatch.Yaml
