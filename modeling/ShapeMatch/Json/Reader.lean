import ShapeMatch.Json.Token
import ShapeMatch.Value

/-!
# Reading JSON

Tokens are read one by one with the open arrays and objects on a stack, so the depth of nesting
is the height of the stack.

## Main definitions

* `Json.Reading`: the open containers and what may come next.
* `Json.read?`: the value of a text nested at most a given depth.
* `Json.documentDepth`: the depth allowed in documents.
-/

namespace ShapeMatch.Json

/-- A container that is still open: items last first, or the fields so far and the key whose
value is being read. -/
inductive Frame where
  | array (items : List Value)
  | object (fields : Object) (key : String)

/-- What may come next. -/
inductive Expect where
  | value
  | valueOrClose
  | key
  | keyOrClose
  | colon
  | separator
  | nothing (result : Value)

/-- A reading in progress: the open containers, innermost first, and what may come next. -/
structure Reading where
  frames : List Frame
  expect : Expect

namespace Reading

/-- Hands a finished value to the innermost open container. -/
def complete (v : Value) : List Frame → Reading
  | [] => ⟨[], .nothing v⟩
  | .array items :: frames => ⟨.array (v :: items) :: frames, .separator⟩
  | .object fields key :: frames => ⟨.object (fields.insert key v) key :: frames, .separator⟩

/-- Reads the first token of a value. -/
def value? (depth : Nat) (frames : List Frame) : Token → Option Reading
  | .null => some (complete .null frames)
  | .bool b => some (complete (.bool b) frames)
  | .num n => some (complete (.num n) frames)
  | .str s => some (complete (.str s) frames)
  | .openArray =>
    if frames.length < depth then some ⟨.array [] :: frames, .valueOrClose⟩ else none
  | .openObject =>
    if frames.length < depth then some ⟨.object [] "" :: frames, .keyOrClose⟩ else none
  | _ => none

/-- Closes the innermost container. -/
def close? : List Frame → Token → Option Reading
  | .array items :: frames, .closeArray => some (complete (.arr items.reverse) frames)
  | .object fields _ :: frames, .closeObject => some (complete (.obj fields) frames)
  | _, _ => none

/-- Reads one token. -/
def step? (depth : Nat) (r : Reading) (t : Token) : Option Reading :=
  match r.expect, t, r.frames with
  | .value, t, frames => value? depth frames t
  | .valueOrClose, .closeArray, frames => close? frames .closeArray
  | .valueOrClose, t, frames => value? depth frames t
  | .key, .str key, .object fields _ :: frames => some ⟨.object fields key :: frames, .colon⟩
  | .keyOrClose, .str key, .object fields _ :: frames => some ⟨.object fields key :: frames, .colon⟩
  | .keyOrClose, .closeObject, frames => close? frames .closeObject
  | .colon, .colon, frames => some ⟨frames, .value⟩
  | .separator, .comma, .array items :: frames => some ⟨.array items :: frames, .value⟩
  | .separator, .comma, .object fields key :: frames => some ⟨.object fields key :: frames, .key⟩
  | .separator, t, frames => close? frames t
  | _, _, _ => none

/-- The value read, once nothing more is expected. -/
def result? (r : Reading) : Option Value :=
  match r.expect with
  | .nothing v => some v
  | _ => none

end Reading

/-- The value of a JSON text whose containers are nested at most `depth` deep. -/
def read? (depth : Nat) (text : List Char) : Option Value :=
  (tokens? text).bind fun ts =>
    (ts.foldlM (Reading.step? depth) ⟨[], .value⟩).bind Reading.result?

/-- Documents nest at most this deep. -/
def documentDepth : Nat := 127

end ShapeMatch.Json
