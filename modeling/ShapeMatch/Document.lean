import ShapeMatch.File
import ShapeMatch.Json.Reader
import ShapeMatch.Yaml.Conversion
import ShapeMatch.Yaml.Reader

/-!
# Documents

Documents are written in JSON or in YAML. Either way a document is a value; YAML trees are
converted. Loading goes by the format and takes the readers of texts as they are given.

## Main definitions

* `Format`: the format of a document, or that its file name decides.
* `Readers`: ways to read JSON and YAML; the program has those of `Readers.standard`.
* `LoadError`: why a document cannot be loaded.
* `parseDocument`, `loadDocument`: the value of a text and of a file.
-/

namespace ShapeMatch

/-- The format of a document. -/
inductive Format where
  | auto
  | json
  | yaml
deriving DecidableEq, Repr

/-- The format of the document at a path. Where the name decides, the extensions of YAML make it
YAML and all else is JSON. -/
def Format.resolve (format : Format) (path : String) : Format :=
  match format with
  | auto =>
    match extension? path with
    | some "yaml" | some "yml" => yaml
    | _ => json
  | explicit => explicit

/-- Why a document cannot be loaded. The path says which one. -/
inductive LoadError where
  | io (path : String) (e : FileError)
  | json (path : String)
  | yaml (path : String)
  | conversion (path : String) (e : Yaml.ConversionError)

/-- The message of an error. Of a text that is not JSON, or not YAML, it says no more than that: the
`: reason` that would follow the path is left out, since readers here give none. -/
def LoadError.message : LoadError → String
  | io path e => "cannot read " ++ path ++ ": " ++ e.message
  | json path => "invalid JSON in " ++ path
  | yaml path => "invalid YAML in " ++ path
  | conversion path e => "cannot convert YAML in " ++ path ++ " to JSON: " ++ e.message

/-- Ways to read texts: the value of a text in JSON, and the tree of one in YAML. -/
structure Readers where
  json : List Char → Option Value
  yaml : List Char → Option Yaml.Tree

/-- The readers of the program. -/
def Readers.standard : Readers := ⟨Json.read? Json.documentDepth, Yaml.read?⟩

/-- The value of a text. Errors name its origin. -/
def parseDocument (content : String) (format : Format) (origin : String)
    (readers : Readers := .standard) : Except LoadError Value :=
  match format with
  | .yaml =>
    match readers.yaml content.toList with
    | none => .error (.yaml origin)
    | some tree => tree.toValue.mapError (.conversion origin)
  | .json | .auto =>
    match readers.json content.toList with
    | none => .error (.json origin)
    | some v => .ok v

/-- The value of the document at a path. -/
def loadDocument (read : FileReader) (path : String) (format : Format)
    (readers : Readers := .standard) : Except LoadError Value :=
  match read.text path with
  | .error e => .error (.io path e)
  | .ok content => parseDocument content (format.resolve path) path readers

end ShapeMatch
