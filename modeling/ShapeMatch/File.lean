/-!
# Files

Reading a file by its path, and sets of files that are held in memory.

## Main definitions

* `FileError`, `FileReader`: why a file cannot be read, and a way to read files.
* `pathComponents`, `pathParts`, `fileName?`, `extension?`: the parts of a path.
* `FileSet`: files and directories below one directory.
-/

namespace ShapeMatch

/-- Why a file cannot be read. -/
inductive FileError where
  | notFound
  | isDirectory
  | notDirectory
  | notUtf8
  | other (text : String)
deriving DecidableEq, Repr

def FileError.message : FileError → String
  | notFound => "No such file or directory (os error 2)"
  | isDirectory => "Is a directory (os error 21)"
  | notDirectory => "Not a directory (os error 20)"
  | notUtf8 => "stream did not contain valid UTF-8"
  | other text => text

/-- A way to read files: the content of the file at a path. -/
abbrev FileReader := String → Except FileError ByteArray

/-- The text of the file at a path. -/
def FileReader.text (read : FileReader) (path : String) : Except FileError String :=
  match read path with
  | .ok bytes =>
    match String.fromUTF8? bytes with
    | some s => .ok s
    | none => .error .notUtf8
  | .error e => .error e

/-! ## Paths -/

/-- What stands between the slashes of a path. -/
def pathComponents (path : String) : List String :=
  (path.toList.splitOn '/').map String.ofList

/-- The components of a path, without those that stay where they are. -/
def pathParts (path : String) : List String :=
  (pathComponents path).filter fun part => part != "" && part != "."

/-- The last part of a path, unless that leads upwards. -/
def fileName? (path : String) : Option String :=
  (pathParts path).getLast?.filter (· != "..")

/-- What follows the last point of a file name, provided that something precedes it. -/
def extension? (path : String) : Option String := do
  let name ← fileName? path
  let reversed := name.toList.reverse
  let after := reversed.takeWhile (· != '.')
  if reversed.length ≤ after.length + 1 then none
  return String.ofList after.reverse

/-! ## Files in memory -/

/-- What stands at a path. -/
inductive FileNode where
  | file (content : ByteArray)
  | directory

/-- Files and directories below one directory, by the parts of their paths. The directories on
the way to an entry need no entry of their own. -/
structure FileSet where
  entries : List (List String × FileNode)

namespace FileSet

/-- The file set with the given paths. -/
def ofList (files : List (String × FileNode)) : FileSet :=
  ⟨files.map fun f => (pathParts f.1, f.2)⟩

/-- What stands at the parts of a path. -/
def node? (files : FileSet) (parts : List String) : Option FileNode :=
  match files.entries.find? (·.1 == parts) with
  | some entry => some entry.2
  | none => if files.entries.any fun e => parts.isPrefixOf e.1 then some .directory else none

/-- What stands at the parts of a path that begins outside the set, where nothing is to be found
but the directories on the way up. -/
def outside? (parts : List String) : Except FileError FileNode :=
  if parts.all (· == "..") then .ok .directory else .error .notFound

/-- Walks along the parts of a path from a directory, given by its own parts. -/
def walk? (files : FileSet) (here : List String) : List String → Except FileError FileNode
  | [] => .ok .directory
  | ".." :: rest => if here.isEmpty then outside? rest else walk? files here.dropLast rest
  | part :: rest =>
    let there := here ++ [part]
    match files.node? there with
    | none => .error .notFound
    | some .directory => walk? files there rest
    | some (.file content) => if rest.isEmpty then .ok (.file content) else .error .notDirectory

/-- The content of the file at a path. A path that begins with a slash leads outside the set,
and one that ends with a slash or a point must lead to a directory. -/
def read (files : FileSet) : FileReader := fun path =>
  if path.isEmpty then .error .notFound
  else
    let parts := pathParts path
    match if path.startsWith "/" then outside? parts else files.walk? [] parts with
    | .error e => .error e
    | .ok .directory => .error .isDirectory
    | .ok (.file content) =>
      let last := (pathComponents path).getLastD ""
      if last == "" || last == "." then .error .notDirectory else .ok content

end FileSet

end ShapeMatch
