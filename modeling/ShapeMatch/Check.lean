import ShapeMatch.Compile
import ShapeMatch.Document
import ShapeMatch.Report

/-!
# Checking documents against a schema

The schema is itself a document. Each document is checked for itself; one that cannot be loaded
is an error of its own, while a schema that cannot be used ends the check.

## Main definitions

* `CheckError`: why a schema cannot be used.
* `loadMatcher`: the matcher of the schema at a path.
* `checkDocument`, `check`: the outcome for one document, and the report on several.
-/

namespace ShapeMatch

/-- Why a schema cannot be used. -/
inductive CheckError where
  | load (e : LoadError)
  | compile (path : String) (e : SchemaError)

/-- The message of an error. What was done stands before the reason, in one line. -/
def CheckError.message : CheckError → String
  | load e => e.message
  | compile path e => "compiling schema " ++ path ++ ": " ++ e.message

/-- The interpretation for schemas that come from documents, which hold no capabilities. -/
def noCapabilities : Interpretation := fun _ _ => false

/-- The matcher of a schema that is a document. -/
def compileDocument (v : Value) : Except SchemaError Matcher :=
  (Schema.ofValue v).compile noCapabilities

/-- The matcher of the schema at a path. -/
def loadMatcher (read : FileReader) (path : String) (format : Format)
    (readers : Readers := .standard) : Except CheckError Matcher :=
  match loadDocument read path format readers with
  | .error e => .error (.load e)
  | .ok v => (compileDocument v).mapError (.compile path)

/-- The outcome for the document at a path. -/
def checkDocument (read : FileReader) (matcher : Matcher) (format : Format) (path : String)
    (readers : Readers := .standard) : Outcome :=
  match loadDocument read path format readers with
  | .error e => .error e.message
  | .ok v => if matcher.matchesAlone v then .matched else .mismatched

/-- The report on documents checked against the schema at a path. -/
def check (read : FileReader) (schema : String) (documents : List String) (format : Format)
    (readers : Readers := .standard) : Except CheckError Report := do
  let matcher ← loadMatcher read schema format readers
  return ⟨schema, documents.map fun path =>
    ⟨path, checkDocument read matcher format path readers⟩⟩

end ShapeMatch
