import ShapeMatch.Json.Writer

/-!
# Reports

What a check found: for each document whether it matches, or why that cannot be told.

## Main definitions

* `Outcome`, `DocumentReport`, `Report`: what was found.
* `Report.text`: a line for each document and one that sums up.
* `Report.layout`: the report as JSON.
-/

namespace ShapeMatch

/-- What a check found out about a document. -/
inductive Outcome where
  | matched
  | mismatched
  | error (message : String)
deriving DecidableEq, Repr

/-- The outcome for the document at a path. -/
structure DocumentReport where
  path : String
  outcome : Outcome
deriving DecidableEq, Repr

/-- The outcomes for documents that were checked against one schema. -/
structure Report where
  schema : String
  documents : List DocumentReport
deriving DecidableEq, Repr

/-- The line on a document, without its end. -/
def DocumentReport.line (d : DocumentReport) : String :=
  match d.outcome with
  | .matched => "ok       " ++ d.path
  | .mismatched => "MISMATCH " ++ d.path
  | .error message => "ERROR    " ++ d.path ++ ": " ++ message

/-- A document's outcome as JSON. -/
def DocumentReport.layout (d : DocumentReport) : Json.Layout :=
  let status : List (String × Json.Layout) :=
    match d.outcome with
    | .matched => [("status", .str "matched")]
    | .mismatched => [("status", .str "mismatched")]
    | .error message => [("status", .str "error"), ("message", .str message)]
  .obj (("path", .str d.path) :: status)

namespace Report

/-- Whether every document was loaded and matches. -/
def allMatched (r : Report) : Bool := r.documents.all (·.outcome == .matched)

/-- How many documents match. -/
def matchedCount (r : Report) : Nat := r.documents.countP (·.outcome == .matched)

/-- The line that sums up, without its end. -/
def summary (r : Report) : String :=
  toString r.matchedCount ++ "/" ++ toString r.documents.length ++ " document(s) match " ++
    r.schema

/-- A line for each document, and the line that sums up. -/
def text (r : Report) : String :=
  String.join (r.documents.map fun d => d.line ++ "\n") ++ r.summary ++ "\n"

/-- The report as JSON. -/
def layout (r : Report) : Json.Layout :=
  .obj [("schema", .str r.schema), ("documents", .arr (r.documents.map DocumentReport.layout))]

end Report

end ShapeMatch
