import Mathlib.Data.List.Forall2
import ShapeMatch.CommandLine
import ShapeMatch.Proofs.Document

/-!
# Checks and their exit codes

A check fails when its schema does, whatever the documents are. Otherwise each document has an entry
of its own in the report, which depends on the schema, the format and that document alone. The exit
code is 0 when every entry says that its document matches. None of this depends on how JSON and YAML
are read, so that it is said of any readers; the program has `Readers.standard`.

## Main definitions

* `Yields`: the schema at a path loads and compiles.
* `ReportsOn`: an entry tells whether the document at a path loads and whether it matches.

## Main statements

* `check_eq_ok_iff`: the report on documents.
* `reportsOn_checkDocument`: each entry of it tells the truth.
* `Report.allMatched_iff`, `Report.matchedCount_eq_length_iff`: two ways to ask whether all match.
* `exists_entry`, `check_append`: documents are checked independently.
* `check_and_respond`: what a check reports, and what its exit code says about that.
-/

namespace ShapeMatch

/-- The schema at a path loads, and compiles to a matcher. -/
def Yields (readers : Readers) (read : FileReader) (format : Format) (path : String)
    (m : Matcher) : Prop :=
  ∃ v, Loads readers read format path v ∧ (Schema.ofValue v).compile noCapabilities = .ok m

/-- An entry tells whether the document at a path loads and, if so, whether it matches. -/
structure ReportsOn (readers : Readers) (read : FileReader) (format : Format) (m : Matcher)
    (path : String) (d : DocumentReport) : Prop where
  path_eq : d.path = path
  matched_iff :
    d.outcome = .matched ↔ ∃ v, Loads readers read format path v ∧ m.matchesAlone v = true
  mismatched_iff :
    d.outcome = .mismatched ↔ ∃ v, Loads readers read format path v ∧ m.matchesAlone v = false
  error_iff :
    (∃ message, d.outcome = .error message) ↔ ¬ ∃ v, Loads readers read format path v

variable {readers : Readers} {read read' : FileReader} {format : Format} {schema path : String}
  {documents : List String} {m : Matcher} {report : Report}

/-! ## Entries -/

theorem reportsOn_checkDocument (m : Matcher) :
    ReportsOn readers read format m path ⟨path, checkDocument read m format path readers⟩ := by
  cases hload : loadDocument read path format readers with
  | error e =>
    have hnone : ∀ v, ¬ Loads readers read format path v := fun v hv => by
      cases hload.symm.trans (loadDocument_eq_ok_iff.mpr hv)
    constructor <;> simp [checkDocument, hload, hnone]
  | ok v =>
    have hloads : ∀ w, Loads readers read format path w ↔ w = v := fun w => by
      rw [← loadDocument_eq_ok_iff, hload, Except.ok.injEq, eq_comm]
    constructor <;> cases hmatches : m.matchesAlone v <;>
      simp [checkDocument, hload, hloads, hmatches]

theorem checkDocument_congr (h : read path = read' path) :
    checkDocument read m format path readers = checkDocument read' m format path readers := by
  rw [checkDocument, checkDocument, loadDocument_congr h]

/-! ## Reports -/

theorem loadMatcher_eq_ok_iff :
    loadMatcher read schema format readers = .ok m ↔ Yields readers read format schema m := by
  simp only [Yields, ← loadDocument_eq_ok_iff]
  rw [loadMatcher]
  cases loadDocument read schema format readers with
  | error e => simp
  | ok v => simp [mapError_eq_ok, compileDocument]

theorem loadMatcher_congr (h : read schema = read' schema) :
    loadMatcher read schema format readers = loadMatcher read' schema format readers := by
  rw [loadMatcher, loadMatcher, loadDocument_congr h]

/-- The report on documents, one by one, if the schema yields a matcher. -/
theorem check_eq_ok_iff :
    check read schema documents format readers = .ok report ↔
      ∃ m, loadMatcher read schema format readers = .ok m ∧
        report = ⟨schema, documents.map fun path =>
          ⟨path, checkDocument read m format path readers⟩⟩ := by
  rw [check, bind_eq_ok]
  simp only [pure_eq_ok, @eq_comm _ report]

/-- A check fails as its schema does, whatever the documents are. -/
theorem errorOf?_check :
    errorOf? (check read schema documents format readers) =
      errorOf? (loadMatcher read schema format readers) :=
  errorOf?_bind_pure

theorem exists_check_eq_error_iff :
    (∃ e, check read schema documents format readers = .error e) ↔
      ¬ ∃ m, Yields readers read format schema m := by
  simp only [← loadMatcher_eq_ok_iff, ← errorOf?_eq_some_iff, ← errorOf?_eq_none_iff]
  rw [errorOf?_check, ← Option.ne_none_iff_exists', ne_eq]

/-- A report has an entry for each document, in their order. -/
theorem forall₂_reportsOn (h : check read schema documents format readers = .ok report) :
    report.schema = schema ∧ ∃ m, Yields readers read format schema m ∧
      List.Forall₂ (ReportsOn readers read format m) documents report.documents := by
  obtain ⟨m, hm, rfl⟩ := check_eq_ok_iff.mp h
  refine ⟨rfl, m, loadMatcher_eq_ok_iff.mp hm, ?_⟩
  rw [List.forall₂_map_right_iff, List.forall₂_same]
  exact fun path _ => reportsOn_checkDocument m

/-- Entries depend on the schema, the format and their own documents. -/
theorem exists_entry (readers : Readers) (read : FileReader) (schema : String) (format : Format) :
    ∃ entry : String → Except FileError ByteArray → DocumentReport,
      ∀ read' : FileReader, read' schema = read schema → ∀ documents report,
        check read' schema documents format readers = .ok report →
          report.documents = documents.map fun path => entry path (read' path) := by
  cases hm : loadMatcher read schema format readers with
  | error e =>
    -- no reader with this schema has a report, so that any entry will do
    refine ⟨fun path _ => ⟨path, .matched⟩, fun read' hread' documents report h => ?_⟩
    obtain ⟨m, hm', -⟩ := check_eq_ok_iff.mp h
    cases hm.symm.trans ((loadMatcher_congr hread').symm.trans hm')
  | ok m =>
    refine ⟨fun path content =>
        ⟨path, checkDocument (fun _ => content) m format path readers⟩,
      fun read' hread' documents report h => ?_⟩
    obtain ⟨m', hm', rfl⟩ := check_eq_ok_iff.mp h
    obtain rfl : m = m' :=
      Except.ok.inj (hm.symm.trans ((loadMatcher_congr hread').symm.trans hm'))
    have hentry : ∀ path, checkDocument read' m format path readers =
        checkDocument (fun _ => read' path) m format path readers :=
      fun path => checkDocument_congr rfl
    simp only [hentry]

theorem check_append {documents' : List String} {report' : Report}
    (h : check read schema documents format readers = .ok report)
    (h' : check read schema documents' format readers = .ok report') :
    check read schema (documents ++ documents') format readers =
      .ok ⟨schema, report.documents ++ report'.documents⟩ := by
  obtain ⟨m, hm, rfl⟩ := check_eq_ok_iff.mp h
  obtain ⟨m', hm', rfl⟩ := check_eq_ok_iff.mp h'
  obtain rfl : m = m' := Except.ok.inj (hm.symm.trans hm')
  exact check_eq_ok_iff.mpr ⟨m, hm, by rw [List.map_append]⟩

namespace Report

theorem allMatched_iff :
    report.allMatched = true ↔ ∀ d ∈ report.documents, d.outcome = .matched := by
  simp [allMatched]

theorem matchedCount_eq_length_iff :
    report.matchedCount = report.documents.length ↔
      ∀ d ∈ report.documents, d.outcome = .matched := by
  simp [matchedCount, List.countP_eq_length]

end Report

/-! ## Exit codes -/

section

variable {arguments : List String} {toggles : List Toggle}
  (harguments : parseArguments arguments = .ok (.check ⟨schema, documents, format, toggles⟩))

include harguments

theorem respond_of_check_eq_error {e : CheckError}
    (h : check read schema documents format readers = .error e) :
    (respond read arguments readers).exitCode = 1 ∧
      (respond read arguments readers).output = "" := by
  rw [respond, harguments]
  dsimp only
  rw [respondToCheck, h]
  exact ⟨rfl, rfl⟩

/-- The options do not matter for the exit code. -/
theorem exitCode_respond (h : check read schema documents format readers = .ok report) :
    (respond read arguments readers).exitCode = if report.allMatched then 0 else 1 := by
  rw [respond, harguments]
  dsimp only
  rw [respondToCheck, h]

end

/-- Whatever the readers are, a check fails when its schema does, and otherwise reports on every
document independently. The program exits with 0 when every document matches and with 1 in all other
cases, whatever the options are. -/
theorem check_and_respond (readers : Readers) (read : FileReader) (schema : String)
    (format : Format) :
    (∀ documents, (∃ e, check read schema documents format readers = .error e) ↔
      ¬ ∃ m, Yields readers read format schema m) ∧
    (∀ documents report, check read schema documents format readers = .ok report →
      report.schema = schema ∧ ∃ m, Yields readers read format schema m ∧
        List.Forall₂ (ReportsOn readers read format m) documents report.documents) ∧
    (∃ entry : String → Except FileError ByteArray → DocumentReport,
      ∀ read' : FileReader, read' schema = read schema → ∀ documents report,
        check read' schema documents format readers = .ok report →
          report.documents = documents.map fun path => entry path (read' path)) ∧
    (∀ documents documents' report report',
      check read schema documents format readers = .ok report →
      check read schema documents' format readers = .ok report' →
        check read schema (documents ++ documents') format readers =
          .ok ⟨schema, report.documents ++ report'.documents⟩) ∧
    ∀ arguments documents toggles,
      parseArguments arguments = .ok (.check ⟨schema, documents, format, toggles⟩) →
        (∀ e, check read schema documents format readers = .error e →
          (respond read arguments readers).exitCode = 1 ∧
            (respond read arguments readers).output = "") ∧
        ∀ report, check read schema documents format readers = .ok report →
          ((respond read arguments readers).exitCode = 0 ∨
            (respond read arguments readers).exitCode = 1) ∧
          ((respond read arguments readers).exitCode = 0 ↔
            ∀ d ∈ report.documents, d.outcome = .matched) ∧
          ((respond read arguments readers).exitCode = 0 ↔
            report.matchedCount = report.documents.length) := by
  refine ⟨fun _ => exists_check_eq_error_iff, fun _ _ => forall₂_reportsOn,
    exists_entry readers read schema format, fun _ _ _ _ => check_append, ?_⟩
  intro arguments documents toggles harguments
  refine ⟨fun e => respond_of_check_eq_error harguments, fun report h => ?_⟩
  have hcode := exitCode_respond harguments h
  rw [Report.matchedCount_eq_length_iff, ← Report.allMatched_iff]
  cases hall : report.allMatched <;> simp [hcode, hall]

/-- Documents in YAML and in JSON, told apart by their names and read by the readers of the program.
Two of them match, of which one is given twice. Of the others one is YAML with the name of a JSON
document, one does not match, one holds an infinity and one is missing, so the exit code is 1. It is
0 for those that match. A schema that is missing ends the check. -/
theorem check_of_yaml_and_json_documents :
    let read : FileReader := fun path =>
      match path with
      | "schema.yaml" | "same.yml" | "broken.json" => .ok "x: 1".toUTF8
      | "same.json" => .ok "\x7b\"x\": 1.0\x7d".toUTF8
      | "other.json" => .ok "\x7b\"x\": 2\x7d".toUTF8
      | "infinite.yaml" => .ok "x: .inf".toUTF8
      | _ => .error .notFound
    let matching := ["same.yml", "same.json", "same.yml"]
    let others := ["broken.json", "other.json", "infinite.yaml", "missing.json"]
    let matched : List DocumentReport :=
      [⟨"same.yml", .matched⟩, ⟨"same.json", .matched⟩, ⟨"same.yml", .matched⟩]
    let failed : List DocumentReport := [⟨"broken.json", .error "invalid JSON in broken.json"⟩,
      ⟨"other.json", .mismatched⟩,
      ⟨"infinite.yaml", .error
        "cannot convert YAML in infinite.yaml to JSON: float inf is not representable in JSON"⟩,
      ⟨"missing.json", .error "cannot read missing.json: No such file or directory (os error 2)"⟩]
    check read "schema.yaml" (matching ++ others) .auto = .ok ⟨"schema.yaml", matched ++ failed⟩ ∧
      (∃ v, Loads .standard read .auto "same.yml" v) ∧
      (∃ v, Loads .standard read .auto "same.json" v) ∧
      (¬ ∃ v, Loads .standard read .auto "broken.json" v) ∧
      (respond read (["-v", "--json", "-s", "schema.yaml"] ++ matching ++ others)).exitCode = 1 ∧
      (respond read (["--quiet", "--schema=schema.yaml"] ++ matching)).exitCode = 0 ∧
      (respond read (["--schema=missing.json"] ++ matching)).exitCode = 1 ∧
      (respond read (["--schema=missing.json"] ++ matching)).output = "" := by
  intro read matching others matched failed
  have hmatched : check read "schema.yaml" matching .auto = .ok ⟨"schema.yaml", matched⟩ :=
    toOption_eq_some_iff.mp (by decide +kernel)
  have hfailed : check read "schema.yaml" others .auto = .ok ⟨"schema.yaml", failed⟩ :=
    toOption_eq_some_iff.mp (by decide +kernel)
  have hmissing : check read "missing.json" matching .auto =
      .error (.load (.io "missing.json" .notFound)) := rfl
  obtain ⟨-, hentries, -, happend, hexit⟩ := check_and_respond .standard read "schema.yaml" .auto
  obtain ⟨-, -, -, -, hend⟩ := check_and_respond .standard read "missing.json" .auto
  have hreport := happend _ _ _ _ hmatched hfailed
  obtain ⟨-, m, -, hmatchedEntries⟩ := hentries _ _ hmatched
  obtain ⟨hyaml, hmatchedRest⟩ := List.forall₂_cons.mp hmatchedEntries
  obtain ⟨hjson, -⟩ := List.forall₂_cons.mp hmatchedRest
  obtain ⟨-, m', -, hfailedEntries⟩ := hentries _ _ hfailed
  obtain ⟨hbroken, -⟩ := List.forall₂_cons.mp hfailedEntries
  obtain ⟨hcode, hzero, -⟩ :=
    (hexit (["-v", "--json", "-s", "schema.yaml"] ++ matching ++ others) (matching ++ others)
      [.verbose, .json] (by decide +kernel)).2 _ hreport
  obtain ⟨-, hall, -⟩ :=
    (hexit (["--quiet", "--schema=schema.yaml"] ++ matching) matching [.quiet]
      (by decide +kernel)).2 _ hmatched
  have hnothing :=
    (hend (["--schema=missing.json"] ++ matching) matching [] (by decide +kernel)).1 _ hmissing
  exact ⟨hreport, (hyaml.matched_iff.mp rfl).imp fun _ h => h.1,
    (hjson.matched_iff.mp rfl).imp fun _ h => h.1, hbroken.error_iff.mp ⟨_, rfl⟩,
    hcode.resolve_left fun h => absurd (hzero.mp h) (by decide), hall.mpr (by decide), hnothing⟩

end ShapeMatch
