import ShapeMatch.Document
import ShapeMatch.Proofs.Except

/-!
# Documents that load

A document loads when its file is text and the text has a value in the format of the document. What
stands in other files is of no account. All this holds for any readers of JSON and of YAML.

## Main definitions

* `Loads`: the document at a path has a value.

## Main statements

* `loadDocument_eq_ok_iff`: loading gives the value of a document.
* `loadDocument_congr`: it depends on the document alone.
-/

namespace ShapeMatch

/-- The document at a path has a value: its text is JSON, or it is YAML whose tree has the value. -/
inductive Loads (readers : Readers) (read : FileReader) (format : Format) (path : String) :
    Value → Prop
  | json {content : String} {v : Value} (htext : read.text path = .ok content)
      (hformat : format.resolve path ≠ .yaml) (hread : readers.json content.toList = some v) :
      Loads readers read format path v
  | yaml {content : String} {tree : Yaml.Tree} {v : Value} (htext : read.text path = .ok content)
      (hformat : format.resolve path = .yaml) (hread : readers.yaml content.toList = some tree)
      (hvalue : tree.toValue = .ok v) : Loads readers read format path v

variable {readers : Readers} {read read' : FileReader} {format : Format} {path : String} {v : Value}

theorem parseDocument_yaml_eq_ok_iff {content : String} :
    parseDocument content .yaml path readers = .ok v ↔
      ∃ tree, readers.yaml content.toList = some tree ∧ tree.toValue = .ok v := by
  rw [parseDocument]
  cases readers.yaml content.toList with
  | none => simp
  | some tree => simp [mapError_eq_ok]

theorem parseDocument_json_eq_ok_iff {content : String} (hformat : format ≠ .yaml) :
    parseDocument content format path readers = .ok v ↔
      readers.json content.toList = some v := by
  cases format with
  | yaml => exact absurd rfl hformat
  | auto | json =>
    rw [parseDocument]
    cases readers.json content.toList <;> simp

/-- Loading gives the value of a document. -/
theorem loadDocument_eq_ok_iff :
    loadDocument read path format readers = .ok v ↔ Loads readers read format path v := by
  constructor
  · intro h
    rw [loadDocument] at h
    split at h
    next => cases h
    next content htext =>
      by_cases hformat : format.resolve path = .yaml
      · rw [hformat] at h
        obtain ⟨tree, hread, hvalue⟩ := parseDocument_yaml_eq_ok_iff.mp h
        exact .yaml htext hformat hread hvalue
      · exact .json htext hformat ((parseDocument_json_eq_ok_iff hformat).mp h)
  · intro h
    cases h with
    | json htext hformat hread =>
      rw [loadDocument, htext]
      exact (parseDocument_json_eq_ok_iff hformat).mpr hread
    | yaml htext hformat hread hvalue =>
      rw [loadDocument, htext, hformat]
      exact parseDocument_yaml_eq_ok_iff.mpr ⟨_, hread, hvalue⟩

/-- Loading depends on the document alone. -/
theorem loadDocument_congr (h : read path = read' path) :
    loadDocument read path format readers = loadDocument read' path format readers := by
  rw [loadDocument, loadDocument, FileReader.text, FileReader.text, h]

end ShapeMatch
