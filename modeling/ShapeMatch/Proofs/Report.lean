import Mathlib.Data.List.Basic
import ShapeMatch.Report
import ShapeMatch.Text.Lines

/-!
# Lines of a report

The text of a report is made for a reader who goes through it line by line, and takes each line for
a document by the word that it begins with. Paths, messages and the name of the schema are put into
it as they are. A line feed in one of them begins another line, which may begin with any word; when
there is none, the lines are those that the report means to have.

## Main definitions

* `IsLines`, `linesWithin`: the lines of a text.
* `Outcome.mark`: what a line on a document begins with.
* `Report.ownLines`, `Report.givenTexts`: the lines that a report means to have, and the texts that
  are put into them.

## Main statements

* `IsLines.unique`: a text has its lines in one way only.
* `IsLines.textLines_eq`: these are the lines that are read, but for carriage returns.
* `Report.isLines_text`: the lines that a report has.
* `Report.text_lines`: when these are the lines that it means to have, and what they tell.
-/

namespace ShapeMatch

variable {s text : String} {lines lines' : List String}

/-! ## Lines -/

/-- A text is made of these lines: each of them ends with a line feed, and has no other one. -/
def IsLines (text : String) (lines : List String) : Prop :=
  text = String.join (lines.map (· ++ "\n")) ∧ ∀ l ∈ lines, '\n' ∉ l.toList

/-- The lines that a string has when a line feed is put after it. -/
def linesWithin (s : String) : List String := (s.toList.splitOn '\n').map String.ofList

theorem toList_join_lines_cons (l : String) (rest : List String) :
    (String.join ((l :: rest).map (· ++ "\n"))).toList =
      l.toList ++ '\n' :: (String.join (rest.map (· ++ "\n"))).toList := by
  simp

/-- Reading up to the next line feed. -/
theorem linesAfter_append {current line rest : List Char} (hline : '\n' ∉ line) :
    linesAfter current (line ++ '\n' :: rest) =
      dropCarriageReturn (current.reverse ++ line) :: linesAfter [] rest := by
  induction line generalizing current with
  | nil => simp [linesAfter]
  | cons c line ih =>
    rw [List.mem_cons, not_or] at hline
    rw [List.cons_append, linesAfter, if_neg (Ne.symm hline.1), ih hline.2]
    simp

namespace IsLines

theorem splitOn_eq (h : IsLines text lines) :
    text.toList.splitOn '\n' = lines.map String.toList ++ [[]] := by
  obtain ⟨rfl, hlines⟩ := h
  induction lines with
  | nil => rfl
  | cons l rest ih =>
    obtain ⟨hl, hrest⟩ := List.forall_mem_cons.mp hlines
    rw [toList_join_lines_cons, List.splitOn_append_cons_self_of_not_mem hl, ih hrest,
      List.map_cons, List.cons_append]

theorem unique (h : IsLines text lines) (h' : IsLines text lines') : lines = lines' := by
  have heq := h.splitOn_eq.symm.trans h'.splitOn_eq
  exact List.map_injective_iff.mpr (fun _ _ => String.toList_inj.mp) (List.append_cancel_right heq)

/-- A text has as many lines as line feeds. -/
theorem length_eq (h : IsLines text lines) : lines.length = text.toList.count '\n' := by
  obtain ⟨rfl, hlines⟩ := h
  induction lines with
  | nil => rfl
  | cons l rest ih =>
    obtain ⟨hl, hrest⟩ := List.forall_mem_cons.mp hlines
    simp [ih hrest, List.count_eq_zero.mpr hl, Nat.add_comm]

theorem append {text' : String} (h : IsLines text lines) (h' : IsLines text' lines') :
    IsLines (text ++ text') (lines ++ lines') := by
  obtain ⟨rfl, hlines⟩ := h
  obtain ⟨rfl, hlines'⟩ := h'
  exact ⟨by simp, List.forall_mem_append.mpr ⟨hlines, hlines'⟩⟩

/-- Lines that are read are those of the text, without the carriage returns at their ends. -/
theorem textLines_eq (h : IsLines text lines) :
    textLines text = lines.map fun l => String.ofList (dropCarriageReturn l.toList) := by
  obtain ⟨rfl, hlines⟩ := h
  have hread : linesAfter [] (String.join (lines.map (· ++ "\n"))).toList =
      lines.map fun l => dropCarriageReturn l.toList := by
    induction lines with
    | nil => rfl
    | cons l rest ih =>
      obtain ⟨hl, hrest⟩ := List.forall_mem_cons.mp hlines
      rw [toList_join_lines_cons, linesAfter_append hl, ih hrest]
      rfl
  rw [textLines, hread, List.map_map]
  rfl

end IsLines

theorem notMem_of_mem_splitOn {cs part : List Char} (h : part ∈ cs.splitOn '\n') :
    '\n' ∉ part := by
  induction cs generalizing part with
  | nil => simp_all
  | cons c rest ih =>
    rw [List.splitOn_cons_eq_if_modifyHead] at h
    split at h
    · rcases List.mem_cons.mp h with rfl | hrest
      · exact List.not_mem_nil
      · exact ih hrest
    next hc =>
      cases hparts : rest.splitOn '\n' with
      | nil => exact absurd hparts (List.splitOn_ne_nil _ _)
      | cons first others =>
        rw [hparts, List.modifyHead_cons] at h
        rw [hparts] at ih
        rcases List.mem_cons.mp h with rfl | hothers
        · have hfirst := ih List.mem_cons_self
          grind
        · exact ih (List.mem_cons_of_mem _ hothers)

theorem flatMap_splitOn (cs : List Char) :
    (cs.splitOn '\n').flatMap (· ++ ['\n']) = cs ++ ['\n'] := by
  induction cs with
  | nil => rfl
  | cons c rest ih =>
    rw [List.splitOn_cons_eq_if_modifyHead]
    split
    next hc => simpa using ⟨(beq_iff_eq.mp hc).symm, ih⟩
    next =>
      cases hparts : rest.splitOn '\n' with
      | nil => exact absurd hparts (List.splitOn_ne_nil _ _)
      | cons first others => simpa [hparts] using ih

theorem isLines_linesWithin (s : String) : IsLines (s ++ "\n") (linesWithin s) := by
  constructor
  · rw [← String.toList_inj]
    simpa [linesWithin, List.flatMap_map] using (flatMap_splitOn s.toList).symm
  · intro l hl
    obtain ⟨part, hpart, rfl⟩ := List.mem_map.mp hl
    simpa using notMem_of_mem_splitOn hpart

theorem linesWithin_of_notMem (h : '\n' ∉ s.toList) : linesWithin s = [s] := by
  simp [linesWithin, List.splitOn_eq_singleton h]

theorem length_linesWithin (s : String) :
    (linesWithin s).length = s.toList.count '\n' + 1 := by
  simpa using (isLines_linesWithin s).length_eq

/-- Each line that is written has the lines within it. -/
theorem isLines_join (lines : List String) :
    IsLines (String.join (lines.map (· ++ "\n"))) (lines.flatMap linesWithin) := by
  induction lines with
  | nil => exact ⟨rfl, by simp⟩
  | cons l rest ih => simpa using (isLines_linesWithin l).append ih

theorem length_le_flatMap_linesWithin (lines : List String) :
    lines.length ≤ (lines.flatMap linesWithin).length := by
  induction lines with
  | nil => exact Nat.le_refl _
  | cons l rest ih =>
    rw [List.flatMap_cons, List.length_append, length_linesWithin, List.length_cons]
    omega

/-- Lines that are written are the lines within them when their number is the same. -/
theorem flatMap_linesWithin_eq_iff :
    lines.flatMap linesWithin = lines ↔
      (lines.flatMap linesWithin).length = lines.length := by
  refine ⟨fun h => by rw [h], fun h => ?_⟩
  induction lines with
  | nil => rfl
  | cons l rest ih =>
    have hle := length_le_flatMap_linesWithin rest
    rw [List.flatMap_cons, List.length_append, length_linesWithin, List.length_cons] at h
    have hnone : '\n' ∉ l.toList := List.count_eq_zero.mp (by omega)
    rw [List.flatMap_cons, linesWithin_of_notMem hnone, ih (by omega), List.singleton_append]

/-! ## Marks -/

/-- What a line on a document with this outcome begins with. -/
def Outcome.mark : Outcome → String
  | .matched => "ok"
  | .mismatched => "MISMATCH"
  | .error _ => "ERROR"

/-- A line begins with a mark. -/
def IsMarked (mark line : String) : Prop := mark.toList <+: line.toList

instance (mark : String) : DecidablePred (IsMarked mark) :=
  fun line => inferInstanceAs (Decidable (mark.toList <+: line.toList))

section

variable {mark : String} (hmark : '\n' ∉ mark.toList)

include hmark

theorem isPrefix_append_newline_iff {a b : List Char} :
    mark.toList <+: a ++ '\n' :: b ↔ mark.toList <+: a := by
  generalize mark.toList = cs at hmark
  induction a generalizing cs with
  | nil => cases cs <;> simp_all [List.cons_prefix_cons, eq_comm]
  | cons c rest ih => cases cs <;> simp_all [List.cons_prefix_cons]

/-- The mark of a line is on the first of the lines within it. -/
theorem isMarked_first_iff {l first : String} {rest : List String}
    (h : linesWithin l = first :: rest) : IsMarked mark first ↔ IsMarked mark l := by
  have hlines : l.toList ++ '\n' :: [] =
      first.toList ++ '\n' :: (String.join (rest.map (· ++ "\n"))).toList := by
    rw [← toList_join_lines_cons, ← h, ← (isLines_linesWithin l).1, String.toList_append]
    rfl
  rw [IsMarked, IsMarked, ← isPrefix_append_newline_iff hmark, ← hlines,
    isPrefix_append_newline_iff hmark]

/-- Marks are counted on the lines that are written, and on those that begin within them. -/
theorem countP_isMarked_linesWithin (lines : List String) :
    (lines.flatMap linesWithin).countP (IsMarked mark) =
      lines.countP (IsMarked mark) +
        (lines.flatMap fun l => (linesWithin l).tail).countP (IsMarked mark) := by
  induction lines with
  | nil => rfl
  | cons l rest ih =>
    have hlength := length_linesWithin l
    cases hl : linesWithin l with
    | nil => simp [hl] at hlength
    | cons first others =>
      have hfirst := isMarked_first_iff hmark hl
      simp only [List.flatMap_cons, List.countP_append, List.countP_cons, hl, List.tail_cons, ih,
        hfirst]
      omega

end

/-! ## The text of a report -/

/-- The texts that are put into the line on a document. -/
def DocumentReport.givenTexts (d : DocumentReport) : List String :=
  match d.outcome with
  | .error message => [d.path, message]
  | _ => [d.path]

namespace DocumentReport

variable (d : DocumentReport)

theorem isMarked_line_iff (o : Outcome) : IsMarked o.mark d.line ↔ o.mark = d.outcome.mark := by
  rcases d with ⟨path, _ | _ | _⟩ <;> cases o <;>
    simp [IsMarked, line, Outcome.mark, List.cons_prefix_cons]

theorem count_line :
    d.line.toList.count '\n' = (String.join d.givenTexts).toList.count '\n' := by
  rcases d with ⟨path, _ | _ | _⟩ <;> simp [line, givenTexts]

end DocumentReport

namespace Report

variable (r : Report)

/-- The lines that a report means to have. -/
def ownLines : List String := r.documents.map DocumentReport.line ++ [r.summary]

/-- The texts that are put into the lines of a report. -/
def givenTexts : List String := r.documents.flatMap DocumentReport.givenTexts ++ [r.schema]

theorem text_eq_join : r.text = String.join (r.ownLines.map (· ++ "\n")) := by
  simp [text, ownLines, String.append_assoc, Function.comp_def]

theorem isLines_text : IsLines r.text (r.ownLines.flatMap linesWithin) := by
  rw [text_eq_join]
  exact isLines_join _

/-- What is read of a report are its lines, without the carriage returns at their ends. -/
theorem textLines_text :
    textLines r.text = (r.ownLines.flatMap linesWithin).map fun l =>
      String.ofList (dropCarriageReturn l.toList) :=
  r.isLines_text.textLines_eq

/-- Digits, which are neither marks nor line feeds, and then the schema. -/
theorem toList_summary :
    ∃ digit rest, digit.isDigit = true ∧ '\n' ∉ digit :: rest ∧
      r.summary.toList = digit :: rest ++ r.schema.toList := by
  have hdigits : ∀ {n : Nat} {c : Char}, c ∈ Nat.toDigits 10 n → c.isDigit = true :=
    Nat.isDigit_of_mem_toDigits (by decide) (by decide)
  have hline : ∀ n : Nat, '\n' ∉ Nat.toDigits 10 n := fun n h => absurd (hdigits h) (by decide)
  cases hcount : Nat.toDigits 10 r.matchedCount with
  | nil => exact absurd hcount Nat.toDigits_ne_nil
  | cons digit rest =>
    refine ⟨digit, rest ++ '/' :: Nat.toDigits 10 r.documents.length ++
      " document(s) match ".toList, hdigits (hcount ▸ List.mem_cons_self), ?_, ?_⟩
    · have hrest := hcount ▸ hline r.matchedCount
      have htotal := hline r.documents.length
      simp_all
    · simp [summary, hcount]

theorem not_isMarked_summary (o : Outcome) : ¬ IsMarked o.mark r.summary := by
  obtain ⟨digit, rest, hdigit, -, hsummary⟩ := r.toList_summary
  rw [IsMarked, hsummary]
  cases o <;> simp [Outcome.mark, List.cons_prefix_cons] <;> rintro rfl <;> contradiction

theorem count_summary : r.summary.toList.count '\n' = r.schema.toList.count '\n' := by
  obtain ⟨digit, rest, -, hline, hsummary⟩ := r.toList_summary
  rw [hsummary, List.count_append, List.count_eq_zero.mpr hline, Nat.zero_add]

/-- Line feeds end the lines that are written, and the others come from the given texts. -/
theorem count_text :
    r.text.toList.count '\n' =
      r.documents.length + 1 + (String.join r.givenTexts).toList.count '\n' := by
  have hend : "\n".toList.count '\n' = 1 := by decide
  have hdocuments : ∀ documents : List DocumentReport,
      (String.join (documents.map fun d => d.line ++ "\n")).toList.count '\n' =
        documents.length +
          (String.join (documents.flatMap DocumentReport.givenTexts)).toList.count '\n' := by
    intro documents
    induction documents with
    | nil => rfl
    | cons d rest ih =>
      have hline := d.count_line
      simp only [List.map_cons, List.flatMap_cons, String.join_cons, String.join_append,
        String.toList_append, List.count_append, List.length_cons, hend] at ih ⊢
      omega
  have hall := hdocuments r.documents
  have hsummary := r.count_summary
  simp only [text, givenTexts, String.join_append, String.join_cons, String.join_nil,
    String.append_empty, String.toList_append, List.count_append, hend]
  omega

/-- The summary counts the lines that are marked as matches. -/
theorem countP_ownLines : r.ownLines.countP (IsMarked "ok") = r.matchedCount := by
  have hsummary : ¬ IsMarked "ok" r.summary := r.not_isMarked_summary .matched
  have hline : ∀ d : DocumentReport, IsMarked "ok" d.line ↔ d.outcome = .matched := fun d => by
    refine (d.isMarked_line_iff .matched).trans ?_
    cases d.outcome <;> simp [Outcome.mark]
  simp only [ownLines, matchedCount, List.countP_append, List.countP_map, List.countP_singleton,
    Function.comp_def, hsummary, hline, decide_false, Bool.false_eq_true, if_false, Nat.add_zero]
  exact List.countP_congr fun d _ => by simp

/-- The lines of a report are those that it means to have when no line feed is put into them. A line
feed in a path, in a message or in the name of the schema adds a line, and what follows it is
counted among the matches when it begins with their mark. -/
theorem text_lines :
    ∃ lines, (∀ lines', IsLines r.text lines' ↔ lines' = lines) ∧
      lines.length = r.documents.length + 1 + (String.join r.givenTexts).toList.count '\n' ∧
      (lines.length = r.documents.length + 1 ↔ ∀ s ∈ r.givenTexts, '\n' ∉ s.toList) ∧
      (lines = r.ownLines ↔ ∀ s ∈ r.givenTexts, '\n' ∉ s.toList) ∧
      (∀ d ∈ r.documents, ∀ o : Outcome, IsMarked o.mark d.line ↔ o.mark = d.outcome.mark) ∧
      (∀ o : Outcome, ¬ IsMarked o.mark r.summary) ∧
      r.ownLines.countP (IsMarked "ok") = r.matchedCount ∧
      lines.countP (IsMarked "ok") = r.matchedCount +
        (r.ownLines.flatMap fun l => (linesWithin l).tail).countP (IsMarked "ok") := by
  have hlines := r.isLines_text
  have hlength := hlines.length_eq.trans r.count_text
  have hgiven : (String.join r.givenTexts).toList.count '\n' = 0 ↔
      ∀ s ∈ r.givenTexts, '\n' ∉ s.toList := by
    simp [List.count_eq_zero]
  have hnone : (r.ownLines.flatMap linesWithin).length = r.documents.length + 1 ↔
      ∀ s ∈ r.givenTexts, '\n' ∉ s.toList := by
    rw [hlength, ← hgiven]
    omega
  have hown : r.ownLines.length = r.documents.length + 1 := by simp [ownLines]
  have hsame : r.ownLines.flatMap linesWithin = r.ownLines ↔
      ∀ s ∈ r.givenTexts, '\n' ∉ s.toList := by
    rw [flatMap_linesWithin_eq_iff, hown, hnone]
  have hmarked := @countP_isMarked_linesWithin "ok" (by decide) r.ownLines
  rw [countP_ownLines] at hmarked
  exact ⟨_, fun lines' => ⟨fun h => h.unique hlines, fun h => h ▸ hlines⟩, hlength, hnone, hsame,
    fun d _ => d.isMarked_line_iff, r.not_isMarked_summary, r.countP_ownLines, hmarked⟩

/-- A path of two lines makes three lines of a report on one document, and the second of them is
marked as a match although nothing matches. -/
theorem text_lines_of_path_of_two_lines :
    let r : Report := ⟨"s", [⟨"a\nok       b", .mismatched⟩]⟩
    let lines := ["MISMATCH a", "ok       b", "0/1 document(s) match s"]
    (∀ lines', IsLines r.text lines' ↔ lines' = lines) ∧ textLines r.text = lines ∧
      lines.length ≠ r.documents.length + 1 ∧
      lines.countP (IsMarked "ok") = 1 ∧ r.matchedCount = 0 := by
  intro r lines
  have hlines : IsLines r.text lines := ⟨by decide +kernel, by decide⟩
  refine ⟨fun lines' => ⟨fun h => h.unique hlines, fun h => h ▸ hlines⟩, ?_⟩
  rw [hlines.textLines_eq]
  decide +kernel

end Report

end ShapeMatch
