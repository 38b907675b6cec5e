/-!
# Operators in keys and strings

A schema key or a schema string may be an operator: `*`, `*name*`, `**`, `$name$` or `(name)`.
What an operator captures may be an operator again, so that `(**)` is an optional catch-all.

## Main definitions

* `Operator`, `OperatorToken`: the four operators, and one found in a string.
* `OperatorForm`, `operatorForms`: the forms an operator is written in, in order of precedence.
* `recognize`: the operators of a string from the outside in.
* `siblingName?`: the field that a string refers to.
-/

namespace ShapeMatch

/-- What an operator asks for. -/
inductive Operator where
  /-- Any one field. -/
  | wildcard
  /-- All fields that are left. -/
  | catchAll
  /-- The value of another field of the same object. -/
  | sibling
  /-- What is inside need not be there. -/
  | optional
deriving DecidableEq, Repr

/-- How an operator is written: as a fixed text, or around a non-empty name whose characters
are restricted. -/
inductive OperatorForm where
  | exactly (text : List Char)
  | around (opening closing : Char) (inside : Char → Bool)

namespace OperatorForm

/-- What the form captures from a text, if the text is of this form. -/
def capture? : OperatorForm → List Char → Option (List Char)
  | exactly text, cs => if cs = text then some [] else none
  | around opening closing inside, cs =>
    match cs with
    | first :: rest =>
      let name := rest.dropLast
      if first = opening ∧ rest.getLast? = some closing ∧ name ≠ [] ∧ name.all inside then
        some name
      else none
    | [] => none

/-- A capture is shorter than a non-empty text. -/
theorem length_lt_of_capture? {form : OperatorForm} {cs name : List Char} (hne : cs ≠ [])
    (h : form.capture? cs = some name) : name.length < cs.length := by
  cases form with
  | exactly text =>
    simp only [capture?] at h
    split at h <;> simp_all [List.length_pos_iff]
  | around opening closing inside =>
    cases cs with
    | nil => contradiction
    | cons first rest =>
      simp only [capture?] at h
      split at h
      · simp only [Option.some.injEq] at h
        subst h
        simp only [List.length_dropLast, List.length_cons]
        omega
      · simp at h

end OperatorForm

/-- The operators and their forms. The first form that applies counts. -/
def operatorForms : List (Operator × OperatorForm) :=
  [(.wildcard, .exactly ['*']),
   (.wildcard, .around '*' '*' (· != '*')),
   (.catchAll, .exactly ['*', '*']),
   (.sibling, .around '$' '$' (· != '\n')),
   (.optional, .around '(' ')' (· != '\n'))]

/-- The operator that a text is, with its capture. -/
def recognizeOnce (cs : List Char) : Option (Operator × List Char) :=
  operatorForms.findSome? fun form => (form.2.capture? cs).map (form.1, ·)

theorem length_lt_of_recognizeOnce {cs name : List Char} {op : Operator} (hne : cs ≠ [])
    (h : recognizeOnce cs = some (op, name)) : name.length < cs.length := by
  obtain ⟨form, -, hform⟩ := List.exists_of_findSome?_eq_some h
  obtain ⟨capture, hcapture, heq⟩ := Option.map_eq_some_iff.1 hform
  cases heq
  exact OperatorForm.length_lt_of_capture? hne hcapture

/-- An operator found in a string: what it captured and what it was found in. -/
structure OperatorToken where
  kind : Operator
  capture : String
  source : String
deriving DecidableEq, Repr

/-- The operators of a text from the outside in, each found in the capture of the last. -/
def recognizeIn (cs : List Char) : List OperatorToken :=
  if hne : cs = [] then []
  else
    match h : recognizeOnce cs with
    | none => []
    | some (kind, name) =>
      have := length_lt_of_recognizeOnce hne h
      ⟨kind, String.ofList name, String.ofList cs⟩ :: recognizeIn name
termination_by cs.length

/-- The operators of a string from the outside in. -/
def recognize (s : String) : List OperatorToken := recognizeIn s.toList

/-- The outermost operator of a string. -/
def leading? (s : String) : Option OperatorToken := (recognize s).head?

/-- The field that a string of the form `$name$` refers to. -/
def siblingName? (s : String) : Option String :=
  ((leading? s).filter (·.kind == .sibling)).map (·.capture)

end ShapeMatch
