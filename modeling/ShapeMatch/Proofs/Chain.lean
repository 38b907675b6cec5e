import ShapeMatch.Chain
import ShapeMatch.Proofs.Except

/-!
# What chains of tests denote

A chain is a formula read from left to right: each connective joins, by its truth table, what was
found so far with the next step.

## Main definitions

* `Step.formula`, `Chain.formula`: the truth value of a step and of a chain.

## Main statements

* `Chain.build_eq_formula`: the test that a chain is built into is its formula.
* `Chain.sameAs_iff`: chains that join the same capabilities in the same way are equal.
-/

namespace ShapeMatch

namespace Step

variable {interp : Interpretation}

section Formula

variable (interp : Interpretation)

mutual

/-- The truth value of a step on a value. -/
def formula : Step → Value → Bool
  | capability c, v => interp c v
  | chain initial steps, v => formulaAll steps v (initial.formula v)

/-- The truth value of joined steps after what was found so far. -/
def formulaAll : List (Glue × Step) → Value → Bool → Bool
  | [], _, found => found
  | (glue, step) :: rest, v, found => formulaAll rest v (glue.table found (step.formula v))

end

end Formula

mutual

theorem build_eq_formula : ∀ {s : Step} {test : Value → Bool}, s.build interp = .ok test →
    ∀ v, test v = s.formula interp v
  | capability c, test, h, v => by
    cases h
    rfl
  | chain initial steps, test, h, v => by
    rw [build] at h
    split at h
    next => cases h
    next =>
      obtain ⟨first, hfirst, h⟩ := bind_eq_ok.1 h
      obtain ⟨tests, htests, h⟩ := bind_eq_ok.1 h
      cases h
      rw [formula, ← build_eq_formula hfirst v]
      exact joinTests_eq_formulaAll htests v

theorem joinTests_eq_formulaAll : ∀ {steps : List (Glue × Step)}
    {tests : List (Glue × (Value → Bool))}, buildAll interp steps = .ok tests →
      ∀ v {found : Bool}, joinTests v found tests = formulaAll interp steps v found
  | [], tests, h, v, found => by
    cases h
    rfl
  | (glue, step) :: rest, tests, h, v, found => by
    rw [buildAll] at h
    obtain ⟨test, htest, h⟩ := bind_eq_ok.1 h
    obtain ⟨tests, htests, h⟩ := bind_eq_ok.1 h
    cases h
    rw [formulaAll, ← build_eq_formula htest v, ← joinTests_eq_formulaAll htests v,
      ← Glue.apply_eq_table glue found fun _ => test v]
    rfl

end

mutual

theorem eq_of_sameAs : ∀ {s t : Step}, s.sameAs t = true → s = t
  | capability c, capability d, h => by
    rw [sameAs, beq_iff_eq] at h
    rw [h]
  | chain a as, chain b bs, h => by
    rw [sameAs, Bool.and_eq_true] at h
    rw [eq_of_sameAs h.1, eq_of_allSameAs h.2]
  | capability _, chain _ _, h => by cases h
  | chain _ _, capability _, h => by cases h

theorem eq_of_allSameAs : ∀ {as bs : List (Glue × Step)}, allSameAs as bs = true → as = bs
  | [], [], _ => rfl
  | (g, a) :: as, (h, b) :: bs, hsame => by
    simp only [allSameAs, Bool.and_eq_true, beq_iff_eq] at hsame
    obtain ⟨⟨hglue, hstep⟩, hrest⟩ := hsame
    rw [hglue, eq_of_sameAs hstep, eq_of_allSameAs hrest]
  | [], _ :: _, h => by cases h
  | _ :: _, [], h => by cases h

end

mutual

theorem sameAs_self : ∀ s : Step, s.sameAs s = true
  | capability c => by rw [sameAs, beq_self_eq_true]
  | chain initial steps => by
    rw [sameAs, sameAs_self initial, allSameAs_self steps, Bool.true_and]

theorem allSameAs_self : ∀ steps : List (Glue × Step), allSameAs steps steps = true
  | [] => rfl
  | (glue, step) :: rest => by
    rw [allSameAs, beq_self_eq_true, sameAs_self step, allSameAs_self rest, Bool.true_and,
      Bool.true_and]

end

end Step

namespace Chain

/-- The truth value of a chain on a value. -/
def formula (interp : Interpretation) (c : Chain) (v : Value) : Bool := c.toStep.formula interp v

theorem build_eq_formula {interp : Interpretation} {c : Chain} {test : Value → Bool}
    (h : c.build interp = .ok test) (v : Value) : test v = c.formula interp v :=
  Step.build_eq_formula h v

theorem eq_of_sameAs {c d : Chain} (h : c.sameAs d = true) : c = d := by
  obtain ⟨a, as⟩ := c
  obtain ⟨b, bs⟩ := d
  cases Step.eq_of_sameAs h
  rfl

@[simp] theorem sameAs_iff {c d : Chain} : c.sameAs d = true ↔ c = d := by
  constructor
  · exact eq_of_sameAs
  · rintro rfl
    exact c.toStep.sameAs_self

end Chain

end ShapeMatch
