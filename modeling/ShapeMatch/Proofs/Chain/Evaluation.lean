import ShapeMatch.Proofs.Chain
import ShapeMatch.Value.Shape

/-!
# When chains can be evaluated, and to what

A chain cannot be built when it has no further steps or some chain within it has none. Otherwise its
verdict is the fold of its connectives over the truth values of its steps, from left to right.

## Main definitions

* `Step.chains`: the chains within a step.
* `Chain.Usable`: every chain within a chain has further steps.

## Main statements

* `Step.errorOf?_build`: the error of building a step.
* `Step.formulaAll_eq_foldl`: joined steps are folded by their truth tables.
* `Step.build_chain_initial`: a chain that stands first can be taken apart.
* `Chain.Usable.evaluate_eq`: what a chain evaluates to.
-/

namespace ShapeMatch

variable {interp : Interpretation}

/-! ## Faults -/

/-- What is wrong with a chain by itself. -/
def Chain.fault? (c : Chain) : Option ComposeError :=
  if c.isEmpty then some .notInitialized else none

theorem findSome?_chain_fault? (cs : List Chain) :
    cs.findSome? Chain.fault? = if cs.any Chain.isEmpty then some .notInitialized else none := by
  induction cs with
  | nil => rfl
  | cons c rest ih =>
    rw [findSome?_cons_eq_or, ih, List.any_cons, Chain.fault?]
    cases c.isEmpty <;> rfl

namespace Step

mutual

/-- The chains within a step, the step itself first. -/
def chains : Step → List Chain
  | capability _ => []
  | chain initial steps => ⟨initial, steps⟩ :: (initial.chains ++ chainsOfAll steps)

/-- The chains within joined steps. -/
def chainsOfAll : List (Glue × Step) → List Chain
  | [] => []
  | (_, step) :: rest => step.chains ++ chainsOfAll rest

end

mutual

/-- Building a step fails with the first fault of a chain within it. -/
theorem errorOf?_build : ∀ s : Step, errorOf? (s.build interp) = s.chains.findSome? Chain.fault?
  | capability c => rfl
  | chain initial steps => by
    cases steps with
    | nil => rfl
    | cons step rest =>
      have hself : Chain.fault? ⟨initial, step :: rest⟩ = none := rfl
      rw [build, chains, List.findSome?_cons, hself, List.findSome?_append,
        ← errorOf?_build initial, ← errorOf?_buildAll (step :: rest)]
      exact errorOf?_bind fun first _ => errorOf?_bind_pure

theorem errorOf?_buildAll : ∀ steps : List (Glue × Step),
    errorOf? (buildAll interp steps) = (chainsOfAll steps).findSome? Chain.fault?
  | [] => rfl
  | (glue, step) :: rest => by
    rw [buildAll, chainsOfAll, List.findSome?_append, ← errorOf?_build step,
      ← errorOf?_buildAll rest]
    exact errorOf?_bind fun test _ => errorOf?_bind_pure

end

/-! ## Steps -/

/-- Joined steps are folded by their truth tables. -/
theorem formulaAll_eq_foldl (steps : List (Glue × Step)) (v : Value) (found : Bool) :
    formulaAll interp steps v found =
      steps.foldl (fun found step => step.1.table found (step.2.formula interp v)) found := by
  induction steps generalizing found with
  | nil => rfl
  | cons step rest ih => rw [formulaAll, ih, List.foldl_cons]

theorem buildAll_append (steps rest : List (Glue × Step)) :
    buildAll interp (steps ++ rest) =
      buildAll interp steps >>= fun tests =>
        buildAll interp rest >>= fun more => pure (tests ++ more) := by
  induction steps with
  | nil => exact (bind_pure _).symm
  | cons step steps ih =>
    obtain ⟨glue, step⟩ := step
    simp only [List.cons_append, buildAll, ih, bind_assoc, pure_bind]

/-- A chain that stands first in a chain can be taken apart: its first step comes first and its
further steps come before those of the chain. -/
theorem build_chain_initial {first rest : List (Glue × Step)} (hfirst : first ≠ [])
    (hrest : rest ≠ []) (initial : Step) :
    (chain (chain initial first) rest).build interp =
      (chain initial (first ++ rest)).build interp := by
  have hjoin : ∀ v found (tests more : List (Glue × (Value → Bool))),
      joinTests v (joinTests v found tests) more = joinTests v found (tests ++ more) := by
    intro v found tests more
    rw [joinTests, joinTests, joinTests, List.foldl_append]
  simp only [build, List.isEmpty_iff, hfirst, hrest, List.append_eq_nil_iff, if_false, false_and,
    buildAll_append, bind_assoc, pure_bind, hjoin]

end Step

/-! ## Verdicts -/

namespace Chain

/-- A chain is usable when it has further steps, and so has every chain within it. -/
def Usable (c : Chain) : Prop := ∀ d ∈ c.toStep.chains, d.steps ≠ []

theorem build_eq_error_iff {c : Chain} {e : ComposeError} :
    c.build interp = .error e ↔ ¬ c.Usable ∧ e = .notInitialized := by
  rw [← errorOf?_eq_some_iff, build, Step.errorOf?_build, findSome?_chain_fault?]
  simp [Usable, isEmpty, eq_comm (a := e)]

/-- A usable chain evaluates to its truth value. -/
theorem Usable.evaluate_eq {c : Chain} (h : c.Usable) (v : Value) :
    c.evaluate interp v = .ok (c.formula interp v) := by
  cases hbuild : c.build interp with
  | error e => exact absurd h (build_eq_error_iff.mp hbuild).1
  | ok test =>
    rw [evaluate, hbuild]
    exact congrArg Except.ok (build_eq_formula hbuild v)

theorem evaluate_eq_error_iff {c : Chain} {v : Value} {e : ComposeError} :
    c.evaluate interp v = .error e ↔ ¬ c.Usable ∧ e = .notInitialized := by
  rw [← build_eq_error_iff, evaluate]
  cases c.build interp <;> simp [Except.map]

/-- Building and evaluating a chain fail exactly when it or a chain within it has no further steps,
always with the same error. Otherwise the verdict is the truth value of the chain: the fold of its
truth tables, from left to right, over the truth values of its steps, chains among them. A chain
that stands first can be taken apart, and chains that join the same capabilities in the same way
have the same outcome. -/
theorem build_and_evaluate_eq_foldl (interp : Interpretation) (c : Chain) :
    (∀ e, c.build interp = .error e ↔ ¬ c.Usable ∧ e = .notInitialized) ∧
    (∀ v e, c.evaluate interp v = .error e ↔ ¬ c.Usable ∧ e = .notInitialized) ∧
    (c.Usable → ∀ v, c.evaluate interp v = .ok (c.formula interp v)) ∧
    (∀ initial steps v, (Step.chain initial steps).formula interp v =
      steps.foldl (fun found step => step.1.table found (step.2.formula interp v))
        (initial.formula interp v)) ∧
    (∀ initial first, c.initial = .chain initial first → first ≠ [] → c.steps ≠ [] →
      c.build interp = Chain.build interp ⟨initial, first ++ c.steps⟩ ∧
        ∀ v, c.evaluate interp v = Chain.evaluate interp ⟨initial, first ++ c.steps⟩ v) ∧
    ∀ d, c.sameAs d = true →
      c.build interp = d.build interp ∧ ∀ v, c.evaluate interp v = d.evaluate interp v := by
  refine ⟨fun _ => build_eq_error_iff, fun _ _ => evaluate_eq_error_iff,
    fun h => h.evaluate_eq, ?_, ?_, ?_⟩
  · intro initial steps v
    rw [Step.formula, Step.formulaAll_eq_foldl]
  · intro initial first hinitial hfirst hsteps
    have hbuild : c.build interp = Chain.build interp ⟨initial, first ++ c.steps⟩ := by
      rw [build, toStep, hinitial]
      exact Step.build_chain_initial hfirst hsteps initial
    exact ⟨hbuild, fun v => by rw [evaluate, evaluate, hbuild]⟩
  · intro d hsame
    rw [eq_of_sameAs hsame]
    exact ⟨rfl, fun _ => rfl⟩

/-- A chain that begins with a chain and ends with one: not both a number and a string, and a string
or a number, and then neither this nor again a string or a number. -/
theorem evaluate_nested_chains :
    let number : Step := .capability ⟨0⟩
    let string : Step := .capability ⟨1⟩
    let interp : Interpretation := fun c => if c = ⟨0⟩ then Value.isNumber else Value.isString
    let last : Step := .chain string [(.or, number)]
    let c : Chain := ⟨.chain number [(.nand, string)], [(.and, last), (.nor, last)]⟩
    c.Usable ∧ (c.build interp ≠ .error .notInitialized) ∧ c.evaluate interp .null = .ok true ∧
      c.build interp = Chain.build interp ⟨number, [(.nand, string), (.and, last), (.nor, last)]⟩ ∧
      ∀ d, c.sameAs d = true → d.evaluate interp .null = .ok true := by
  intro number string interp last c
  obtain ⟨hbuild, -, hevaluate, -, hinitial, hsame⟩ := build_and_evaluate_eq_foldl interp c
  have husable : c.Usable := by
    simp [Usable, c, last, number, string, toStep, Step.chains, Step.chainsOfAll]
  have hnull : c.evaluate interp .null = .ok true := hevaluate husable .null
  refine ⟨husable, fun h => ((hbuild _).mp h).1 husable, hnull, ?_, ?_⟩
  · exact (hinitial number [(.nand, string)] rfl (by simp) (by simp [c])).1
  · exact fun d hd => ((hsame d hd).2 .null).symm.trans hnull

end Chain

end ShapeMatch
