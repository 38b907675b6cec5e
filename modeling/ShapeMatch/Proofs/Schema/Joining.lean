import ShapeMatch.Proofs.Operator
import ShapeMatch.Proofs.Schema.Fault

/-!
# Schemas joined by a connective

Several schemas become one matcher that folds a connective over the verdicts their matchers have
alone, from left to right. A chain of tests folds in the same way, and an array asks every item for
the conjunction. A joined matcher has forgotten the enclosing object, unless there was only one
matcher to join, which stays as it is.

## Main definitions

* `Chain.joining`: capabilities joined by one connective.
* `Matcher.Joins`: one matcher for several joined by a connective.
* `Matcher.TestsItems`: the item matcher of an array schema.

## Main statements

* `Schema.compileAll_joins`: schemas, chains and arrays are joined alike.
-/

namespace ShapeMatch

variable {interp : Interpretation} {glue : Glue}

/-! ## Chains -/

namespace Chain

/-- The chain that joins capabilities to a first one by one connective, in order. -/
def joining (glue : Glue) (first : Capability) (rest : List Capability) : Chain :=
  rest.foldl (fun c d => c.join glue (.capability d)) (start (.capability first))

theorem joining_eq (glue : Glue) (first : Capability) (rest : List Capability) :
    joining glue first rest = ⟨.capability first, rest.map fun d => (glue, .capability d)⟩ := by
  have hfold : ∀ c : Chain, rest.foldl (fun c d => c.join glue (.capability d)) c =
      ⟨c.initial, c.steps ++ rest.map fun d => (glue, .capability d)⟩ := by
    induction rest with
    | nil => simp
    | cons d rest ih =>
      intro c
      rw [List.foldl_cons, ih]
      simp [join]
  exact hfold _

theorem usable_joining {rest : List Capability} (hne : rest ≠ []) (first : Capability) :
    (joining glue first rest).Usable := by
  have hchains : ∀ cs : List Capability,
      Step.chainsOfAll (cs.map fun d => (glue, .capability d)) = [] := by
    intro cs
    induction cs with
    | nil => rfl
    | cons d cs ih =>
      rw [List.map_cons, Step.chainsOfAll, ih]
      rfl
  rw [joining_eq, Usable, toStep, Step.chains, hchains]
  simpa [Step.chains] using hne

/-- A chain of capabilities evaluates to the fold of its connective over what they test. -/
theorem evaluate_joining {rest : List Capability} (hne : rest ≠ []) (first : Capability)
    (v : Value) :
    (joining glue first rest).evaluate interp v =
      .ok (rest.foldl (fun found d => glue.table found (interp d v)) (interp first v)) := by
  rw [(usable_joining hne first).evaluate_eq, formula, joining_eq, toStep, Step.formula,
    Step.formulaAll_eq_foldl, List.foldl_map]
  rfl

end Chain

/-! ## Matchers -/

namespace Matcher

variable {first m element : Matcher} {rest matchers : List Matcher}

/-- A matcher stands for others joined by a connective: alone it has the fold of the connective over
the verdicts that they have alone. It is the first itself if there are no others. With others, it
has the same verdict within any object, and so does the chain of tests that are these matchers. -/
structure Joins (glue : Glue) (first : Matcher) (rest : List Matcher) (m : Matcher) : Prop where
  fold : ∀ v, m.matchesAlone v =
    rest.foldl (fun found n => glue.table found (n.matchesAlone v)) (first.matchesAlone v)
  single : rest = [] → m = first
  within : rest ≠ [] → ∀ parent v, m.matchesIn parent v = m.matchesAlone v
  chain : rest ≠ [] → ∀ (interp : Interpretation) (c : Capability) (cs : List Capability),
    List.Forall₂ (fun c n => interp c = n.matchesAlone) (c :: cs) (first :: rest) →
      ∀ v, (Chain.joining glue c cs).evaluate interp v = .ok (m.matchesAlone v)

theorem matchesAlone_foldl_join (glue : Glue) (first : Matcher) (rest : List Matcher) (v : Value) :
    (rest.foldl (join glue) first).matchesAlone v =
      rest.foldl (fun found n => glue.table found (n.matchesAlone v)) (first.matchesAlone v) := by
  induction rest generalizing first with
  | nil => rfl
  | cons n rest ih => rw [List.foldl_cons, List.foldl_cons, ih, Schema.matchesAlone_join]

/-- Joining forgets the enclosing object. -/
theorem matchesIn_foldl_join (hne : rest ≠ []) (parent : Object) (v : Value) :
    (rest.foldl (join glue) first).matchesIn parent v =
      (rest.foldl (join glue) first).matchesAlone v := by
  -- the last join has the verdict, and it asks both of its sides alone
  obtain ⟨init, last, rfl⟩ := (List.eq_nil_or_concat' rest).resolve_left hne
  rw [List.foldl_append, List.foldl_cons, List.foldl_nil, join, matchesIn, matchesAlone,
    judge_plain, judge_plain]

/-- Tests that are those of matchers one by one fold to the same verdict. -/
theorem foldl_tests_eq {interp : Interpretation} {cs : List Capability}
    (h : List.Forall₂ (fun c n => interp c = n.matchesAlone) cs matchers) (v : Value)
    (found : Bool) :
    cs.foldl (fun found d => glue.table found (interp d v)) found =
      matchers.foldl (fun found n => glue.table found (n.matchesAlone v)) found := by
  refine List.rel_foldl (P := Eq) ?_ rfl h
  rintro found - rfl c n hc
  exact congrArg (glue.table found) (congrFun hc v)

theorem joins_foldl_join (glue : Glue) (first : Matcher) (rest : List Matcher) :
    Joins glue first rest (rest.foldl (join glue) first) where
  fold := matchesAlone_foldl_join glue first rest
  single := by
    rintro rfl
    rfl
  within := matchesIn_foldl_join
  chain := by
    intro hne interp c cs htests v
    obtain ⟨hfirst, hrest⟩ := List.forall₂_cons.mp htests
    have hcs : cs ≠ [] := by
      rintro rfl
      exact hne (List.forall₂_nil_left_iff.mp hrest)
    rw [Chain.evaluate_joining hcs, matchesAlone_foldl_join, hfirst, foldl_tests_eq hrest]

/-- An item matcher decides arrays by all of several matchers: what it accepts are the arrays whose
items each of them accepts alone. -/
def TestsItems (matchers : List Matcher) (element : Matcher) : Prop :=
  ∀ parent v, (array element).judge parent v = true ↔
    ∃ xs, v = .arr xs ∧ ∀ x ∈ xs, ∀ n ∈ matchers, n.matchesAlone x = true

theorem testsItems_foldl_join (first : Matcher) (rest : List Matcher) :
    TestsItems (first :: rest) (rest.foldl (join .and) first) := by
  intro parent v
  rw [judge_array]
  cases v <;> simp [Schema.matchesAlone_foldl_and]

/-- With a reference to a field among the matchers, only the empty array is left. -/
theorem TestsItems.judge_arr_of_sibling {name : String} (h : TestsItems matchers element)
    (hname : sibling name ∈ matchers) (parent : Option Object) (xs : List Value) :
    (array element).judge parent (.arr xs) = xs.isEmpty := by
  rw [Bool.eq_iff_iff, h, List.isEmpty_iff]
  constructor
  · rintro ⟨ys, hys, hall⟩
    cases hys
    refine List.eq_nil_iff_forall_not_mem.mpr fun x hx => ?_
    simpa [matchesAlone, judge_sibling] using hall x hx _ hname
  · rintro rfl
    exact ⟨[], rfl, by simp⟩

end Matcher

/-! ## Schemas -/

namespace Schema

variable {schemas : List Schema} {first : Matcher} {rest matchers : List Matcher}

theorem exists_matchers (hne : schemas ≠ []) (h : ∀ s ∈ schemas, s.Compiles interp) :
    ∃ first rest, List.Forall₂ (fun s m => s.compile interp = .ok m) schemas (first :: rest) := by
  obtain ⟨matchers, hmatchers⟩ := exists_compileItems_iff.mpr h
  rw [compileItems_eq_ok_iff] at hmatchers
  cases hmatchers with
  | nil => contradiction
  | cons hm hrest => exact ⟨_, _, .cons hm hrest⟩

theorem compileAll_eq_ok
    (h : List.Forall₂ (fun s m => s.compile interp = .ok m) schemas (first :: rest)) :
    compileAll interp glue schemas = .ok (rest.foldl (.join glue) first) := by
  rw [compileAll, compileItems_eq_ok_iff.mpr h]
  exact joinCompiled_eq_ok_iff.mpr ⟨first, rest, rfl, rfl⟩

/-- An array schema compiles to its item matcher. -/
theorem compile_array_eq_ok
    (h : List.Forall₂ (fun s m => s.compile interp = .ok m) schemas (first :: rest)) :
    (array schemas).compile interp = .ok (.array (rest.foldl (.join .and) first)) := by
  obtain ⟨s, others, -, -, rfl⟩ := List.forall₂_cons_right_iff.mp h
  rw [compile_array_cons, compileElements, compileAll_eq_ok h]
  rfl

theorem compileAll_eq_error_iff (hne : schemas ≠ []) {e : SchemaError} :
    compileAll interp glue schemas = .error e ↔
      ∃ before s after, schemas = before ++ s :: after ∧ (∀ t ∈ before, t.Compiles interp) ∧
        s.compile interp = .error e := by
  have hcompiles : ∀ t : Schema, t.Compiles interp ↔ errorOf? (t.compile interp) = none :=
    fun t => errorOf?_eq_none_iff.symm
  simp only [hcompiles, ← errorOf?_eq_some_iff, errorOf?_compileAll hne,
    List.findSome?_eq_some_iff]
  simp only [and_comm]

theorem compile_of_captures {s name : String} (h : OperatorRule.dollars.Captures s name) :
    (literal (.str s)).compile interp = .ok (.sibling name) := by
  rw [compile, compileString_eq, h.leading?_eq]
  rfl

/-- A reference among schemas is a reference among their matchers. -/
theorem sibling_mem_of_captures {s name : String}
    (h : List.Forall₂ (fun s m => s.compile interp = .ok m) schemas matchers)
    (hs : literal (.str s) ∈ schemas) (hname : OperatorRule.dollars.Captures s name) :
    .sibling name ∈ matchers := by
  obtain ⟨⟨i, hi⟩, hget⟩ := List.mem_iff_get.mp hs
  have hi' : i < matchers.length := by rwa [← h.length_eq]
  have hm := h.get hi hi'
  rw [hget, compile_of_captures hname] at hm
  rw [Except.ok.inj hm]
  exact List.get_mem _ _

/-- Joining no schemas is an error, and joining some fails as the first of them does that fails.
Otherwise their matchers are joined in order, in the way of a chain of tests; and an array of the
schemas asks every item for all of them, which no item meets if one is a reference. -/
theorem compileAll_joins (interp : Interpretation) (glue : Glue) (schemas : List Schema) :
    compileAll interp glue [] = .error (.compose .emptyList) ∧
    (schemas ≠ [] → ∀ e, compileAll interp glue schemas = .error e ↔
      ∃ before s after, schemas = before ++ s :: after ∧ (∀ t ∈ before, t.Compiles interp) ∧
        s.compile interp = .error e) ∧
    (schemas ≠ [] → (∀ s ∈ schemas, s.Compiles interp) → ∃ first rest,
      List.Forall₂ (fun s m => s.compile interp = .ok m) schemas (first :: rest) ∧
      (∃ m, compileAll interp glue schemas = .ok m ∧ Matcher.Joins glue first rest m) ∧
      ∃ element, compileElements interp schemas = .ok element ∧
        (array schemas).compile interp = .ok (.array element) ∧
        Matcher.TestsItems (first :: rest) element ∧
        ∀ s name, OperatorRule.dollars.Captures s name → literal (.str s) ∈ schemas →
          ∀ parent xs, (Matcher.array element).judge parent (.arr xs) = xs.isEmpty) := by
  refine ⟨rfl, fun hne e => compileAll_eq_error_iff hne, fun hne hcompiles => ?_⟩
  obtain ⟨first, rest, hmatchers⟩ := exists_matchers hne hcompiles
  have htests := Matcher.testsItems_foldl_join first rest
  refine ⟨first, rest, hmatchers, ⟨_, compileAll_eq_ok hmatchers, ?_⟩, _,
    compileAll_eq_ok hmatchers, compile_array_eq_ok hmatchers, htests, ?_⟩
  · exact Matcher.joins_foldl_join glue first rest
  · intro s name hname hs
    exact htests.judge_arr_of_sibling (sibling_mem_of_captures hmatchers hs hname)

/-- A reference and two tests by neither-nor, which accept numbers within any object; an array of
them, which is empty; and an empty chain before an object with several catch-alls. -/
theorem joins_reference_and_tests :
    let interp : Interpretation := fun c => if c = ⟨0⟩ then Value.isNumber else Value.isString
    let schemas : List Schema := [.literal (.str "$a$"), .capability ⟨0⟩, .capability ⟨1⟩]
    (∀ s ∈ schemas, s.Compiles interp) ∧
    (∃ m, compileAll interp .nor schemas = .ok m ∧
      (∀ parent, m.matchesIn parent (.num (.int 1)) = true ∧ m.matchesIn parent .null = false) ∧
      (Chain.joining .nor ⟨2⟩ [⟨0⟩, ⟨1⟩]).evaluate
        (fun c => if c = ⟨2⟩ then fun _ => false else interp c) (.num (.int 1)) = .ok true) ∧
    (∃ m, (array schemas).compile interp = .ok m ∧
      ∀ parent xs, m.judge parent (.arr xs) = xs.isEmpty) ∧
    compileAll interp .nor [.undefined, .chain (.start (.capability ⟨0⟩)),
      .object [("**", .undefined), ("(**)", .undefined)]] = .error (.compose .notInitialized) := by
  intro interp schemas
  have hname : OperatorRule.dollars.Captures "$a$" "a" := ⟨rfl, by simp, by simp⟩
  have hitems : compileItems interp schemas =
      .ok [.sibling "a", .plain (interp ⟨0⟩), .plain (interp ⟨1⟩)] := by
    refine compileItems_eq_ok_iff.mpr (.cons (compile_of_captures hname) (.cons ?_ (.cons ?_ .nil)))
    · exact compile_eq_compileLeaf rfl
    · exact compile_eq_compileLeaf rfl
  have hcompiles : ∀ s ∈ schemas, s.Compiles interp := exists_compileItems_iff.mp ⟨_, hitems⟩
  obtain ⟨-, -, hjoin⟩ := compileAll_joins interp .nor schemas
  obtain ⟨first, rest, hmatchers, ⟨m, hm, hjoins⟩, element, -, harray, -, hempty⟩ :=
    hjoin (by simp [schemas]) hcompiles
  cases hitems.symm.trans (compileItems_eq_ok_iff.mpr hmatchers)
  have halone : m.matchesAlone (.num (.int 1)) = true ∧ m.matchesAlone .null = false := by
    rw [hjoins.fold, hjoins.fold]
    exact ⟨rfl, rfl⟩
  refine ⟨hcompiles, ⟨m, hm, fun parent => ?_, ?_⟩, ⟨_, harray, ?_⟩, ?_⟩
  · rw [hjoins.within (by simp), hjoins.within (by simp)]
    exact halone
  · have htests := hjoins.chain (by simp) (fun c => if c = ⟨2⟩ then fun _ => false else interp c)
      ⟨2⟩ [⟨0⟩, ⟨1⟩] (.cons rfl (.cons rfl (.cons rfl .nil)))
    rw [htests, halone.1]
  · exact hempty "$a$" "a" hname (by simp [schemas])
  · refine ((compileAll_joins interp .nor _).2.1 (by simp) _).mpr ⟨[.undefined], _, _, rfl, ?_, rfl⟩
    simpa using ⟨_, compile_eq_compileLeaf rfl⟩

end Schema

end ShapeMatch
