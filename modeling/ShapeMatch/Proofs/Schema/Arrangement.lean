import ShapeMatch.Proofs.Object.Arrangement
import ShapeMatch.Proofs.Schema.Predicate

/-!
# The rules of an object schema

Rules hold one test for each entry of their schema, which has the key of the entry as its source,
the matcher of the entry's schema and the row of the key in the table of keys. Denoting one
predicate is an equivalence, so comparing a wildcard with the first of each group is comparing it
with all of them: the groups are the classes of wildcards whose schemas denote one predicate.

## Main definitions

* `Schema.IsTestOf`: the test that an entry of an object schema makes.

## Main statements

* `Schema.compileRules_arranges`: rules hold the tests of their entries, and group the wildcards.
-/

namespace ShapeMatch

namespace Schema

variable {interp : Interpretation} {entries : List (String × Schema)}

/-- The test that an entry of an object schema makes: its source is the key, its value the matcher
of the schema, and the rest the row of the key in the table. -/
structure IsTestOf (interp : Interpretation) (e : String × Schema) (t : Test Matcher) : Prop where
  source : t.source = e.1
  value : e.2.compile interp = .ok t.value
  row : ∀ {scope : Scope} {rule : KeyRule} {freedom : Freedom} {cost : Nat},
    KeyTable e.1 scope rule freedom cost ↔
      t.scope = scope ∧ t.key = rule ∧ t.freedom = freedom ∧ t.cost = cost

theorem isTestOf_toTest {e : Entry Matcher} (h : e.schema.compile interp = .ok e.value) :
    IsTestOf interp (e.key, e.schema) e.toTest := by
  have hparts : e.toTest.source = e.key ∧ e.toTest.value = e.value := by
    unfold Entry.toTest KeyPattern.toTest
    cases e.pattern.target <;> exact ⟨rfl, rfl⟩
  refine ⟨hparts.1, ?_, KeyPattern.keyTable_iff_toTest_ofKey rfl⟩
  rw [hparts.2, h]

/-- Compiled entries stand at the positions of the entries they come from. -/
theorem exists_entry_of_compileEntries {compiled : List (Entry Matcher)}
    (h : compileEntries interp entries = .ok compiled) :
    ∃ entry : Fin entries.length → Entry Matcher,
      (List.finRange entries.length).map entry = compiled ∧
        ∀ i, ((entry i).key, (entry i).schema) = entries.get i ∧
          (entry i).schema.compile interp = .ok (entry i).value := by
  obtain ⟨rfl, hvalues⟩ := compileEntries_eq_ok_iff.mp h
  have hlength : (compiled.map fun e => (e.key, e.schema)).length = compiled.length :=
    List.length_map _
  refine ⟨fun i => compiled.get (i.cast hlength), ?_, fun i => ⟨by simp, hvalues _ ?_⟩⟩
  · exact List.ext_getElem (by simp) (by simp)
  · exact List.get_mem _ _

/-- Denoting one predicate is an equivalence of schemas, and rules arrange the tests of their
entries with the wildcards whose schemas denote one predicate as groups. -/
theorem compileRules_arranges {rules : ObjectRules Matcher}
    (hwf : ∀ e ∈ entries, e.2.WellFormed) (hrules : compileRules interp entries = .ok rules) :
    (Equivalence fun s t : {s : Schema // s.WellFormed} => s.1.samePredicate t.1 = true) ∧
      ∃ (test : Fin entries.length → Test Matcher) (classes : List (List (Fin entries.length))),
        (∀ i, IsTestOf interp (entries.get i) (test i)) ∧
          Arranges test rules
            (fun i j => (entries.get i).2.samePredicate (entries.get j).2) classes := by
  obtain ⟨compiled, hcompiled, hrules⟩ := bind_eq_ok.mp hrules
  obtain ⟨entry, rfl, hentry⟩ := exists_entry_of_compileEntries hcompiled
  have hschema : ∀ i, (entry i).schema = (entries.get i).2 := by
    intro i
    rw [← (hentry i).1]
  have hsame : Equivalence fun i j => (entry i).schema.samePredicate (entry j).schema = true := by
    -- positions compare as their schemas do, all of which are well-formed
    let schema (i : Fin entries.length) : {s : Schema // s.WellFormed} :=
      ⟨(entry i).schema, by rw [hschema i]; exact hwf _ (List.get_mem _ _)⟩
    exact samePredicate_equivalence.comap schema
  obtain ⟨classes, harranges⟩ := arranges_ofEntries hrules hsame
  refine ⟨samePredicate_equivalence, fun i => (entry i).toTest, classes, fun i => ?_, ?_⟩
  · rw [← (hentry i).1]
    exact isTestOf_toTest (hentry i).2
  · simpa only [hschema] using harranges

/-- Wildcards of two zeros form one group around one of another predicate, whatever stands between
them. -/
theorem arranges_two_groups :
    let entries : List (String × Schema) :=
      [("*", .literal (.num (.int 0))), ("a", .literal .null), ("(**)", .undefined),
        ("*x*", .capability ⟨0⟩), ("(*)", .literal (.num (.float ⟨true, ⟨0, by decide⟩⟩))),
        ("(b)", .literal (.str "$a$"))]
    (∀ e ∈ entries, e.2.WellFormed) ∧
      ∃ rules, compileRules (fun _ _ => true) entries = .ok rules ∧
        rules.tests.map Test.source = ["a", "(b)", "*", "(*)", "*x*", "(**)"] ∧
        ∃ (test : Fin entries.length → Test Matcher) (classes : List (List (Fin entries.length))),
          (∀ i, IsTestOf (fun _ _ => true) (entries.get i) (test i)) ∧
            (arrangement test classes).Perm (List.finRange entries.length) ∧
              classes.map (List.map fun i => (entries.get i).1) = [["*", "(*)"], ["*x*"]] := by
  intro entries
  have hwf : ∀ e ∈ entries, e.2.WellFormed := by decide +kernel
  have hrun : ((compileRules (fun _ _ => true) entries).toOption.any fun rules =>
      decide (rules.tests.map Test.source = ["a", "(b)", "*", "(*)", "*x*", "(**)"] ∧
        rules.groups.map (·.members.map WildcardRule.source) = [["*", "(*)"], ["*x*"]])) = true := by
    decide +kernel
  obtain ⟨rules, hrules, hrun⟩ := (Option.any_eq_true _ _).1 hrun
  obtain ⟨hsources, hgroups⟩ := of_decide_eq_true hrun
  rw [toOption_eq_some_iff] at hrules
  obtain ⟨-, test, classes, htest, harranges⟩ := compileRules_arranges hwf hrules
  refine ⟨hwf, rules, hrules, hsources, test, classes, htest, harranges.complete, ?_⟩
  have hclasses := congrArg (List.map (List.map Test.source)) harranges.groups_eq
  simp only [List.map_map, Function.comp_def, WildcardRule.toTest, (htest _).source] at hclasses
  exact hclasses.symm.trans hgroups

end Schema

end ShapeMatch
