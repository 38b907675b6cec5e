import Mathlib.Algebra.GroupWithZero.Nat
import ShapeMatch.Proofs.Schema.Compile

/-!
# Tests that own their fields

When an object can be reconciled with its rules, every field should belong to one test that accepts
it, and every required test should have a field of its own. This is so exactly when no name is
required twice: fields are looked up in the whole object, and a second rule on a field that another
rule has claimed already passes without claiming anything.

## Main definitions

* `Test.claimant`: a test as a claimant of fields, by key and value.

## Main statements

* `Schema.exists_owner_iff_nodup`: when the fields of a reconciled object can be shared out among
  the tests.
-/

namespace ShapeMatch

/-- A test within an object as a claimant. It accepts a field if it accepts the key and the value,
may have more than one field unless its freedom is one, and must have one if it is required. -/
def Test.claimant (o : Object) (t : Test Matcher) : Claimant where
  accepts field := t.key.accepts field.1 = true ∧ t.value.matchesIn o field.2 = true
  required := t.isRequired
  unbounded := t.freedom ≠ .finite 1

namespace ObjectRules

variable {entries : List (Entry Matcher)} {rules : ObjectRules Matcher} {o : Object}

theorem claimant_toTest_wildcard (o : Object) (unbounded : Bool) (r : WildcardRule Matcher) :
    (r.toTest (if unbounded then .unbounded else .finite 1)).claimant o =
      r.claimant (fun m => m.judge (some o)) unbounded := by
  cases hr : r.optional <;> cases unbounded <;>
    simp [Test.claimant, WildcardRule.toTest, WildcardRule.claimant, KeyRule.accepts,
      Test.isRequired, WildcardRule.cost, costOf, hr, Matcher.matchesIn]

/-- Tests claim what the rules on named fields do and what the wildcards and the catch-all do. -/
theorem map_claimant_tests (rules : ObjectRules Matcher) (o : Object) :
    rules.tests.map (Test.claimant o) =
      rules.fields.map (fun r => r.toTest.claimant o) ++
        ((rules.groups.flatMap WildcardGroup.members).map
            (WildcardRule.claimant (fun m => m.judge (some o)) false) ++
          rules.catchAll.toList.map (WildcardRule.claimant (fun m => m.judge (some o)) true)) := by
  have hwildcard : ∀ r : WildcardRule Matcher, (r.toTest (.finite 1)).claimant o = _ :=
    claimant_toTest_wildcard o false
  have hcatchAll : ∀ r : WildcardRule Matcher, (r.toTest .unbounded).claimant o = _ :=
    claimant_toTest_wildcard o true
  simp [tests, List.map_flatMap, Function.comp_def, hwildcard, hcatchAll, Option.toList_map]

theorem nodup_requiredKeys_iff {α : Type} {rules : ObjectRules α} :
    rules.requiredKeys.Nodup ↔
      rules.fields.Pairwise fun r s => 0 < r.cost → 0 < s.cost → r.name ≠ s.name := by
  rw [requiredKeys, List.Nodup, List.pairwise_map, List.pairwise_filter]
  simp

theorem required_claimant_toTest {o : Object} {r : FieldRule Matcher} :
    (r.toTest.claimant o).required = true ↔ 0 < r.cost :=
  decide_eq_true_iff

theorem accepts_claimant_toTest {o : Object} {r : FieldRule Matcher} {field : String × Value} :
    (r.toTest.claimant o).accepts field ↔ field.1 = r.name ∧ r.value.matchesIn o field.2 = true :=
  and_congr_left' (beq_iff_eq.trans eq_comm)

/-- If the fields of an object are shared out among the tests, no name is required twice. -/
theorem nodup_requiredKeys_of_shareable (hnodup : o.keys.Nodup)
    (h : Shareable (rules.tests.map (Test.claimant o)) o) : rules.requiredKeys.Nodup := by
  rw [map_claimant_tests] at h
  rw [nodup_requiredKeys_iff, List.pairwise_iff_getElem]
  intro i j hi hj hlt hri hrj hname
  have heq := h.eq_of_name hnodup rules.fields[i].name ⟨i, by simp; omega⟩ ⟨j, by simp; omega⟩
    (by simpa [hi, required_claimant_toTest] using hri)
    (by simpa [hj, required_claimant_toTest] using hrj)
    (by simpa [hi, accepts_claimant_toTest] using fun _ _ hkey _ => hkey)
    (by simpa [hj, accepts_claimant_toTest, hname] using fun _ _ hkey _ => hkey)
  have hij : i = j := congrArg Fin.val heq
  omega

/-- If no name is required twice, the named fields of an object that meets the rules on them are
shared out among these rules. -/
theorem shareable_named (hnodup : o.keys.Nodup) (hrequired : rules.requiredKeys.Nodup)
    (hmet : ∀ r ∈ (rules.within o).fields, r.demand.MetBy o) :
    Shareable (rules.fields.map fun r => r.toTest.claimant o)
      (o.filter fun field => field.1 ∈ rules.boundKeys) := by
  have hnodup' : (Object.keys (o.filter fun field => field.1 ∈ rules.boundKeys)).Nodup :=
    hnodup.sublist (List.filter_sublist.map _)
  have hmet' : ∀ r ∈ rules.fields, ((r.map fun m => m.judge (some o)).demand).MetBy o :=
    fun r hr => hmet _ (List.mem_map_of_mem hr)
  refine shareable_of_names FieldRule.name hnodup' ?_ ?_ ?_ ?_
  · intro r hr field hfield hkey
    have hget : o.get? r.name = some field.2 := by
      rw [← hkey]
      exact (Object.get?_eq_some_iff hnodup).2 (List.mem_of_mem_filter hfield)
    have haccepts := FieldRule.metBy_demand_iff.mp (hmet' r hr)
    simp only [FieldRule.map, hget] at haccepts
    exact accepts_claimant_toTest.2 ⟨hkey, haccepts⟩
  · intro field hfield
    have hbound : field.1 ∈ rules.boundKeys := by simpa using (List.mem_filter.mp hfield).2
    exact List.mem_map.mp hbound
  · intro r hr hrequired
    rw [required_claimant_toTest] at hrequired
    have hkey := mem_keys_of_requiredName? (hmet' r hr) (requiredName?_demand hrequired)
    obtain ⟨field, hfield, hname⟩ := List.mem_map.mp hkey
    have hbound : field.1 ∈ rules.boundKeys := by
      rw [hname]
      exact List.mem_map_of_mem hr
    exact List.mem_map.mpr ⟨field, List.mem_filter.mpr ⟨hfield, decide_eq_true hbound⟩, hname⟩
  · refine (nodup_requiredKeys_iff.mp hrequired).imp ?_
    rintro r s h ⟨hr, hs, hname⟩
    exact h (required_claimant_toTest.mp hr) (required_claimant_toTest.mp hs) hname

/-- The fields of a reconciled object can be shared out among the tests exactly when no name is
required twice, provided schemas that denote one predicate are tested alike. -/
theorem shareable_tests_iff_nodup (hrules : ofEntries entries = .ok rules)
    (htest : ∀ d ∈ entries, ∀ e ∈ entries, d.schema.samePredicate e.schema = true →
      d.value.judge (some o) = e.value.judge (some o))
    (hnodup : o.keys.Nodup) {claimed : Claimed} (hok : (rules.within o).reconcile o = .ok claimed) :
    Shareable (rules.tests.map (Test.claimant o)) o ↔ rules.requiredKeys.Nodup := by
  refine ⟨nodup_requiredKeys_of_shareable hnodup, ?_⟩
  intro hrequired
  obtain ⟨-, hmet, hshare, -⟩ := reconcile_eq_ok_iff.mp hok
  rw [within, claimants_map_eq hrules htest, unnamed_map] at hshare
  rw [map_claimant_tests]
  refine (shareable_perm_fields ?_).1 ((shareable_named hnodup hrequired hmet).append hshare)
  simpa [unnamed] using List.filter_append_perm (fun field => decide (field.1 ∈ rules.boundKeys)) o

/-- A test costs one field if it is required, and none otherwise. -/
theorem cost_eq_of_mem_tests {t : Test Matcher} (ht : t ∈ rules.tests) :
    t.cost = if t.isRequired then 1 else 0 := by
  have hcost : ∀ optional, costOf optional = if decide (0 < costOf optional) then 1 else 0 := by
    decide
  rcases mem_tests_iff.mp ht with ⟨r, -, rfl⟩ | ⟨-, -, r, -, rfl⟩ | ⟨r, -, rfl⟩
  all_goals exact hcost r.optional

/-- The tests cost as many fields as there are required ones among them. -/
theorem sum_cost_tests (rules : ObjectRules Matcher) (o : Object) :
    (rules.tests.map Test.cost).sum =
      (rules.tests.map (Test.claimant o)).countP (·.required) := by
  have hsum : ∀ ts : List (Test Matcher), (∀ t ∈ ts, t.cost = if t.isRequired then 1 else 0) →
      (ts.map Test.cost).sum = ts.countP Test.isRequired := by
    intro ts
    induction ts with
    | nil => simp
    | cons t ts ih =>
      intro hts
      obtain ⟨ht, hts⟩ := List.forall_mem_cons.1 hts
      rw [List.map_cons, List.sum_cons, List.countP_cons, ih hts, ht, Nat.add_comm]
  rw [hsum _ fun t ht => cost_eq_of_mem_tests ht, List.countP_map]
  rfl

end ObjectRules

namespace Schema

variable {interp : Interpretation} {entries : List (String × Schema)} {rules : ObjectRules Matcher}

/-- When an object is reconciled with the rules of an object schema, each of its fields can be
given to one test that accepts its key and its value, so that no test of freedom one has two and
every required test has one, exactly when no name is required twice. All fields are counted as
claimed, and then suffice for what the tests cost. -/
theorem exists_owner_iff_nodup (hrules : compileRules interp entries = .ok rules) {o : Object}
    (ho : o.Sorted) {claimed : Claimed} (hok : (rules.within o).reconcile o = .ok claimed) :
    ((∃ owner, Shares (rules.tests.map (Test.claimant o)) o owner) ↔ rules.requiredKeys.Nodup) ∧
      claimed.bound + claimed.free = o.length ∧
      (rules.requiredKeys.Nodup →
        (rules.tests.map Test.cost).sum ≤ claimed.bound + claimed.free) := by
  obtain ⟨compiled, hentries, hcompiled⟩ := bind_eq_ok.1 hrules
  obtain ⟨rfl, hvalues⟩ := compileEntries_eq_ok_iff.mp hentries
  have hiff := ObjectRules.shareable_tests_iff_nodup hcompiled (fun d hd e he hsame =>
    judge_eq_of_samePredicate (hvalues d hd) (hvalues e he) hsame _) ho.nodup_keys hok
  have hcounts : claimed.bound + claimed.free = o.length := by
    obtain ⟨-, -, -, rfl⟩ := ObjectRules.reconcile_eq_ok_iff.mp hok
    exact Nat.sub_add_cancel (List.length_filter_le _ _)
  refine ⟨hiff, hcounts, ?_⟩
  intro hrequired
  rw [hcounts, ObjectRules.sum_cost_tests rules o]
  exact (hiff.2 hrequired).countP_required_le

/-- With `a` required twice and a wildcard, an object of two fields is reconciled although the tests
cost three: no field is left for the second `a`. -/
theorem not_exists_owner_of_repeated_name :
    ∃ rules, compileRules (fun _ _ => true) [("a", .literal (.num (.int 1))),
        ("a", .literal (.num (.int 1))), ("*", .literal (.str "*"))] = .ok rules ∧
      let o : Object := [("a", .num (.int 1)), ("x", .num (.int 2))]
      (rules.within o).reconcile o = .ok ⟨1, 1⟩ ∧
        (¬ ∃ owner, Shares (rules.tests.map (Test.claimant o)) o owner) ∧
        (rules.tests.map Test.cost).sum = 3 := by
  have hrun : ((compileRules (fun _ _ => true) [("a", .literal (.num (.int 1))),
      ("a", .literal (.num (.int 1))), ("*", .literal (.str "*"))]).toOption.any fun rules =>
        let o : Object := [("a", .num (.int 1)), ("x", .num (.int 2))]
        decide (((rules.within o).reconcile o).toOption = some ⟨1, 1⟩ ∧
          ¬ rules.requiredKeys.Nodup ∧ (rules.tests.map Test.cost).sum = 3)) = true := by
    decide +kernel
  obtain ⟨rules, hrules, h⟩ := (Option.any_eq_true _ _).1 hrun
  rw [toOption_eq_some_iff] at hrules
  obtain ⟨hok, hrepeated, hcost⟩ := of_decide_eq_true h
  rw [toOption_eq_some_iff] at hok
  have howner := exists_owner_iff_nodup hrules (by decide +kernel) hok
  exact ⟨rules, hrules, hok, mt howner.1.1 hrepeated, hcost⟩

end Schema

end ShapeMatch
