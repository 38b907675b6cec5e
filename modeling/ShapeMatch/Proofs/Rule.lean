import ShapeMatch.Rule

/-!
# Tests and names of rules

What the tests of rules are, and what rules keep when other values are put into them.

## Main statements

* `ObjectRules.mem_tests_iff`: the tests are those of named fields, wildcards and the catch-all.
* `ObjectRules.map_congr_of_tests`: rules are determined by the values of their tests.
-/

namespace ShapeMatch

namespace ObjectRules

variable {α β : Type}

theorem mem_tests_iff {rules : ObjectRules α} {t : Test α} :
    t ∈ rules.tests ↔
      (∃ r ∈ rules.fields, r.toTest = t) ∨
        (∃ g ∈ rules.groups, ∃ r ∈ g.members, r.toTest (.finite 1) = t) ∨
          ∃ r, rules.catchAll = some r ∧ r.toTest .unbounded = t := by
  simp only [tests, List.mem_append, List.mem_map, List.mem_flatMap, Option.mem_toList,
    Option.map_eq_some_iff, or_assoc]

@[simp] theorem boundKeys_map (f : α → β) (rules : ObjectRules α) :
    (rules.map f).boundKeys = rules.boundKeys := by
  simp [boundKeys, ObjectRules.map, FieldRule.map, Function.comp_def]

@[simp] theorem boundCost_map (f : α → β) (rules : ObjectRules α) :
    (rules.map f).boundCost = rules.boundCost := by
  simp [boundCost, ObjectRules.map, FieldRule.map, Function.comp_def, List.countP_map]

/-- Putting other values into rules only depends on the values of their tests. -/
theorem map_congr_of_tests {rules : ObjectRules α} {f g : α → β}
    (h : ∀ t ∈ rules.tests, f t.value = g t.value) : rules.map f = rules.map g := by
  have hrule : ∀ r : WildcardRule α, f r.value = g r.value → r.map f = r.map g := fun r hr => by
    rw [WildcardRule.map, WildcardRule.map, hr]
  rw [ObjectRules.map, ObjectRules.map, mk.injEq]
  refine ⟨List.map_congr_left fun r hr => ?_, List.map_congr_left fun group hgroup => ?_,
    Option.map_congr fun r hr => ?_⟩
  · have hvalue : f r.value = g r.value := h r.toTest (mem_tests_iff.mpr (.inl ⟨r, hr, rfl⟩))
    rw [FieldRule.map, FieldRule.map, hvalue]
  · have hmembers : ∀ r ∈ group.members, f r.value = g r.value := fun r hr =>
      h (r.toTest (.finite 1)) (mem_tests_iff.mpr (.inr (.inl ⟨group, hgroup, r, hr, rfl⟩)))
    obtain ⟨hfirst, hothers⟩ := List.forall_mem_cons.1 hmembers
    rw [WildcardGroup.map, WildcardGroup.map, hrule _ hfirst,
      List.map_congr_left fun r hr => hrule r (hothers r hr)]
  · exact hrule r (h (r.toTest .unbounded) (mem_tests_iff.mpr (.inr (.inr ⟨r, hr, rfl⟩))))

end ObjectRules

end ShapeMatch
