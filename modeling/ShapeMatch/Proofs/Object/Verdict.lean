import ShapeMatch.Compile
import ShapeMatch.Proofs.Object.Reconciliation

/-!
# The verdict on an object

An object is accepted by its rules exactly when it can be reconciled with them. Reconciling is an
account of fields, and the tests of keys that come after it are an account of names; the two agree.
The counts are those of the fields that some rule names and of the others.

## Main definitions

* `ObjectRules.names`: whether some rule is on the field of a name.

## Main statements

* `ObjectRules.judge_iff_reconciles`: the verdict on an object, and how many fields are claimed.
-/

namespace ShapeMatch

namespace ObjectRules

variable {α : Type} {rules : ObjectRules α} {o : Object}

/-- Whether some rule is on the field of this name. -/
def names (rules : ObjectRules α) (key : String) : Bool :=
  rules.tests.any fun t => t.scope == .bound && t.key.accepts key

theorem names_iff_mem_boundKeys {key : String} :
    rules.names key = true ↔ key ∈ rules.boundKeys := by
  rw [names, List.any_eq_true, boundKeys, List.mem_map]
  constructor
  · rintro ⟨t, ht, hkey⟩
    obtain ⟨hscope, hkey⟩ := Bool.and_eq_true_iff.mp hkey
    rcases mem_tests_iff.mp ht with ⟨r, hr, rfl⟩ | ⟨-, -, r, -, rfl⟩ | ⟨r, -, rfl⟩
    · exact ⟨r, hr, eq_of_beq hkey⟩
    · cases hscope
    · cases hscope
  · rintro ⟨r, hr, rfl⟩
    exact ⟨r.toTest, mem_tests_iff.mpr (.inl ⟨r, hr, rfl⟩),
      by simp [FieldRule.toTest, KeyRule.accepts]⟩

/-- The fields that no rule names can be counted by their keys. -/
theorem length_unnamed (rules : ObjectRules α) (o : Object) :
    (rules.unnamed o).length = o.keys.countP (!rules.names ·) := by
  rw [unnamed, ← List.countP_eq_length_filter, Object.keys, List.countP_map]
  apply List.countP_congr
  intro field _
  simp [← names_iff_mem_boundKeys]

/-- An object is accepted exactly when it can be reconciled with its rules: that the required keys
are there, that there are no others without wildcards, and that there is a field at all if a rule
is required, holds by then. As many fields are claimed by name as rules name, and all others are
claimed by wildcards or the catch-all. -/
theorem judge_iff_reconciles (rules : ObjectRules Matcher) :
    (∀ parent v, (Matcher.object rules).judge parent v = true ↔
      ∃ o claimed, v = .obj o ∧ (rules.within o).reconcile o = .ok claimed) ∧
    ∀ o claimed, (rules.within o).reconcile o = .ok claimed →
      (rules.within o).keysAgree o.keys = true ∧
      ((rules.within o).tests.any Test.isRequired = true → o ≠ []) ∧
      claimed.bound = o.keys.countP rules.names ∧
      claimed.free = o.keys.countP (!rules.names ·) ∧
      claimed.bound + claimed.free = o.length := by
  constructor
  · intro parent v
    rw [Matcher.judge_object]
    cases v with
    | obj o => simp [acceptsObject_eq_isOk, isOk_iff]
    | _ => simp
  · intro o claimed hclaimed
    obtain ⟨-, hmet, hshare, hcounts⟩ := reconcile_eq_ok_iff.mp hclaimed
    rw [within, unnamed_map, length_unnamed] at hcounts
    have hkeys : o.length = o.keys.countP rules.names + o.keys.countP (!rules.names ·) := by
      simpa [Object.keys] using List.length_eq_countP_add_countP rules.names (l := o.keys)
    have hbound : claimed.bound = o.keys.countP rules.names := by
      rw [hcounts]
      exact Nat.sub_eq_of_eq_add hkeys
    have hfree : claimed.free = o.keys.countP (!rules.names ·) := by rw [hcounts]
    exact ⟨keysAgree_of_shareable hmet hshare, ne_nil_of_shareable hmet hshare, hbound, hfree,
      by rw [hbound, hfree, hkeys]⟩

/-- With `a` required twice, an absent optional `z` and a wildcard, an object of two fields is
accepted: one field is claimed by name and one by the wildcard. -/
theorem judge_of_repeated_name :
    ∃ rules, Schema.compileRules (fun _ _ => true) [("a", .literal (.num (.int 1))),
        ("a", .literal (.str "*")), ("(z)", .literal .null), ("*", .literal (.str "$a$"))] =
          .ok rules ∧
      let o : Object := [("a", .num (.int 1)), ("x", .num (.int 1))]
      (rules.within o).reconcile o = .ok ⟨1, 1⟩ ∧
        (∀ parent, (Matcher.object rules).judge parent (.obj o) = true) ∧
        o.keys.countP rules.names = 1 ∧ o.keys.countP (!rules.names ·) = 1 := by
  let o : Object := [("a", .num (.int 1)), ("x", .num (.int 1))]
  have hrun : ((Schema.compileRules (fun _ _ => true) [("a", .literal (.num (.int 1))),
      ("a", .literal (.str "*")), ("(z)", .literal .null),
      ("*", .literal (.str "$a$"))]).toOption.any fun rules =>
        ((rules.within o).reconcile o).toOption == some ⟨1, 1⟩) = true := by
    decide +kernel
  obtain ⟨rules, hrules, hok⟩ := (Option.any_eq_true _ _).1 hrun
  rw [toOption_eq_some_iff] at hrules
  have hclaimed : (rules.within o).reconcile o = .ok ⟨1, 1⟩ :=
    toOption_eq_some_iff.mp (by simpa using hok)
  obtain ⟨hverdict, hcounts⟩ := judge_iff_reconciles rules
  obtain ⟨-, -, hbound, hfree, -⟩ := hcounts o _ hclaimed
  exact ⟨rules, hrules, hclaimed, fun parent => (hverdict parent _).mpr ⟨o, _, rfl, hclaimed⟩,
    hbound.symm, hfree.symm⟩

end ObjectRules

end ShapeMatch
