import ShapeMatch.Proofs.KeyTable
import ShapeMatch.Proofs.Schema.Joining

/-!
# Fields by name

A field is made optional by parentheses around its name, and is referred to by its name between
dollar signs. A name without operators can be wrapped in both ways, unless it has a line feed: then
neither operator applies, the key names a field that is spelt with the parentheses, and the string
stands for itself.

## Main definitions

* `Schema.MakesFieldTest`: entries with a key make tests of one named field.

## Main statements

* `OperatorRule.captures_parentheses_iff`, `OperatorRule.captures_dollars_iff`: the rule that
  applies to a wrapped name.
* `Schema.wrapped_name_iff_no_line_feed`: when a name can be made optional and referred to.
-/

namespace ShapeMatch

variable {name inner key : String}

/-! ## Wrapped names -/

namespace OperatorRule

variable {r : OperatorRule}

/-- Only one rule can apply to a name in parentheses. -/
theorem captures_parentheses_iff :
    r.Captures ("(" ++ name ++ ")") inner ↔
      r = .parentheses ∧ inner = name ∧ name ≠ "" ∧ '\n' ∉ name.toList := by
  constructor
  · intro h
    cases r with
    | parentheses =>
      obtain ⟨htext, hne, hline⟩ := h
      obtain rfl : inner = name := by simpa using htext.symm
      exact ⟨rfl, rfl, hne, hline⟩
    | _ => simp [Captures, ← String.toList_inj, -String.toList_eq_nil_iff] at h
  · rintro ⟨rfl, rfl, hne, hline⟩
    exact ⟨rfl, hne, hline⟩

/-- Only one rule can apply to a name between dollar signs. -/
theorem captures_dollars_iff :
    r.Captures ("$" ++ name ++ "$") inner ↔
      r = .dollars ∧ inner = name ∧ name ≠ "" ∧ '\n' ∉ name.toList := by
  constructor
  · intro h
    cases r with
    | dollars =>
      obtain ⟨htext, hne, hline⟩ := h
      obtain rfl : inner = name := by simpa using htext.symm
      exact ⟨rfl, rfl, hne, hline⟩
    | _ => simp [Captures, ← String.toList_inj, -String.toList_eq_nil_iff] at h
  · rintro ⟨rfl, rfl, hne, hline⟩
    exact ⟨rfl, hne, hline⟩

end OperatorRule

theorem leading?_eq_none_iff {s : String} :
    leading? s = none ↔ ∀ (r : OperatorRule) (name : String), ¬ r.Captures s name := by
  constructor
  · intro h r name hr
    cases h.symm.trans hr.leading?_eq
  · intro h
    rcases leading?_cases s with ⟨hnone, -⟩ | ⟨r, name, hr, -⟩
    · exact hnone
    · exact absurd hr (h r name)

theorem siblingName?_of_captures {s : String} (h : OperatorRule.dollars.Captures s name) :
    siblingName? s = some name := by
  rw [siblingName?, h.leading?_eq]
  rfl

/-! ## Optional names -/

namespace KeyPattern

/-- A name without operators in parentheses is optional, and loses the parentheses. -/
theorem ofKey_parenthesized_name (hne : name ≠ "") (hline : '\n' ∉ name.toList)
    (hplain : recognize name = []) : ofKey ("(" ++ name ++ ")") = ⟨true, .field name⟩ := by
  have hleading : leading? name = none := by rw [leading?, hplain, List.head?_nil]
  have hcaptures := OperatorRule.captures_parentheses_iff.mpr ⟨rfl, rfl, hne, hline⟩
  rw [ofKey_of_captures hcaptures, targetOf_field]
  intro r inner hr
  exact absurd hr (leading?_eq_none_iff.mp hleading r inner)

/-- Parentheses are part of a name with a line feed, which must be there then. -/
theorem ofKey_parenthesized_line_feed (hline : '\n' ∈ name.toList) :
    ofKey ("(" ++ name ++ ")") = ⟨false, .field ("(" ++ name ++ ")")⟩ := by
  have hnone : ∀ (r : OperatorRule) (inner : String), ¬ r.Captures ("(" ++ name ++ ")") inner := by
    intro r inner hr
    exact (OperatorRule.captures_parentheses_iff.mp hr).2.2.2 hline
  rw [ofKey_of_not_captures (hnone .parentheses), targetOf_field]
  intro r inner hr
  exact absurd hr (hnone r inner)

end KeyPattern

namespace Schema

/-- Every entry with this key makes a test of the field of this name, with the matcher of its
schema. The test costs as many fields as given. -/
def MakesFieldTest (key name : String) (cost : Nat) : Prop :=
  ∀ (interp : Interpretation) (entries : List (String × Schema)) (rules : ObjectRules Matcher),
    compileRules interp entries = .ok rules → ∀ s, (key, s) ∈ entries →
      ∃ m, s.compile interp = .ok m ∧
        (⟨.bound, .exact name, m, .finite 1, cost, key⟩ : Test Matcher) ∈ rules.tests

theorem makesFieldTest_of_ofKey {optional : Bool}
    (h : KeyPattern.ofKey key = ⟨optional, .field name⟩) :
    MakesFieldTest key name (costOf optional) := by
  intro interp entries rules hrun s hs
  obtain ⟨compiled, hcompiled, hrules⟩ := bind_eq_ok.1 hrun
  obtain ⟨rfl, hvalues⟩ := compileEntries_eq_ok_iff.mp hcompiled
  obtain ⟨-, rfl⟩ := ObjectRules.ofEntries_eq_ok_iff.mp hrules
  obtain ⟨e, he, heq⟩ := List.mem_map.mp hs
  obtain ⟨rfl, rfl⟩ := Prod.mk.inj heq
  have hrule : e.fieldRule? = some ⟨name, optional, e.key, e.value⟩ := by
    rw [Entry.fieldRule?, Entry.pattern, h]
  have hmem := List.mem_filterMap.mpr ⟨e, he, hrule⟩
  exact ⟨e.value, hvalues e he, ObjectRules.mem_tests_iff.mpr (.inl ⟨_, hmem, rfl⟩)⟩

/-- A string to which no rule applies is compared as it stands. -/
theorem compile_of_leading?_eq_none {interp : Interpretation} {s : String}
    (h : leading? s = none) :
    (ofString s).compile interp = .ok (.plain fun v => v.deepEqual (.str s)) := by
  rw [ofString, compile, compileString_eq, h]

/-- A name without operators can be made optional by parentheses, and referred to between dollar
signs, when it has no line feed. With a line feed, a key in parentheses requires the field whose
name is spelt with them, and a string between dollar signs stands for itself. -/
theorem wrapped_name_iff_no_line_feed (hne : name ≠ "") (hplain : recognize name = []) :
    ('\n' ∉ name.toList →
      MakesFieldTest ("(" ++ name ++ ")") name 0 ∧
      siblingName? ("$" ++ name ++ "$") = some name ∧
      ∀ interp, (ofString ("$" ++ name ++ "$")).compile interp = .ok (.sibling name)) ∧
    ('\n' ∈ name.toList →
      MakesFieldTest ("(" ++ name ++ ")") ("(" ++ name ++ ")") 1 ∧
      siblingName? ("$" ++ name ++ "$") = none ∧
      ∀ interp, (ofString ("$" ++ name ++ "$")).compile interp =
        .ok (.plain fun v => v.deepEqual (.str ("$" ++ name ++ "$")))) := by
  constructor
  · intro hline
    have hcaptures := OperatorRule.captures_dollars_iff.mpr ⟨rfl, rfl, hne, hline⟩
    refine ⟨?_, siblingName?_of_captures hcaptures, fun _ => compile_of_captures hcaptures⟩
    exact makesFieldTest_of_ofKey (KeyPattern.ofKey_parenthesized_name hne hline hplain)
  · intro hline
    have hleading : leading? ("$" ++ name ++ "$") = none := by
      refine leading?_eq_none_iff.mpr fun r inner hr => ?_
      exact (OperatorRule.captures_dollars_iff.mp hr).2.2.2 hline
    refine ⟨?_, ?_, fun _ => compile_of_leading?_eq_none hleading⟩
    · exact makesFieldTest_of_ofKey (KeyPattern.ofKey_parenthesized_line_feed hline)
    · rw [siblingName?, hleading]
      rfl

/-- The optional field `(a` refers to itself, an optional field of two lines is a required one. -/
theorem wrapped_names_of_one_and_two_lines :
    (recognize "(a" = [] ∧ recognize "a\nb" = []) ∧
    ∃ rules, compileRules (fun _ _ => true)
        [("((a)", ofString "$(a$"), ("(a\nb)", ofString "$a\nb$")] = .ok rules ∧
      ⟨.bound, .exact "(a", .sibling "(a", .finite 1, 0, "((a)"⟩ ∈ rules.tests ∧
      ⟨.bound, .exact "(a\nb)", .plain fun v => v.deepEqual (.str "$a\nb$"), .finite 1, 1,
        "(a\nb)"⟩ ∈ rules.tests := by
  have hplain : recognize "(a" = [] ∧ recognize "a\nb" = [] := by decide +kernel
  have hrun : (compileRules (fun _ _ => true)
      [("((a)", ofString "$(a$"), ("(a\nb)", ofString "$a\nb$")]).toOption.isSome = true := by
    decide +kernel
  obtain ⟨rules, hrules⟩ := Option.isSome_iff_exists.mp hrun
  rw [toOption_eq_some_iff] at hrules
  obtain ⟨hoptional, -, hsibling⟩ :=
    (wrapped_name_iff_no_line_feed (by decide) hplain.1).1 (by decide)
  obtain ⟨hrequired, -, hliteral⟩ :=
    (wrapped_name_iff_no_line_feed (by decide) hplain.2).2 (by decide)
  obtain ⟨m, hm, hone⟩ := hoptional _ _ _ hrules (ofString "$(a$") (by simp)
  obtain rfl : Matcher.sibling "(a" = m := by simpa using (hsibling _).symm.trans hm
  obtain ⟨m, hm, htwo⟩ := hrequired _ _ _ hrules (ofString "$a\nb$") (by simp)
  obtain rfl := Except.ok.inj ((hliteral _).symm.trans hm)
  exact ⟨hplain, rules, hrules, hone, htwo⟩

end Schema

end ShapeMatch
