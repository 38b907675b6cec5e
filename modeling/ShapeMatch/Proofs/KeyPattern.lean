import Mathlib.Data.List.Basic
import ShapeMatch.Rule

/-!
# What keys say

The patterns of keys by the text of the key: which keys are catch-alls, and what parentheses do to
a key.

## Main statements

* `KeyPattern.target_ofKey_eq_catchAll_iff`: the catch-alls are `**` and `(**)`.
* `KeyPattern.eq_of_ofKey_eq`: a key that requires a field is the name of this field.
* `KeyPattern.ofKey_parenthesized`: parentheses make a key optional and keep what it is about.
* `KeyPattern.ofKey_optional_wildcard`: the optional wildcards with a label.
-/

namespace ShapeMatch

/-! ## Operators -/

theorem OperatorForm.capture?_exactly_eq_some_iff {text cs name : List Char} :
    (exactly text).capture? cs = some name ↔ cs = text ∧ name = [] := by
  by_cases h : cs = text <;> simp [capture?, h, eq_comm]

theorem OperatorForm.capture?_around_eq_some_iff {opening closing : Char} {inside : Char → Bool}
    {cs name : List Char} :
    (around opening closing inside).capture? cs = some name ↔
      cs = opening :: (name ++ [closing]) ∧ name ≠ [] ∧ ∀ c ∈ name, inside c = true := by
  cases cs with
  | nil => simp [capture?]
  | cons first rest =>
    simp only [capture?, Option.ite_none_right_eq_some, Option.some.injEq, List.all_eq_true,
      List.cons.injEq]
    constructor
    · rintro ⟨⟨rfl, hlast, hne, hinside⟩, rfl⟩
      exact ⟨⟨rfl, (List.dropLast_append_getLast? _ hlast).symm⟩, hne, hinside⟩
    · rintro ⟨⟨rfl, rfl⟩, hne, hinside⟩
      simpa [hne] using hinside

/-- A text of some form is recognized as the operator of the first such form. -/
theorem exists_form_of_recognizeOnce {cs name : List Char} {op : Operator}
    (h : recognizeOnce cs = some (op, name)) :
    ∃ form, (op, form) ∈ operatorForms ∧ form.capture? cs = some name := by
  obtain ⟨⟨op', form⟩, hmem, hform⟩ := List.exists_of_findSome?_eq_some h
  obtain ⟨capture, hcapture, heq⟩ := Option.map_eq_some_iff.mp hform
  cases heq
  exact ⟨form, hmem, hcapture⟩

/-- A name in parentheses is of no other form. -/
theorem recognizeOnce_eq_optional_iff {cs name : List Char} :
    recognizeOnce cs = some (.optional, name) ↔
      cs = '(' :: (name ++ [')']) ∧ name ≠ [] ∧ '\n' ∉ name := by
  constructor
  · intro h
    obtain ⟨form, hform, hcapture⟩ := exists_form_of_recognizeOnce h
    obtain rfl : form = .around '(' ')' (· != '\n') := by simpa [operatorForms] using hform
    obtain ⟨hcs, hne, hinside⟩ := OperatorForm.capture?_around_eq_some_iff.mp hcapture
    exact ⟨hcs, hne, fun hline => by simpa using hinside _ hline⟩
  · rintro ⟨rfl, hne, hline⟩
    simp [recognizeOnce, operatorForms, OperatorForm.capture?, hne, hline]

theorem recognizeOnce_eq_catchAll_iff {cs name : List Char} :
    recognizeOnce cs = some (.catchAll, name) ↔ cs = ['*', '*'] ∧ name = [] := by
  constructor
  · intro h
    obtain ⟨form, hform, hcapture⟩ := exists_form_of_recognizeOnce h
    obtain rfl : form = .exactly ['*', '*'] := by simpa [operatorForms] using hform
    exact OperatorForm.capture?_exactly_eq_some_iff.mp hcapture
  · rintro ⟨rfl, rfl⟩
    decide

theorem recognizeOnce_wildcard {label : List Char} (hne : label ≠ []) (hstar : '*' ∉ label) :
    recognizeOnce ('*' :: (label ++ ['*'])) = some (.wildcard, label) := by
  have hcapture : (OperatorForm.around '*' '*' (· != '*')).capture? ('*' :: (label ++ ['*'])) =
      some label := by
    rw [OperatorForm.capture?_around_eq_some_iff]
    exact ⟨rfl, hne, by grind⟩
  have hexactly : (OperatorForm.exactly ['*']).capture? ('*' :: (label ++ ['*'])) = none := by
    simp [OperatorForm.capture?]
  simp only [recognizeOnce, operatorForms, List.findSome?_cons, hexactly, hcapture,
    Option.map_none, Option.map_some]

/-- The operators of a text are the outermost one and those of what it captures. -/
theorem recognize_eq_cons_iff {s : String} {t : OperatorToken} {inner : List OperatorToken} :
    recognize s = t :: inner ↔
      s ≠ "" ∧ recognizeOnce s.toList = some (t.kind, t.capture.toList) ∧ t.source = s ∧
        inner = recognize t.capture := by
  obtain ⟨kind, capture, source⟩ := t
  rw [recognize, recognizeIn]
  by_cases hs : s = ""
  · simp [hs]
  · rw [dif_neg (by simpa using hs)]
    split
    next hnone => simp [hnone]
    next op name hsome =>
      simp only [hsome, recognize, List.cons.injEq, OperatorToken.mk.injEq, Option.some.injEq,
        Prod.mk.injEq, String.ofList_toList]
      constructor
      · rintro ⟨⟨rfl, rfl, rfl⟩, rfl⟩
        simpa using hs
      · rintro ⟨-, ⟨rfl, rfl⟩, rfl, rfl⟩
        simp

theorem leading?_eq_some_iff {s : String} {t : OperatorToken} :
    leading? s = some t ↔
      s ≠ "" ∧ recognizeOnce s.toList = some (t.kind, t.capture.toList) ∧ t.source = s := by
  rw [leading?, List.head?_eq_some_iff]
  simp [recognize_eq_cons_iff]

/-! ## Keys -/

theorem KeyTarget.eq_of_ofOperator_eq_field {key name : String} {operator : Option Operator}
    (h : ofOperator key operator = .field name) : key = name := by
  unfold ofOperator at h
  split at h <;> cases h
  rfl

namespace KeyPattern

/-- A key that requires a field is the name of this field. -/
theorem eq_of_ofKey_eq {key name : String} (h : ofKey key = ⟨false, .field name⟩) :
    key = name := by
  rw [ofKey] at h
  split at h
  next => cases h
  next => exact KeyTarget.eq_of_ofOperator_eq_field (congrArg target h)

/-- A key whose outermost operator is not an optional is about what this operator says. -/
theorem ofKey_of_leading?_ne {key : String} (h : ∀ t ∈ leading? key, t.kind ≠ .optional) :
    ofKey key = ⟨false, .ofOperator key ((leading? key).map (·.kind))⟩ := by
  unfold ofKey leading?
  unfold leading? at h
  split
  next htokens => simp [htokens] at h
  next => rfl

/-- Parentheses make a name optional, and operators in it count. -/
theorem ofKey_of_optional {name : String} (hne : name ≠ "") (hline : '\n' ∉ name.toList) :
    ofKey ("(" ++ name ++ ")") = ⟨true, .ofOperator name ((leading? name).map (·.kind))⟩ := by
  have htokens : recognize ("(" ++ name ++ ")") =
      ⟨.optional, name, "(" ++ name ++ ")"⟩ :: recognize name := by
    rw [recognize_eq_cons_iff, recognizeOnce_eq_optional_iff]
    simp [hne, hline]
  rw [ofKey, htokens, leading?]

/-- Parentheses around a key that has none make it optional and keep what it is about. -/
theorem ofKey_parenthesized {key : String} (hne : key ≠ "") (hline : '\n' ∉ key.toList)
    (hleading : ∀ t ∈ leading? key, t.kind ≠ .optional) :
    ofKey ("(" ++ key ++ ")") = ⟨true, (ofKey key).target⟩ := by
  rw [ofKey_of_leading?_ne hleading, ofKey_of_optional hne hline]

/-- A label between asterisks makes a wildcard, which parentheses make optional. -/
theorem ofKey_optional_wildcard {label : String} (hne : label ≠ "") (hstar : '*' ∉ label.toList)
    (hline : '\n' ∉ label.toList) : ofKey ("(*" ++ label ++ "*)") = ⟨true, .wildcard⟩ := by
  have hleading : leading? ("*" ++ label ++ "*") =
      some ⟨.wildcard, label, "*" ++ label ++ "*"⟩ := by
    have hname : label.toList ≠ [] := by simpa using hne
    rw [leading?_eq_some_iff]
    simpa using recognizeOnce_wildcard hname hstar
  have hkey : "(*" ++ label ++ "*)" = "(" ++ ("*" ++ label ++ "*") ++ ")" := by
    rw [← String.toList_inj]
    simp
  rw [hkey, ofKey_of_optional (by simp) (by simp [hline]), hleading]
  rfl

theorem target_ofOperator_eq_catchAll_iff {name : String} :
    KeyTarget.ofOperator name ((leading? name).map (·.kind)) = .catchAll ↔ name = "**" := by
  constructor
  · intro h
    have hkind : (leading? name).map (·.kind) = some .catchAll := by
      unfold KeyTarget.ofOperator at h
      split at h <;> first | assumption | cases h
    obtain ⟨t, ht, hcatchAll⟩ := Option.map_eq_some_iff.mp hkind
    obtain ⟨-, honce, -⟩ := leading?_eq_some_iff.mp ht
    rw [hcatchAll, recognizeOnce_eq_catchAll_iff] at honce
    exact String.toList_inj.mp honce.1
  · rintro rfl
    decide +kernel

/-- The catch-alls are two asterisks, and two asterisks in parentheses. -/
theorem target_ofKey_eq_catchAll_iff {key : String} :
    (ofKey key).target = .catchAll ↔ key = "**" ∨ key = "(**)" := by
  by_cases hleading : ∀ t ∈ leading? key, t.kind ≠ .optional
  · have hkey : key ≠ "(**)" := by
      rintro rfl
      exact hleading ⟨.optional, "**", "(**)"⟩ (by decide +kernel) rfl
    rw [ofKey_of_leading?_ne hleading, target_ofOperator_eq_catchAll_iff, or_iff_left hkey]
  · simp only [Option.mem_def, not_forall, not_not] at hleading
    obtain ⟨⟨kind, name, source⟩, ht, rfl⟩ := hleading
    obtain ⟨-, honce, -⟩ := leading?_eq_some_iff.mp ht
    obtain ⟨hname, hne, hline⟩ := recognizeOnce_eq_optional_iff.mp honce
    obtain rfl : key = "(" ++ name ++ ")" := by
      rw [← String.toList_inj, hname]
      simp
    have hkey : "(" ++ name ++ ")" = "(**)" ↔ name = "**" := by
      rw [show "(**)" = "(" ++ "**" ++ ")" from rfl, String.append_left_inj,
        String.append_right_inj]
    have hother : "(" ++ name ++ ")" ≠ "**" := by simp [← String.toList_inj]
    rw [ofKey_of_optional (by simpa using hne) hline, target_ofOperator_eq_catchAll_iff,
      or_iff_right hother, hkey]

end KeyPattern

end ShapeMatch
