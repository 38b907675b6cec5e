import ShapeMatch.Proofs.Operator

/-!
# The table of keys

Each key of an object schema makes a test: which fields it is about, how many of them it may claim
and how many it must. A table with six rows says so in terms of the rules of operators, and reading
a key finds its row.

## Main definitions

* `KeyTable`: the table.
* `KeyPattern.toTest`: the test that a key makes of a value.

## Main statements

* `KeyPattern.keyTable_iff_toTest_ofKey`: keys are read as the table has them.
-/

namespace ShapeMatch

variable {α : Type}

/-! ## Operators of keys -/

/-- The leading operator of a text follows a rule, and without one no rule applies. -/
theorem leading?_cases (s : String) :
    (leading? s = none ∧ ∀ (r : OperatorRule) (name : String), ¬ r.Captures s name) ∨
      ∃ (r : OperatorRule) (name : String), r.Captures s name ∧
        leading? s = some ⟨r.kind, name, s⟩ := by
  cases h : leading? s with
  | none =>
    refine .inl ⟨rfl, fun r name hr => ?_⟩
    cases h.symm.trans hr.leading?_eq
  | some t =>
    obtain ⟨-, honce, -⟩ := leading?_eq_some_iff.mp h
    obtain ⟨r, -, hr⟩ := OperatorRule.recognizeOnce_eq_some_iff.mp honce
    exact .inr ⟨r, _, hr, h.symm.trans hr.leading?_eq⟩

namespace KeyPattern

variable {key name label : String}

/-- The target of a name that is not in parentheses, or that stands in them. -/
def targetOf (name : String) : KeyTarget := .ofOperator name ((leading? name).map (·.kind))

theorem targetOf_wildcard {r : OperatorRule} (hwildcard : r.kind = .wildcard)
    (h : r.Captures name label) : targetOf name = .wildcard := by
  rw [targetOf, h.leading?_eq, Option.map_some, hwildcard]
  rfl

theorem targetOf_catchAll : targetOf "**" = .catchAll := target_ofOperator_eq_catchAll_iff.mpr rfl

theorem targetOf_field
    (h : ∀ (r : OperatorRule) (inner : String), r.Captures name inner →
      r.kind = .sibling ∨ r.kind = .optional) : targetOf name = .field name := by
  rcases leading?_cases name with ⟨hleading, -⟩ | ⟨r, inner, hr, hleading⟩
  · rw [targetOf, hleading]
    rfl
  · rw [targetOf, hleading, Option.map_some]
    rcases h r inner hr with hkind | hkind <;> rw [hkind] <;> rfl

theorem targetOf_cases (name : String) :
    (∃ (r : OperatorRule) (label : String), r.kind = .wildcard ∧ r.Captures name label) ∨
      name = "**" ∨ ∀ (r : OperatorRule) (inner : String), r.Captures name inner →
        r.kind = .sibling ∨ r.kind = .optional := by
  by_cases h : ∃ (r : OperatorRule) (inner : String), r.Captures name inner
  · obtain ⟨r, inner, hr⟩ := h
    -- at most one rule applies to a text, so this one speaks for all
    have hkind : ∀ (r' : OperatorRule) (inner' : String), r'.Captures name inner' →
        r'.kind = r.kind := by
      intro r' inner' hr'
      rw [(hr'.unique hr).1]
    cases r with
    | star | stars => exact .inl ⟨_, inner, rfl, hr⟩
    | doubleStar => exact .inr (.inl hr.1)
    | dollars => exact .inr (.inr fun r' inner' hr' => .inl (hkind r' inner' hr'))
    | parentheses => exact .inr (.inr fun r' inner' hr' => .inr (hkind r' inner' hr'))
  · exact .inr (.inr fun r inner hr => absurd ⟨r, inner, hr⟩ h)

theorem ofKey_of_captures (h : OperatorRule.parentheses.Captures key name) :
    ofKey key = ⟨true, targetOf name⟩ := by
  obtain ⟨rfl, hne, hline⟩ := h
  exact ofKey_of_optional hne hline

theorem ofKey_of_not_captures (h : ∀ name, ¬ OperatorRule.parentheses.Captures key name) :
    ofKey key = ⟨false, targetOf key⟩ := by
  refine ofKey_of_leading?_ne fun t ht hoptional => ?_
  -- an optional operator is one of parentheses, which the key does not have
  rcases leading?_cases key with ⟨hnone, -⟩ | ⟨r, name, hr, hleading⟩
  · cases hnone.symm.trans ht
  · cases hleading.symm.trans ht
    cases r <;> cases hoptional
    exact h name hr

end KeyPattern

/-! ## The table -/

/-- The table of keys: for each key the scope of its test, the fields that the test is about, how
many it may claim and how many it must. Operators other than wildcards and the catch-all are part
of a name. -/
inductive KeyTable : String → Scope → KeyRule → Freedom → Nat → Prop
  | name {key : String}
      (hplain : ∀ (r : OperatorRule) (inner : String), r.Captures key inner → r.kind = .sibling) :
      KeyTable key .bound (.exact key) (.finite 1) 1
  | optionalName {key name : String} (hkey : OperatorRule.parentheses.Captures key name)
      (hplain : ∀ (r : OperatorRule) (inner : String), r.Captures name inner →
        r.kind = .sibling ∨ r.kind = .optional) :
      KeyTable key .bound (.exact name) (.finite 1) 0
  | wildcard {r : OperatorRule} {key label : String} (hwildcard : r.kind = .wildcard)
      (hkey : r.Captures key label) : KeyTable key .free .any (.finite 1) 1
  | optionalWildcard {r : OperatorRule} {key name label : String}
      (hkey : OperatorRule.parentheses.Captures key name) (hwildcard : r.kind = .wildcard)
      (hname : r.Captures name label) : KeyTable key .free .any (.finite 1) 0
  | catchAll : KeyTable "**" .free .any .unbounded 1
  | optionalCatchAll : KeyTable "(**)" .free .any .unbounded 0

namespace KeyPattern

/-- The test that a key makes of a value. -/
def toTest (p : KeyPattern) (source : String) (value : α) : Test α :=
  match p.target with
  | .field name => ⟨.bound, .exact name, value, .finite 1, costOf p.optional, source⟩
  | .wildcard => ⟨.free, .any, value, .finite 1, costOf p.optional, source⟩
  | .catchAll => ⟨.free, .any, value, .unbounded, costOf p.optional, source⟩

theorem not_captures_parentheses {r : OperatorRule} (h : r.Captures key name)
    (hkind : r.kind ≠ .optional) (inner : String) :
    ¬ OperatorRule.parentheses.Captures key inner := by
  intro hinner
  obtain ⟨rfl, -⟩ := h.unique hinner
  exact hkind rfl

/-- Every key has a row in the table. -/
theorem keyTable_toTest_ofKey (key source : String) (value : α) :
    let t := (ofKey key).toTest source value
    KeyTable key t.scope t.key t.freedom t.cost := by
  intro t
  by_cases hparentheses : ∃ name, OperatorRule.parentheses.Captures key name
  · obtain ⟨name, hkey⟩ := hparentheses
    simp only [t, ofKey_of_captures hkey]
    rcases targetOf_cases name with ⟨r, label, hr, hname⟩ | rfl | hplain
    · rw [targetOf_wildcard hr hname]
      exact .optionalWildcard hkey hr hname
    · rw [targetOf_catchAll, hkey.1]
      exact .optionalCatchAll
    · rw [targetOf_field hplain]
      exact .optionalName hkey hplain
  · rw [not_exists] at hparentheses
    simp only [t, ofKey_of_not_captures hparentheses]
    rcases targetOf_cases key with ⟨r, label, hr, hkey⟩ | rfl | hplain
    · rw [targetOf_wildcard hr hkey]
      exact .wildcard hr hkey
    · rw [targetOf_catchAll]
      exact .catchAll
    · rw [targetOf_field hplain]
      refine .name fun r inner hr => (hplain r inner hr).resolve_right fun hkind => ?_
      cases r <;> cases hkind
      exact hparentheses inner hr

/-- A row of the table is what its key is read as. -/
theorem toTest_ofKey_of_keyTable {scope : Scope} {rule : KeyRule} {freedom : Freedom} {cost : Nat}
    (h : KeyTable key scope rule freedom cost) (source : String) (value : α) :
    (ofKey key).toTest source value = ⟨scope, rule, value, freedom, cost, source⟩ := by
  cases h with
  | name hplain =>
    have hkey : ∀ inner, ¬ OperatorRule.parentheses.Captures key inner := by
      intro inner hinner
      cases hplain _ inner hinner
    rw [ofKey_of_not_captures hkey, targetOf_field fun r inner hr => .inl (hplain r inner hr)]
    rfl
  | optionalName hkey hplain =>
    rw [ofKey_of_captures hkey, targetOf_field hplain]
    rfl
  | wildcard hwildcard hkey =>
    rw [ofKey_of_not_captures (not_captures_parentheses hkey (by simp [hwildcard])),
      targetOf_wildcard hwildcard hkey]
    rfl
  | optionalWildcard hkey hwildcard hname =>
    rw [ofKey_of_captures hkey, targetOf_wildcard hwildcard hname]
    rfl
  | catchAll =>
    have hkey : OperatorRule.doubleStar.Captures "**" "" := ⟨rfl, rfl⟩
    rw [ofKey_of_not_captures (not_captures_parentheses hkey (by simp [OperatorRule.kind])),
      targetOf_catchAll]
    rfl
  | optionalCatchAll =>
    have hkey : OperatorRule.parentheses.Captures "(**)" "**" := ⟨rfl, by simp, by simp⟩
    rw [ofKey_of_captures hkey, targetOf_catchAll]
    rfl

/-- Keys are read as the table has them, which has one row for each key. -/
theorem keyTable_iff_toTest_ofKey {scope : Scope} {rule : KeyRule} {freedom : Freedom} {cost : Nat}
    {key source : String} {value : α} {t : Test α} (ht : (ofKey key).toTest source value = t) :
    KeyTable key scope rule freedom cost ↔
      t.scope = scope ∧ t.key = rule ∧ t.freedom = freedom ∧ t.cost = cost := by
  subst ht
  constructor
  · intro h
    rw [toTest_ofKey_of_keyTable h]
    exact ⟨rfl, rfl, rfl, rfl⟩
  · rintro ⟨rfl, rfl, rfl, rfl⟩
    exact keyTable_toTest_ofKey key source value

end KeyPattern

end ShapeMatch
