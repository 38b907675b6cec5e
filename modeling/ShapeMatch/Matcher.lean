import ShapeMatch.Reconcile

/-!
# Matchers

A compiled schema. A reference to another field of the enclosing object can be decided only
where that object is known; a matcher is therefore given the enclosing object, if there is one.

## Main definitions

* `Matcher`: a compiled schema.
* `Matcher.judge`: the verdict of a matcher on a value within an enclosing object, if any.
* `Matcher.matchesAlone`, `Matcher.matchesIn`: the two cases of it.
* `Matcher.joinAll`: several matchers joined by one connective.
-/

namespace ShapeMatch

/-- A compiled schema. -/
inductive Matcher where
  /-- A test of the value alone. -/
  | plain (test : Value → Bool)
  /-- Equal to another field of the enclosing object. -/
  | sibling (name : String)
  /-- An array whose items all match. -/
  | array (element : Matcher)
  /-- An object that follows rules. -/
  | object (rules : ObjectRules Matcher)

/-- Whether the field `name` of an object exists and equals a value. -/
def refersTo (name : String) (parent : Object) (v : Value) : Bool :=
  match parent.get? name with
  | some target => target.deepEqual v
  | none => false

namespace Matcher

mutual

/-- The verdict of a matcher on a value. Items of an array have no enclosing object, and the
fields of an object have that object. -/
def judge : Matcher → Option Object → Value → Bool
  | plain test, _, v => test v
  | sibling name, parent, v => parent.any (refersTo name · v)
  | array element, _, v =>
    match v with
    | .arr items => items.all (element.judge none)
    | _ => false
  | object ⟨fields, groups, catchAll⟩, _, v =>
    match v with
    | .obj o =>
      let rules : ObjectRules (Value → Bool) :=
        ⟨judgeFields fields o, judgeGroups groups o, judgeCatchAll catchAll o⟩
      rules.acceptsObject o
    | _ => false

/-- The tests that rules on named fields make within an object. -/
def judgeFields : List (FieldRule Matcher) → Object → List (FieldRule (Value → Bool))
  | [], _ => []
  | ⟨name, optional, source, value⟩ :: rest, o =>
    ⟨name, optional, source, value.judge (some o)⟩ :: judgeFields rest o

/-- The tests that wildcards make within an object. -/
def judgeWildcards : List (WildcardRule Matcher) → Object → List (WildcardRule (Value → Bool))
  | [], _ => []
  | ⟨optional, source, value⟩ :: rest, o =>
    ⟨optional, source, value.judge (some o)⟩ :: judgeWildcards rest o

/-- The tests that groups of wildcards make within an object. -/
def judgeGroups : List (WildcardGroup Matcher) → Object → List (WildcardGroup (Value → Bool))
  | [], _ => []
  | ⟨⟨optional, source, value⟩, others⟩ :: rest, o =>
    ⟨⟨optional, source, value.judge (some o)⟩, judgeWildcards others o⟩ :: judgeGroups rest o

/-- The test that a catch-all makes within an object. -/
def judgeCatchAll : Option (WildcardRule Matcher) → Object → Option (WildcardRule (Value → Bool))
  | none, _ => none
  | some ⟨optional, source, value⟩, o => some ⟨optional, source, value.judge (some o)⟩

end

/-- The verdict on a value that stands by itself. A reference to a field fails. -/
def matchesAlone (m : Matcher) (v : Value) : Bool := m.judge none v

/-- The verdict on a value within an object. -/
def matchesIn (m : Matcher) (parent : Object) (v : Value) : Bool := m.judge (some parent) v

/-- Whether a matcher is a reference that needs the enclosing object. -/
def isThunked : Matcher → Bool
  | sibling _ => true
  | _ => false

/-- Joins two matchers by a connective. -/
def join (glue : Glue) (m n : Matcher) : Matcher :=
  plain fun v => glue.apply (m.matchesAlone v) fun _ => n.matchesAlone v

/-- Joins matchers from left to right by a connective. One matcher stays as it is. -/
def joinAll (glue : Glue) : List Matcher → Except ComposeError Matcher
  | [] => .error .emptyList
  | first :: rest => .ok (rest.foldl (join glue) first)

end Matcher

namespace ObjectRules

/-- The rules as tests of the fields of an object. -/
def within (rules : ObjectRules Matcher) (o : Object) : ObjectRules (Value → Bool) :=
  rules.map fun m => m.judge (some o)

end ObjectRules

namespace Matcher

theorem judgeFields_eq_map (rules : List (FieldRule Matcher)) (o : Object) :
    judgeFields rules o = rules.map (·.map fun m => m.judge (some o)) := by
  induction rules with
  | nil => simp [judgeFields]
  | cons r rest ih => simp [judgeFields, FieldRule.map, ih]

theorem judgeWildcards_eq_map (rules : List (WildcardRule Matcher)) (o : Object) :
    judgeWildcards rules o = rules.map (·.map fun m => m.judge (some o)) := by
  induction rules with
  | nil => simp [judgeWildcards]
  | cons r rest ih => simp [judgeWildcards, WildcardRule.map, ih]

theorem judgeGroups_eq_map (groups : List (WildcardGroup Matcher)) (o : Object) :
    judgeGroups groups o = groups.map (·.map fun m => m.judge (some o)) := by
  induction groups with
  | nil => simp [judgeGroups]
  | cons g rest ih =>
    simp [judgeGroups, WildcardGroup.map, WildcardRule.map, judgeWildcards_eq_map, ih]

theorem judgeCatchAll_eq_map (rule : Option (WildcardRule Matcher)) (o : Object) :
    judgeCatchAll rule o = rule.map (·.map fun m => m.judge (some o)) := by
  cases rule <;> simp [judgeCatchAll, WildcardRule.map]

theorem judge_plain (test : Value → Bool) (parent : Option Object) (v : Value) :
    (plain test).judge parent v = test v := by
  simp [judge]

theorem judge_sibling (name : String) (parent : Option Object) (v : Value) :
    (sibling name).judge parent v = parent.any (refersTo name · v) := by
  simp [judge]

/-- An array matcher accepts the arrays whose items all match alone. -/
theorem judge_array (element : Matcher) (parent : Option Object) (v : Value) :
    (array element).judge parent v =
      match v with
      | .arr items => items.all element.matchesAlone
      | _ => false := by
  cases v with
  | arr items => rw [judge]; rfl
  | _ => simp [judge]

/-- An object matcher accepts the objects that follow its rules as tests within them. -/
theorem judge_object (rules : ObjectRules Matcher) (parent : Option Object) (v : Value) :
    (object rules).judge parent v =
      match v with
      | .obj o => (rules.within o).acceptsObject o
      | _ => false := by
  cases v <;>
    simp [judge, ObjectRules.within, ObjectRules.map, judgeFields_eq_map, judgeGroups_eq_map,
      judgeCatchAll_eq_map]

end Matcher

end ShapeMatch
