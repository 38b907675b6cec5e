import ShapeMatch.Proofs.Collection.Classes
import ShapeMatch.Proofs.KeyTable
import ShapeMatch.Proofs.Object.Grouping

/-!
# The arrangement of rules

Each entry makes one test, and rules hold these tests in another order: those of named fields as the
entries have them, then the wildcards group by group, then the catch-all. The groups are the classes
of the wildcards under their predicates. A test stands for its entry's position, since entries may
be equal.

## Main definitions

* `Entry.toTest`: the test that an entry makes.
* `positions`, `arrangement`: where the tests of one kind are, and the order in which rules hold
  all of them.
* `Arranges`: rules hold given tests in this order, and group the wildcards among them.

## Main statements

* `WildcardGroup.map_members_ofWildcards`: groups are the classes of wildcards.
* `arranges_ofEntries`: rules arrange the tests of their entries.
-/

namespace ShapeMatch

variable {α ι : Type}

/-! ## Kinds of tests -/

namespace Test

/-- A test of a named field. -/
def isNamed (t : Test α) : Bool := t.scope == .bound

/-- A test of one field of any name. -/
def isWildcard (t : Test α) : Bool := t.scope == .free && t.freedom == .finite 1

/-- A test of all that is left. -/
def isCatchAll (t : Test α) : Bool := t.freedom == .unbounded

end Test

namespace Entry

/-- The test that an entry makes. -/
def toTest (e : Entry α) : Test α := e.pattern.toTest e.key e.value

/-- An entry as a wildcard, which it is when its test is one. -/
def toWildcard (e : Entry α) : WildcardRule α := ⟨e.pattern.optional, e.key, e.value⟩

theorem fieldRule?_map_toTest (e : Entry α) :
    e.fieldRule?.map FieldRule.toTest = if e.toTest.isNamed then some e.toTest else none := by
  obtain ⟨key, schema, value⟩ := e
  rcases hkey : KeyPattern.ofKey key with ⟨optional, target⟩
  cases target <;>
    simp [fieldRule?, toTest, pattern, KeyPattern.toTest, Test.isNamed, FieldRule.toTest,
      FieldRule.cost, hkey]

theorem wildcard?_eq (e : Entry α) :
    e.wildcard? = if e.toTest.isWildcard then some (e.schema, e.toWildcard) else none := by
  obtain ⟨key, schema, value⟩ := e
  rcases hkey : KeyPattern.ofKey key with ⟨optional, target⟩
  cases target <;>
    simp [wildcard?, toTest, toWildcard, pattern, KeyPattern.toTest, Test.isWildcard, hkey]

theorem toTest_toWildcard {e : Entry α} (h : e.toTest.isWildcard = true) :
    e.toWildcard.toTest (.finite 1) = e.toTest := by
  obtain ⟨key, schema, value⟩ := e
  rcases hkey : KeyPattern.ofKey key with ⟨optional, target⟩
  cases target <;>
    simp_all [toTest, toWildcard, pattern, KeyPattern.toTest, Test.isWildcard, WildcardRule.toTest,
      WildcardRule.cost]

theorem catchAll?_map_toTest (e : Entry α) :
    e.catchAll?.map (WildcardRule.toTest .unbounded) =
      if e.toTest.isCatchAll then some e.toTest else none := by
  obtain ⟨key, schema, value⟩ := e
  rcases hkey : KeyPattern.ofKey key with ⟨optional, target⟩
  cases target <;>
    simp [catchAll?, toTest, pattern, KeyPattern.toTest, Test.isCatchAll, WildcardRule.toTest,
      WildcardRule.cost, hkey]

/-- A test that is not of a named field is a wildcard or a catch-all. -/
theorem toTest_kinds (e : Entry α) :
    e.toTest.isWildcard = (e.toTest.isWildcard && !e.toTest.isNamed) ∧
      e.toTest.isCatchAll = (!e.toTest.isWildcard && !e.toTest.isNamed) := by
  unfold toTest KeyPattern.toTest
  cases e.pattern.target <;> exact ⟨rfl, rfl⟩

end Entry

/-! ## Groups -/

namespace WildcardGroup

/-- Wildcards of the predicate of the first group join it, and the others are grouped after it. -/
theorem foldl_place_cons (ws : List (Schema × WildcardRule α)) (s : Schema) (g : WildcardGroup α)
    (groups : List (Schema × WildcardGroup α)) :
    ws.foldl (fun groups w => place w.1 w.2 groups) ((s, g) :: groups) =
      (s, { g with others := g.others ++ (ws.filter (s.samePredicate ·.1)).map (·.2) }) ::
        (ws.filter (!s.samePredicate ·.1)).foldl (fun groups w => place w.1 w.2 groups) groups := by
  induction ws generalizing g groups with
  | nil => simp
  | cons w ws ih =>
    rw [List.foldl_cons, place]
    by_cases h : s.samePredicate w.1 = true
    · rw [if_pos h, ih]
      simp [h]
    · rw [if_neg h, ih]
      simp [h]

/-- Groups are the classes of wildcards under their predicates. -/
theorem map_members_ofWildcards (ws : List (Schema × WildcardRule α)) :
    (ofWildcards ws).map members =
      (classesBy (fun v w => v.1.samePredicate w.1) ws).map (List.map (·.2)) := by
  fun_induction classesBy (fun v w : Schema × WildcardRule α => v.1.samePredicate w.1) ws with
  | case1 => rfl
  | case2 w rest ih =>
    rw [List.map_cons, ← ih, ofWildcards, List.foldl_cons, place, foldl_place_cons]
    rfl

end WildcardGroup

/-! ## Positions -/

section

variable {n : Nat} (test : Fin n → Test α)

/-- Where the tests of one kind are, in order. -/
def positions (kind : Test α → Bool) : List (Fin n) :=
  (List.finRange n).filter fun i => kind (test i)

/-- The order in which rules hold tests whose wildcards are in given classes. -/
def arrangement (classes : List (List (Fin n))) : List (Fin n) :=
  positions test Test.isNamed ++ classes.flatten ++ positions test Test.isCatchAll

/-- Rules hold given tests, each once: those of named fields in order, then the wildcards group by
group, then the catch-all if there is one. The groups are the classes of the wildcards under a
comparison. -/
structure Arranges (rules : ObjectRules α) (same : Fin n → Fin n → Bool)
    (classes : List (List (Fin n))) : Prop where
  tests_eq : rules.tests = (arrangement test classes).map test
  complete : (arrangement test classes).Perm (List.finRange n)
  single : (positions test Test.isCatchAll).length ≤ 1
  groups_eq : rules.groups.map (fun g => g.members.map (WildcardRule.toTest (.finite 1))) =
    classes.map (List.map test)
  canonical : IsClasses same (positions test Test.isWildcard) classes

end

theorem filterMap_eq_map_filter {γ : Type} {f : ι → Option γ} {p : ι → Bool} {t : ι → γ}
    (h : ∀ i, f i = if p i then some (t i) else none) (xs : List ι) :
    xs.filterMap f = (xs.filter p).map t := by
  rw [← List.filterMap_eq_filter, List.map_filterMap]
  refine List.filterMap_congr fun i _ => ?_
  cases hp : p i <;> simp [h, hp, Option.guard]

/-- Items of which each is of one of three kinds are those of each kind. -/
theorem filter_kinds_perm {p q r : ι → Bool} (hq : ∀ i, q i = (q i && !p i))
    (hr : ∀ i, r i = (!q i && !p i)) (xs : List ι) :
    (xs.filter p ++ xs.filter q ++ xs.filter r).Perm xs := by
  have hothers : (xs.filter q ++ xs.filter r).Perm (xs.filter (!p ·)) := by
    have hsplit := List.filter_append_perm q (xs.filter (!p ·))
    rwa [List.filter_filter, List.filter_filter, ← funext hq, ← funext hr] at hsplit
  rw [List.append_assoc]
  exact (hothers.append_left _).trans (List.filter_append_perm p xs)

/-! ## Rules of entries -/

section

variable {n : Nat} (entry : Fin n → Entry α)

theorem map_toTest_fieldRules :
    (((List.finRange n).map entry).filterMap Entry.fieldRule?).map FieldRule.toTest =
      (positions (fun i => (entry i).toTest) Test.isNamed).map fun i => (entry i).toTest := by
  rw [List.filterMap_map, List.map_filterMap]
  exact filterMap_eq_map_filter (fun i => (entry i).fieldRule?_map_toTest) _

theorem map_toTest_catchAlls :
    (((List.finRange n).map entry).filterMap Entry.catchAll?).map
        (WildcardRule.toTest .unbounded) =
      (positions (fun i => (entry i).toTest) Test.isCatchAll).map fun i => (entry i).toTest := by
  rw [List.filterMap_map, List.map_filterMap]
  exact filterMap_eq_map_filter (fun i => (entry i).catchAll?_map_toTest) _

/-- The groups of entries are the classes of the positions of wildcards. -/
theorem map_toTest_groups :
    (WildcardGroup.ofWildcards (((List.finRange n).map entry).filterMap Entry.wildcard?)).map
        (fun g => g.members.map (WildcardRule.toTest (.finite 1))) =
      (classesBy (fun i j => (entry i).schema.samePredicate (entry j).schema)
        (positions (fun i => (entry i).toTest) Test.isWildcard)).map
          (List.map fun i => (entry i).toTest) := by
  have hwildcards : ((List.finRange n).map entry).filterMap Entry.wildcard? =
      (positions (fun i => (entry i).toTest) Test.isWildcard).map
        fun i => ((entry i).schema, (entry i).toWildcard) := by
    rw [List.filterMap_map]
    exact filterMap_eq_map_filter (fun i => (entry i).wildcard?_eq) _
  have hmembers := WildcardGroup.map_members_ofWildcards
    (((List.finRange n).map entry).filterMap Entry.wildcard?)
  rw [hwildcards, classesBy_map, List.map_map] at hmembers
  -- both sides hold the wildcards of the same positions; those that are wildcards have their tests
  have htests := congrArg (List.map (List.map (WildcardRule.toTest (.finite 1)))) hmembers
  rw [List.map_map, List.map_map] at htests
  rw [hwildcards]
  refine htests.trans (List.map_congr_left fun c hc => ?_)
  simp only [Function.comp_apply, List.map_map]
  refine List.map_congr_left fun i hi => Entry.toTest_toWildcard ?_
  exact (List.mem_filter.mp ((sublist_of_mem_classesBy hc).subset hi)).2

variable {entry}

/-- Rules arrange the tests of their entries, if denoting one predicate is an equivalence of their
schemas. -/
theorem arranges_ofEntries {rules : ObjectRules α}
    (h : ObjectRules.ofEntries ((List.finRange n).map entry) = .ok rules)
    (hsame : Equivalence fun i j => (entry i).schema.samePredicate (entry j).schema = true) :
    ∃ classes, Arranges (fun i => (entry i).toTest) rules
      (fun i j => (entry i).schema.samePredicate (entry j).schema) classes := by
  obtain ⟨hsingle, rfl⟩ := ObjectRules.ofEntries_eq_ok_iff.mp h
  have hcanonical := isClasses_classesBy hsame
    (positions (fun i => (entry i).toTest) Test.isWildcard)
  have hcatchAlls := map_toTest_catchAlls entry
  refine ⟨_, ?_, ?_, ?_, map_toTest_groups entry, hcanonical⟩
  · rw [ObjectRules.tests, arrangement, List.map_append, List.map_append, map_toTest_fieldRules,
      List.flatMap_def, map_toTest_groups, ← List.map_flatten, ← hcatchAlls, Option.toList_map,
      toList_head? hsingle]
  · have hkinds := filter_kinds_perm (fun i => (entry i).toTest_kinds.1)
      (fun i => (entry i).toTest_kinds.2) (List.finRange n)
    exact ((hcanonical.perm.append_left _).append_right _).trans hkinds
  · rwa [← List.length_map (f := fun i => (entry i).toTest), ← hcatchAlls, List.length_map]

end

end ShapeMatch
