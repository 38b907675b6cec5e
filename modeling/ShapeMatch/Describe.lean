import ShapeMatch.Matcher
import ShapeMatch.Text.Outline

/-!
# Describing schemas and matchers

Values, schemas and matchers as one-line outlines. Tests are functions, which have no text.
-/

namespace ShapeMatch

/-- What stands for a test. -/
def testMark : String := "<fn>"

namespace Value

mutual

/-- The outline of a value. -/
def describe : Value → String
  | null => "Null"
  | bool b => Outline.call "Bool" [toString b]
  | num n => Outline.call "Number" [n.text]
  | str s => Outline.call "String" [quoted s]
  | arr items => "Array " ++ Outline.list (describeItems items)
  | obj fields => "Object " ++ Outline.map (describeFields fields)

def describeItems : List Value → List String
  | [] => []
  | v :: rest => v.describe :: describeItems rest

def describeFields : List (String × Value) → List (String × String)
  | [] => []
  | (key, v) :: rest => (quoted key, v.describe) :: describeFields rest

end

end Value

def Glue.name : Glue → String
  | and => "And"
  | or => "Or"
  | nand => "Nand"
  | nor => "Nor"

/-- The outline of a chain whose parts are described already. -/
def describeChain (initial : String) (steps : List String) : String :=
  Outline.record "ComposerChain" [("initial", initial), ("steps", Outline.list steps)]

namespace Step

mutual

/-- The outline of a step. -/
def describe : Step → String
  | capability _ => Outline.call "Predicate" [testMark]
  | chain initial steps =>
    Outline.call "Chain" [describeChain initial.describe (describeAll steps)]

def describeAll : List (Glue × Step) → List String
  | [] => []
  | (glue, step) :: rest => Outline.call "" [glue.name, step.describe] :: describeAll rest

end

end Step

/-- The outline of a chain. -/
def Chain.describe (c : Chain) : String :=
  describeChain c.initial.describe (Step.describeAll c.steps)

namespace Schema

mutual

/-- The outline of a schema. -/
def describe : Schema → String
  | literal v => Outline.call "Literal" [v.describe]
  | capability _ => Outline.call "Capability" [testMark]
  | chain c => Outline.call "Chain" [c.describe]
  | object entries => Outline.map (describeEntries entries)
  | array items => Outline.list (describeItems items)
  | undefined => "Undefined"

def describeEntries : List (String × Schema) → List (String × String)
  | [] => []
  | (key, s) :: rest => (quoted key, s.describe) :: describeEntries rest

def describeItems : List Schema → List String
  | [] => []
  | s :: rest => s.describe :: describeItems rest

end

end Schema

def Freedom.describe : Freedom → String
  | finite n => Outline.call "Finite" [toString n]
  | unbounded => "Unbounded"

def KeyRule.describe : KeyRule → String
  | exact name => Outline.call "Exact" [quoted name]
  | any => "Any"

/-- The outline of a rule whose value is described already. -/
def Test.describe (t : Test String) : String :=
  Outline.record "Test"
    [("scope", t.scope.name), ("key", t.key.describe), ("value", t.value),
      ("freedom", t.freedom.describe), ("cost", toString t.cost), ("source", quoted t.source)]

/-- The outline of a group of wildcards whose values are described already. -/
def WildcardGroup.describe (g : WildcardGroup String) : String :=
  Outline.record "StarGroup"
    [("members", Outline.list (g.members.map fun r => (r.toTest (.finite 1)).describe))]

/-- The outline of the rules of an object whose values are described already. -/
def ObjectRules.describe (rules : ObjectRules String) : String :=
  Outline.record "ObjectMatcher"
    [("bound", Outline.list (rules.fields.map fun r => r.toTest.describe)),
      ("stars", Outline.list (rules.groups.map WildcardGroup.describe)),
      ("catch_all", Outline.option (rules.catchAll.map fun r => (r.toTest .unbounded).describe)),
      ("required_keys", Outline.list (rules.requiredKeys.map quoted)),
      ("bound_keys", Outline.list (rules.boundKeys.map quoted))]

namespace Matcher

mutual

/-- The outline of a matcher. -/
def describe : Matcher → String
  | plain _ => Outline.call "Plain" [testMark]
  | sibling name =>
    Outline.call "Thunked" [Outline.record "SiblingRef" [("name", quoted name)]]
  | array element =>
    Outline.call "Array" [Outline.record "ArrayMatcher" [("element", element.describe)]]
  | object ⟨fields, groups, catchAll⟩ =>
    let rules : ObjectRules String :=
      ⟨describeFields fields, describeGroups groups, describeCatchAll catchAll⟩
    Outline.call "Object" [rules.describe]

def describeFields : List (FieldRule Matcher) → List (FieldRule String)
  | [] => []
  | ⟨name, optional, source, value⟩ :: rest =>
    ⟨name, optional, source, value.describe⟩ :: describeFields rest

def describeWildcards : List (WildcardRule Matcher) → List (WildcardRule String)
  | [] => []
  | ⟨optional, source, value⟩ :: rest =>
    ⟨optional, source, value.describe⟩ :: describeWildcards rest

def describeGroups : List (WildcardGroup Matcher) → List (WildcardGroup String)
  | [] => []
  | ⟨⟨optional, source, value⟩, others⟩ :: rest =>
    ⟨⟨optional, source, value.describe⟩, describeWildcards others⟩ :: describeGroups rest

def describeCatchAll : Option (WildcardRule Matcher) → Option (WildcardRule String)
  | none => none
  | some ⟨optional, source, value⟩ => some ⟨optional, source, value.describe⟩

end

end Matcher

end ShapeMatch
