import ShapeMatch.Operator
import ShapeMatch.Schema

/-!
# Rules of an object schema

Each entry of an object schema is a rule on the fields of an object. Its key names one field, or
it is a wildcard that claims one field of any name, or the catch-all that claims all that is
left; any of them may be optional. Wildcards whose schemas denote one predicate form a group.

What a rule asks of a value is a parameter of the types: a compiled schema, or a test.

## Main definitions

* `KeyPattern`: what a key says.
* `FieldRule`, `WildcardRule`, `WildcardGroup`, `ObjectRules`: the rules of an object schema.
* `ObjectRules.ofEntries`: the rules of given entries.
* `Test`, `ObjectRules.tests`: all rules in one form, in the order in which they claim fields.
-/

namespace ShapeMatch

/-- What a key of an object schema is about. -/
inductive KeyTarget where
  | field (name : String)
  | wildcard
  | catchAll
deriving DecidableEq, Repr

/-- What a key of an object schema says. -/
structure KeyPattern where
  optional : Bool
  target : KeyTarget
deriving DecidableEq, Repr

/-- The target of a key with the given operator, which is a name unless the operator is a
wildcard or the catch-all. -/
def KeyTarget.ofOperator (name : String) : Option Operator → KeyTarget
  | some .wildcard => .wildcard
  | some .catchAll => .catchAll
  | _ => .field name

/-- Reads a key. An operator counts at the outside or within an optional; a key with any other
operator is a field name as it stands. -/
def KeyPattern.ofKey (key : String) : KeyPattern :=
  match recognize key with
  | ⟨.optional, capture, _⟩ :: inner => ⟨true, .ofOperator capture (inner.head?.map (·.kind))⟩
  | tokens => ⟨false, .ofOperator key (tokens.head?.map (·.kind))⟩

/-- Whether a rule is about one field or about any. -/
inductive Scope where
  | bound
  | free
deriving DecidableEq, Repr

def Scope.name : Scope → String
  | bound => "Bound"
  | free => "Free"

/-- How many fields a rule may claim. -/
inductive Freedom where
  | finite (n : Nat)
  | unbounded
deriving DecidableEq, Repr

/-- The fields a rule is about. -/
inductive KeyRule where
  | exact (name : String)
  | any
deriving DecidableEq, Repr

namespace KeyRule

def accepts : KeyRule → String → Bool
  | exact name, key => name == key
  | any, _ => true

/-- The field that a rule selects: the named one, or the first. -/
def lookup? (rule : KeyRule) (o : Object) : Option (String × Value) :=
  match rule with
  | exact name => (o.get? name).map (name, ·)
  | any => o.head?

end KeyRule

/-- How many fields a rule must claim. -/
def costOf (optional : Bool) : Nat := if optional then 0 else 1

/-- A rule in the common form. -/
structure Test (α : Type) where
  scope : Scope
  key : KeyRule
  value : α
  freedom : Freedom
  cost : Nat
  source : String

def Test.isRequired {α : Type} (t : Test α) : Bool := 0 < t.cost

/-- A rule on the field of a given name. The source is the key as written. -/
structure FieldRule (α : Type) where
  name : String
  optional : Bool
  source : String
  value : α

/-- A rule on fields of any name. -/
structure WildcardRule (α : Type) where
  optional : Bool
  source : String
  value : α

/-- Wildcards whose schemas denote one predicate, in entry order. -/
structure WildcardGroup (α : Type) where
  first : WildcardRule α
  others : List (WildcardRule α)

/-- The rules of an object schema. -/
structure ObjectRules (α : Type) where
  fields : List (FieldRule α)
  groups : List (WildcardGroup α)
  catchAll : Option (WildcardRule α)

variable {α β : Type}

namespace FieldRule

def cost (r : FieldRule α) : Nat := costOf r.optional

def map (f : α → β) (r : FieldRule α) : FieldRule β := { r with value := f r.value }

def toTest (r : FieldRule α) : Test α :=
  ⟨.bound, .exact r.name, r.value, .finite 1, r.cost, r.source⟩

end FieldRule

namespace WildcardRule

def cost (r : WildcardRule α) : Nat := costOf r.optional

def map (f : α → β) (r : WildcardRule α) : WildcardRule β := { r with value := f r.value }

def toTest (freedom : Freedom) (r : WildcardRule α) : Test α :=
  ⟨.free, .any, r.value, freedom, r.cost, r.source⟩

end WildcardRule

namespace WildcardGroup

/-- The wildcards of a group, in entry order. -/
def members (g : WildcardGroup α) : List (WildcardRule α) := g.first :: g.others

/-- What the group asks of a value: the members all ask the same. -/
def value (g : WildcardGroup α) : α := g.first.value

/-- How many fields the group must claim. -/
def required (g : WildcardGroup α) : Nat := g.members.countP (!·.optional)

/-- The keys of the group as written. -/
def label (g : WildcardGroup α) : String := ", ".intercalate (g.members.map (·.source))

def map (f : α → β) (g : WildcardGroup α) : WildcardGroup β :=
  ⟨g.first.map f, g.others.map (·.map f)⟩

/-- Puts a wildcard into the first group whose predicate it shares, or into a new one at the
end. Each group comes with the schema of its first member. -/
def place (schema : Schema) (rule : WildcardRule α) :
    List (Schema × WildcardGroup α) → List (Schema × WildcardGroup α)
  | [] => [(schema, ⟨rule, []⟩)]
  | (s, g) :: rest =>
    if s.samePredicate schema then (s, { g with others := g.others ++ [rule] }) :: rest
    else (s, g) :: place schema rule rest

/-- Groups wildcards by predicate, groups in order of first occurrence. -/
def ofWildcards (wildcards : List (Schema × WildcardRule α)) : List (WildcardGroup α) :=
  (wildcards.foldl (fun groups w => place w.1 w.2 groups) []).map (·.2)

end WildcardGroup

/-- An entry of an object schema: its key as written, its schema, and what the schema asks of a
value. -/
structure Entry (α : Type) where
  key : String
  schema : Schema
  value : α

namespace Entry

/-- The pattern of the key. -/
def pattern (e : Entry α) : KeyPattern := .ofKey e.key

/-- The rule of an entry that names a field. -/
def fieldRule? (e : Entry α) : Option (FieldRule α) :=
  match e.pattern with
  | ⟨optional, .field name⟩ => some ⟨name, optional, e.key, e.value⟩
  | _ => none

/-- The rule of an entry that is a wildcard, with its schema. -/
def wildcard? (e : Entry α) : Option (Schema × WildcardRule α) :=
  match e.pattern with
  | ⟨optional, .wildcard⟩ => some (e.schema, ⟨optional, e.key, e.value⟩)
  | _ => none

/-- The rule of an entry that is a catch-all. -/
def catchAll? (e : Entry α) : Option (WildcardRule α) :=
  match e.pattern with
  | ⟨optional, .catchAll⟩ => some ⟨optional, e.key, e.value⟩
  | _ => none

end Entry

namespace ObjectRules

/-- The rules of given entries, of which at most one may be a catch-all. -/
def ofEntries (entries : List (Entry α)) : Except SchemaError (ObjectRules α) :=
  let catchAlls := entries.filterMap Entry.catchAll?
  if 1 < catchAlls.length then .error (.multipleCatchAll catchAlls.length)
  else .ok
    { fields := entries.filterMap Entry.fieldRule?
      groups := WildcardGroup.ofWildcards (entries.filterMap Entry.wildcard?)
      catchAll := catchAlls.head? }

def map (f : α → β) (rules : ObjectRules α) : ObjectRules β where
  fields := rules.fields.map (·.map f)
  groups := rules.groups.map (·.map f)
  catchAll := rules.catchAll.map (·.map f)

/-- All rules: those on named fields, then the wildcards group by group, then the catch-all. -/
def tests (rules : ObjectRules α) : List (Test α) :=
  rules.fields.map FieldRule.toTest ++
    rules.groups.flatMap (fun g => g.members.map (WildcardRule.toTest (.finite 1))) ++
    (rules.catchAll.map (WildcardRule.toTest .unbounded)).toList

/-- Whether some rule is about fields of any name. -/
def hasWildcards (rules : ObjectRules α) : Bool := !rules.groups.isEmpty || rules.catchAll.isSome

/-- The named fields that must be there. -/
def requiredKeys (rules : ObjectRules α) : List String :=
  (rules.fields.filter fun r => 0 < r.cost).map (·.name)

/-- The named fields. -/
def boundKeys (rules : ObjectRules α) : List String := rules.fields.map (·.name)

/-- How many fields the rules on named fields must claim. -/
def boundCost (rules : ObjectRules α) : Nat := rules.fields.countP (!·.optional)

/-- How many fields the wildcards and the catch-all must claim. -/
def freeCost (rules : ObjectRules α) : Nat :=
  (rules.groups.flatMap WildcardGroup.members).countP (!·.optional) +
    rules.catchAll.elim 0 WildcardRule.cost

/-- How many slots the wildcards and the catch-all have: one for each wildcard, one for what a
catch-all must claim and one for whatever else it claims. -/
def slotCount (rules : ObjectRules α) : Nat :=
  (rules.groups.flatMap WildcardGroup.members).length +
    rules.catchAll.elim 0 fun r => r.cost + 1

end ObjectRules

end ShapeMatch
