import ShapeMatch.Assignment
import ShapeMatch.Collection.Distinct
import ShapeMatch.Rule

/-!
# Reconciling an object with its rules

Every field of an object must be claimed by exactly one rule, and every required rule must claim
a field. Rules on named fields claim first; what they leave is assigned to the wildcards and the
catch-all. Here a rule asks of a value what a test tells.

## Main definitions

* `Discrepancy`: why an object and its rules cannot be reconciled.
* `ObjectRules.claimFields`: the rules on named fields, one after another.
* `ObjectRules.slots`, `ObjectRules.claimRest`: the wildcards and the catch-all.
* `ObjectRules.reconcile`, `ObjectRules.acceptsObject`: the outcome and the verdict.
-/

namespace ShapeMatch

/-- Why an object and its rules cannot be reconciled. -/
inductive Discrepancy where
  /-- The rules of a scope must claim more fields than there are. -/
  | notEnoughPairs (scope : Scope) (required available : Nat)
  /-- A rule claims fewer fields than it must. -/
  | unsatisfied (rule : String) (required claimed : Nat)
  /-- The value of a named field fails its rule. -/
  | rejected (rule key : String)
  /-- No rule claims these fields. -/
  | unclaimed (keys : List String)
deriving DecidableEq, Repr

def Discrepancy.message : Discrepancy → String
  | notEnoughPairs scope required available =>
    scope.name ++ " tests require " ++ toString required ++ " pair(s) but only " ++
      toString available ++ " are available"
  | unsatisfied rule required claimed =>
    "rule `" ++ rule ++ "` requires " ++ toString required ++ " pair(s) but claimed " ++
      toString claimed
  | rejected rule key => "value at `" ++ key ++ "` rejected by rule `" ++ rule ++ "`"
  | unclaimed keys =>
    toString keys.length ++ " pair(s) left unclaimed: " ++ ", ".intercalate keys

/-- How many fields the rules of each scope have claimed. -/
structure Claimed where
  bound : Nat
  free : Nat
deriving DecidableEq, Repr

namespace ObjectRules

/-- Lets rules on named fields claim their fields, one rule after another. Fields are looked up
in the whole object, so two rules may name one field; `pending` are the fields not claimed. -/
def claimEach (o : Object) :
    List (FieldRule (Value → Bool)) → (pending : Object) → Except Discrepancy Object
  | [], pending => .ok pending
  | r :: rest, pending =>
    match o.get? r.name with
    | some v =>
      if r.value v then claimEach o rest (pending.filter (·.1 != r.name))
      else .error (.rejected r.source r.name)
    | none =>
      if r.optional then claimEach o rest pending
      else .error (.unsatisfied r.source r.cost 0)

/-- The fields left after the rules on named fields, provided these rules do not need more
fields than the object has. -/
def claimFields (rules : ObjectRules (Value → Bool)) (o : Object) : Except Discrepancy Object :=
  if o.length < rules.boundCost then .error (.notEnoughPairs .bound rules.boundCost o.length)
  else claimEach o rules.fields o

/-- Which of the pending fields a test accepts. -/
def column (pending : Object) (test : Value → Bool) : Vector Bool pending.length :=
  ⟨(pending.map fun field => test field.2).toArray, by simp⟩

/-- The slots of the wildcards and the catch-all: one for each wildcard, then one for a required
catch-all, then one for whatever else the catch-all accepts. Groups own slots by their position,
and the catch-all by the position after the last group. -/
def slots (rules : ObjectRules (Value → Bool)) (pending : Object) : List (Slot pending.length) :=
  let ofGroup (g : WildcardGroup (Value → Bool)) (owner : Nat) : List (Slot pending.length) :=
    let accepts := column pending g.value
    g.members.map fun r => ⟨owner, !r.optional, false, accepts⟩
  let ofCatchAll (r : WildcardRule (Value → Bool)) : List (Slot pending.length) :=
    let owner := rules.groups.length
    let accepts := column pending r.value
    (if r.optional then [] else [⟨owner, true, false, accepts⟩]) ++ [⟨owner, false, true, accepts⟩]
  rules.groups.zipIdx.flatMap (fun g => ofGroup g.1 g.2) ++ rules.catchAll.elim [] ofCatchAll

theorem length_slots (rules : ObjectRules (Value → Bool)) (pending : Object) :
    (rules.slots pending).length = rules.slotCount := by
  have hgroups : (rules.groups.zipIdx.map fun g => g.1.members.length) =
      rules.groups.map fun g => g.members.length := by
    have h := congrArg (List.map fun g => g.members.length) (List.zipIdx_map_fst 0 rules.groups)
    rwa [List.map_map] at h
  cases h : rules.catchAll with
  | none => simp [slots, slotCount, h, hgroups]
  | some r =>
    cases hr : r.optional <;>
      simp [slots, slotCount, h, hgroups, WildcardRule.cost, costOf, hr]

/-- The pending fields and the slots for them. The number of slots does not depend on the
fields, so it is known without any test of them. -/
def board (rules : ObjectRules (Value → Bool)) (pending : Object) :
    Board pending.length rules.slotCount :=
  ⟨⟨(rules.slots pending).toArray, by simp [length_slots]⟩⟩

/-- What is wrong when a slot of the given owner stays empty. -/
def shortage (rules : ObjectRules (Value → Bool)) (owner claimed : Nat) : Discrepancy :=
  match rules.groups[owner]? with
  | some g => .unsatisfied g.label g.required claimed
  | none => .unsatisfied (rules.catchAll.elim "" (·.source)) 1 claimed

/-- The placement of the pending fields in the slots of the wildcards and the catch-all,
provided these do not need more fields than are pending. -/
def claimRest (rules : ObjectRules (Value → Bool)) (pending : Object) :
    Except Discrepancy (Placement pending.length rules.slotCount) :=
  if pending.length < rules.freeCost then
    .error (.notEnoughPairs .free rules.freeCost pending.length)
  else
    let board := rules.board pending
    match board.settle with
    | .ok placement => .ok placement
    | .error s =>
      let owner := board.slot[s.slot].owner
      .error (rules.shortage owner (board.filled s.placement owner))

/-- Reconciles an object with its rules: how many fields each scope claims, or why not every
field and every rule finds its counterpart. -/
def reconcile (rules : ObjectRules (Value → Bool)) (o : Object) : Except Discrepancy Claimed := do
  let pending ← rules.claimFields o
  let placement ← rules.claimRest pending
  let left := placement.unplaced.map fun pair => pending[pair].1
  if left.isEmpty then .ok ⟨o.length - pending.length, placement.placed.length⟩
  else .error (.unclaimed left)

/-- Whether the keys of an object suit the rules: the required ones are there, and without
wildcards there are no others than the named ones. -/
def keysAgree (rules : ObjectRules (Value → Bool)) (keys : List String) : Bool :=
  isSubset (· == ·) rules.requiredKeys keys &&
    (rules.hasWildcards || isSubset (· == ·) keys rules.boundKeys)

/-- Whether an object follows its rules. -/
def acceptsObject (rules : ObjectRules (Value → Bool)) (o : Object) : Bool :=
  match rules.reconcile o with
  | .error _ => false
  | .ok _ =>
    rules.keysAgree o.keys && (!rules.tests.any Test.isRequired || (Value.obj o).isNonEmpty)

end ObjectRules

end ShapeMatch
