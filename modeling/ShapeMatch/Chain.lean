import ShapeMatch.Glue
import ShapeMatch.Value

/-!
# Chains of tests

A capability is a test supplied from outside. Schemas and chains hold only its identity; what it
tests is given by an interpretation. A chain starts from one step and joins further steps to it
from left to right; a step is a capability or a chain again. A chain needs at least one step
beyond the first, and so does every chain inside it.

## Main definitions

* `Capability`, `Interpretation`: the identity of a test, and what each identity tests.
* `Step`, `Chain`: steps and chains of steps.
* `Chain.build`: the test that a chain denotes.
* `Chain.sameAs`: the same capabilities joined in the same way.
-/

namespace ShapeMatch

/-- The identity of a test supplied from outside. Two capabilities may test alike and still be
different. -/
structure Capability where
  id : Nat
deriving DecidableEq, Repr

/-- What each capability tests. -/
abbrev Interpretation := Capability → Value → Bool

/-- Why a chain or a list of tests cannot be used. -/
inductive ComposeError where
  | notInitialized
  | emptyList
deriving DecidableEq, Repr

def ComposeError.message : ComposeError → String
  | notInitialized => "composer chain has no steps registered"
  | emptyList => "cannot compose an empty predicate list"

/-- A capability, or a chain: a first step and the steps joined to it. -/
inductive Step where
  | capability (c : Capability)
  | chain (initial : Step) (steps : List (Glue × Step))
deriving Repr

/-- A first step and the steps joined to it, in order. -/
structure Chain where
  initial : Step
  steps : List (Glue × Step)
deriving Repr

/-- Joins tests from left to right, starting from what was found so far. -/
def joinTests (v : Value) (found : Bool) (tests : List (Glue × (Value → Bool))) : Bool :=
  tests.foldl (fun acc test => test.1.apply acc fun _ => test.2 v) found

namespace Step

variable (interp : Interpretation)

mutual

/-- The test that a step denotes. -/
def build : Step → Except ComposeError (Value → Bool)
  | capability c => .ok (interp c)
  | chain initial steps =>
    if steps.isEmpty then .error .notInitialized
    else do
      let first ← initial.build
      let tests ← buildAll steps
      return fun v => joinTests v (first v) tests

/-- The tests that joined steps denote. -/
def buildAll : List (Glue × Step) → Except ComposeError (List (Glue × (Value → Bool)))
  | [] => .ok []
  | (glue, step) :: rest => do
    let test ← step.build
    let tests ← buildAll rest
    return (glue, test) :: tests

end

mutual

/-- Whether two steps are the same capability, or chains of the same steps. -/
def sameAs : Step → Step → Bool
  | capability c, capability d => c == d
  | chain a as, chain b bs => a.sameAs b && allSameAs as bs
  | _, _ => false

/-- Whether two lists of joined steps agree, connectives included. -/
def allSameAs : List (Glue × Step) → List (Glue × Step) → Bool
  | [], [] => true
  | (g, a) :: as, (h, b) :: bs => g == h && a.sameAs b && allSameAs as bs
  | _, _ => false

end

end Step

namespace Chain

/-- A chain that has only its first step so far. -/
def start (initial : Step) : Chain := ⟨initial, []⟩

/-- The chain with one more step joined at the end. -/
def join (c : Chain) (glue : Glue) (step : Step) : Chain := ⟨c.initial, c.steps ++ [(glue, step)]⟩

/-- A chain as a step of another. -/
def toStep (c : Chain) : Step := .chain c.initial c.steps

/-- The number of steps joined to the first. -/
def length (c : Chain) : Nat := c.steps.length

def isEmpty (c : Chain) : Bool := c.steps.isEmpty

/-- The test that a chain denotes. -/
def build (interp : Interpretation) (c : Chain) : Except ComposeError (Value → Bool) :=
  c.toStep.build interp

/-- The verdict of a chain on a value. -/
def evaluate (interp : Interpretation) (c : Chain) (v : Value) : Except ComposeError Bool :=
  (c.build interp).map (· v)

/-- Whether two chains join the same capabilities in the same way. -/
def sameAs (c d : Chain) : Bool := c.toStep.sameAs d.toStep

end Chain

end ShapeMatch
