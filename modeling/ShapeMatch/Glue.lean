/-!
# Boolean connectives

The four connectives that join tests, by their truth tables and in a form that leaves out a
step that cannot change the outcome.

## Main definitions

* `Glue`: the connectives.
* `Glue.table`: their truth tables.
* `Glue.apply`: the lazy form; `Glue.apply_eq_table` says that the two agree.
-/

namespace ShapeMatch

/-- Not both of two truth values hold. -/
def nand (a b : Bool) : Bool := !a || !b

/-- Neither of two truth values holds. -/
def nor (a b : Bool) : Bool := !a && !b

/-- Conjunction whose second side is left out when the first fails. -/
def lazyAnd (a b : Unit → Bool) : Bool := if a () then b () else false

/-- Disjunction whose second side is left out when the first holds. -/
def lazyOr (a b : Unit → Bool) : Bool := if a () then true else b ()

/-- The connective that joins a test to what was found so far. -/
inductive Glue where
  | and
  | or
  | nand
  | nor
deriving DecidableEq, Repr

namespace Glue

/-- The truth table of a connective. -/
def table : Glue → Bool → Bool → Bool
  | and, a, b => a && b
  | or, a, b => a || b
  | nand, a, b => !(a && b)
  | nor, a, b => !(a || b)

/-- Joins a test to what was found so far. The test is left out when the outcome is settled. -/
def apply (g : Glue) (found : Bool) (test : Unit → Bool) : Bool :=
  match g with
  | and => lazyAnd (fun _ => found) test
  | or => lazyOr (fun _ => found) test
  | nand => lazyOr (fun _ => !found) fun _ => !test ()
  | nor => lazyAnd (fun _ => !found) fun _ => !test ()

theorem apply_eq_table (g : Glue) (found : Bool) (test : Unit → Bool) :
    g.apply found test = g.table found (test ()) := by
  cases g <;> cases found <;> simp [apply, table, lazyAnd, lazyOr]

end Glue

end ShapeMatch
