/-!
# First occurrences and inclusion

Removing repetitions from a list under any Boolean comparison, and inclusion of lists as sets.

## Main definitions

* `distinctBy`: the items to which no earlier kept item is related.
* `isSubset`: every distinct element of the first list occurs in the second.
-/

namespace ShapeMatch

variable {α : Type _}

/-- The items of a list to which no kept item is related, where `kept` holds those kept so far. -/
def distinctAfter (eq : α → α → Bool) (kept : List α) : List α → List α
  | [] => []
  | x :: rest =>
    if kept.any (eq · x) then distinctAfter eq kept rest
    else x :: distinctAfter eq (kept ++ [x]) rest

/-- The first occurrences under `eq`, in order: an item stays when no earlier kept item is
related to it. Nothing is assumed of `eq`, whose first argument is the earlier item. -/
def distinctBy (eq : α → α → Bool) (items : List α) : List α := distinctAfter eq [] items

/-- Whether every distinct element of `a` equals some element of `b`. -/
def isSubset (eq : α → α → Bool) (a b : List α) : Bool :=
  (distinctBy eq a).all fun x => b.any (eq · x)

end ShapeMatch
