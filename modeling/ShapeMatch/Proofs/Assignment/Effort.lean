import Mathlib.Data.List.FinRange
import ShapeMatch.Assignment

/-!
# The effort of a search

A search marks a node before it asks whoever is there to move on, it marks none twice, and it
takes no mark back. So one search makes at most one call more than there are nodes, whatever the
board and the placement are and whatever has been marked before.

## Main definitions

* `Search.resume`: a search that finds some nodes marked.
* `Search.Spends`: what a search has spent from one point to another.

## Main statements

* `Search.resume_replicate`: with no mark yet, that is a search at its start.
* `Board.fillSlot_spends`, `Board.claimPair_spends`: each mark leads to one call, except the mark of
  the place that ends a search.
* `Board.calls_le_nodes`: the bounds on calls.
-/

namespace ShapeMatch

variable {pairs slots nodes : Nat}

namespace Search

/-- The nodes that are not marked, in increasing order. -/
def unmarked (visited : Vector Bool nodes) : List (Fin nodes) :=
  (List.finRange nodes).filter fun node => !visited.get node

/-- A search in its first call that regards the marked nodes as tried. -/
def resume (p : Placement pairs slots) (visited : Vector Bool nodes) : Search pairs slots nodes :=
  ⟨p, unmarked visited, 1⟩

theorem length_unmarked_le (visited : Vector Bool nodes) : (unmarked visited).length ≤ nodes := by
  simpa [unmarked] using List.length_filter_le (fun node => !visited.get node) (List.finRange nodes)

/-- A search starts with no node marked. -/
theorem resume_replicate (p : Placement pairs slots) :
    resume p (Vector.replicate nodes false) = start p := by
  simp [resume, start, unmarked, Vector.get]

/-- What a search has spent from `s` to `t`: no mark has been taken back, and there are as many more
calls as marks, but for the mark of the place that was found. -/
structure Spends (s : Search pairs slots nodes) (found : Bool) (t : Search pairs slots nodes) :
    Prop where
  sublist : t.untried.Sublist s.untried
  calls_eq : t.calls + found.toNat + t.untried.length = s.calls + s.untried.length

variable {s t u : Search pairs slots nodes} {node : Fin nodes} {found : Bool}

theorem Spends.exhausted (s : Search pairs slots nodes) : s.Spends false s :=
  ⟨.refl _, rfl⟩

/-- The place of a marked node is free. -/
theorem Spends.taken (hnode : node ∈ s.untried) (b : Board pairs slots) (pair : Fin pairs)
    (slot : Fin slots) : s.Spends true (b.finish pair slot (s.mark node)) := by
  have hpos := List.length_pos_of_mem hnode
  refine ⟨List.erase_sublist, ?_⟩
  simp only [Board.finish, mark, List.length_erase_of_mem hnode, Bool.toNat_true]
  omega

/-- A call is made for whoever is at a marked node. -/
theorem Spends.called (hnode : node ∈ s.untried) (h : (s.mark node).call.Spends found t) :
    t.untried.Sublist s.untried ∧
      t.calls + found.toNat + t.untried.length = s.calls + s.untried.length := by
  obtain ⟨hsublist, hcalls⟩ := h
  have hpos := List.length_pos_of_mem hnode
  simp only [mark, call, List.length_erase_of_mem hnode] at hcalls
  exact ⟨hsublist.trans List.erase_sublist, by omega⟩

/-- The call succeeds, and the place becomes free. -/
theorem Spends.moved (hnode : node ∈ s.untried) (h : (s.mark node).call.Spends true t)
    (b : Board pairs slots) (pair : Fin pairs) (slot : Fin slots) :
    s.Spends true (b.finish pair slot t) := by
  obtain ⟨hsublist, hcalls⟩ := Spends.called hnode h
  exact ⟨hsublist, hcalls⟩

/-- The call fails, and the search goes on. -/
theorem Spends.stuck (hnode : node ∈ s.untried) (h : (s.mark node).call.Spends false t)
    (hnext : t.Spends found u) : s.Spends found u := by
  obtain ⟨hsublist, hcalls⟩ := Spends.called hnode h
  refine ⟨hnext.sublist.trans hsublist, ?_⟩
  rw [hnext.calls_eq]
  simpa using hcalls

theorem Spends.calls_le {p : Placement pairs slots} {visited : Vector Bool nodes}
    (h : (resume p visited).Spends found t) : t.calls ≤ nodes + 1 := by
  have hcalls : t.calls + found.toNat + t.untried.length = 1 + (unmarked visited).length :=
    h.calls_eq
  have hle := length_unmarked_le visited
  omega

end Search

namespace Board

variable (b : Board pairs slots)

theorem fillSlot_spends (slot : Fin slots) (s : Search pairs slots pairs) :
    s.Spends (b.fillSlot slot s).1.1 (b.fillSlot slot s).1.2 := by
  fun_induction fillSlot b slot s with
  | case1 slot s => exact .exhausted s
  | case2 slot s pair hfind => exact .taken (List.mem_of_find?_eq_some hfind) b pair slot
  | case3 slot s pair hfind hlt left hleft t ht hfill ih =>
    rw [hfill] at ih
    exact .moved (List.mem_of_find?_eq_some hfind) ih b pair slot
  | case4 slot s pair hfind hlt left hleft t ht hfill hle ih ih' =>
    rw [hfill] at ih
    exact .stuck (List.mem_of_find?_eq_some hfind) ih ih'

theorem claimPair_spends (pair : Fin pairs) (s : Search pairs slots slots) :
    s.Spends (b.claimPair pair s).1.1 (b.claimPair pair s).1.2 := by
  fun_induction claimPair b pair s with
  | case1 pair s => exact .exhausted s
  | case2 pair s slot hfind => exact .taken (List.mem_of_find?_eq_some hfind) b pair slot
  | case3 pair s slot hfind hlt held hheld t ht hclaim ih =>
    rw [hclaim] at ih
    exact .moved (List.mem_of_find?_eq_some hfind) ih b pair slot
  | case4 pair s slot hfind hlt held hheld t ht hclaim hle ih ih' =>
    rw [hclaim] at ih
    exact .stuck (List.mem_of_find?_eq_some hfind) ih ih'

/-- From any placement and with any marks, the search of a slot makes at most one call more than
there are pairs, and the search of a pair at most one more than there are slots. -/
theorem calls_le_nodes (p : Placement pairs slots) :
    (∀ (slot : Fin slots) (visited : Vector Bool pairs),
      let s := Search.resume p visited
      let r := (b.fillSlot slot s).1
      s.Spends r.1 r.2 ∧ r.2.calls ≤ pairs + 1) ∧
    ∀ (pair : Fin pairs) (visited : Vector Bool slots),
      let s := Search.resume p visited
      let r := (b.claimPair pair s).1
      s.Spends r.1 r.2 ∧ r.2.calls ≤ slots + 1 := by
  refine ⟨fun slot visited => ?_, fun pair visited => ?_⟩
  · have hspends := b.fillSlot_spends slot (.resume p visited)
    exact ⟨hspends, hspends.calls_le⟩
  · have hspends := b.claimPair_spends pair (.resume p visited)
    exact ⟨hspends, hspends.calls_le⟩

end Board

end ShapeMatch
