import ShapeMatch.Assignment

/-!
# Assignments kept in lists

An assignment can be kept in plain lists in which pairs, slots and rules are known by their numbers.
Nothing in such a ledger keeps a number within its list. So every access is checked here and has no
result out of range, and the searches are run with these accesses alone. A ledger whose lists have
the right lengths is all they need: then they have a result, and the lists keep their lengths.

## Main definitions

* `Ledger`: the lists of slots, of what is accepted, and of who is where.
* `Ledger.search?`: the search of either side, as a loop over numbers with a list of marks.
* `Ledger.settle?`: the loops over all slots and all pairs.
* `Ledger.InRange`: all lists have the lengths that the numbers in a ledger ask for.

## Main statements

* `Ledger.InRange.exists_assign?`: one step keeps a ledger in range.
* `Ledger.InRange.exists_search?`, `Ledger.InRange.exists_settle?`: no access is out of range, and
  the ledger stays in range.
-/

namespace ShapeMatch

/-- The rule that a slot belongs to: a group of wildcards by its number, or the catch-all. -/
inductive Owner where
  | group (number : Nat)
  | catchAll
deriving DecidableEq, Repr

/-- The column of a rule in a row that has one for each group and then one for the catch-all. -/
def Owner.column (groups : Nat) : Owner → Nat
  | group number => number
  | catchAll => groups

/-- What is recorded of a slot. -/
structure SlotRecord where
  owner : Owner
  required : Bool
  unbounded : Bool
deriving DecidableEq, Repr

/-- An assignment in lists. Pairs and slots are known by their numbers; a row tells for one pair
which rules accept it. -/
structure Ledger where
  groups : Nat
  slots : List SlotRecord
  rows : List (List Bool)
  slotOf : List (Option Nat)
  holder : List (Option Nat)
deriving DecidableEq, Repr

/-- Overwrites an item of a list, if there is one of that number. -/
def write? {α : Type} (xs : List α) (i : Nat) (x : α) : Option (List α) :=
  if i < xs.length then some (xs.set i x) else none

namespace Ledger

/-! ## Checked accesses -/

/-- Whether a slot accepts a pair. -/
def accepts? (a : Ledger) (pair slot : Nat) : Option Bool := do
  let record ← a.slots[slot]?
  let row ← a.rows[pair]?
  row[record.owner.column a.groups]?

/-- Puts a pair into a slot. -/
def assign? (a : Ledger) (pair slot : Nat) : Option Ledger := do
  let slotOf ← write? a.slotOf pair (some slot)
  let record ← a.slots[slot]?
  let holder ← if record.unbounded then some a.holder else write? a.holder slot (some pair)
  return { a with slotOf := slotOf, holder := holder }

/-- The number of bounded slots of a rule that hold a pair. -/
def filled (a : Ledger) (owner : Owner) : Nat :=
  (a.slots.zip a.holder).countP fun entry => entry.1.owner == owner && entry.2.isSome

/-- Who searches: a slot looks for a pair among the pairs, a pair for a slot among the slots. -/
inductive Side where
  | slot
  | pair
deriving DecidableEq, Repr

namespace Side

/-- The number of nodes to try. -/
def count : Side → Ledger → Nat
  | slot, a => a.rows.length
  | pair, a => a.slots.length

/-- Whether the slot of a seeker and a node accepts the pair of them. -/
def accepts? : Side → Ledger → (seeker node : Nat) → Option Bool
  | slot, a, seeker, node => a.accepts? node seeker
  | pair, a, seeker, node => a.accepts? seeker node

/-- Who must move before a node can be taken. Unbounded slots have room. -/
def occupant? : Side → Ledger → (node : Nat) → Option (Option Nat)
  | slot, a, node => a.slotOf[node]?
  | pair, a, node => do
    let record ← a.slots[node]?
    if record.unbounded then some none else a.holder[node]?

/-- Puts the pair of a seeker and a node into the slot of them. -/
def assign? : Side → Ledger → (seeker node : Nat) → Option Ledger
  | slot, a, seeker, node => a.assign? node seeker
  | pair, a, seeker, node => a.assign? seeker node

end Side

/-! ## Searches in lists -/

/-- Whether a seeker can try a node: it is not marked and accepts or is accepted. -/
def tries? (side : Side) (a : Ledger) (seeker : Nat) (visited : List Bool) (node : Nat) :
    Option Bool := do
  let marked ← visited[node]?
  if marked then some false else side.accepts? a seeker node

/-- Marking a node that can be tried leaves fewer nodes without a mark. -/
theorem count_set_lt_of_tries? {side : Side} {a : Ledger} {seeker node : Nat} {visited : List Bool}
    (h : tries? side a seeker visited node = some true) :
    (visited.set node true).count false < visited.count false := by
  obtain ⟨marked, hmarked, h⟩ := Option.bind_eq_some_iff.mp h
  obtain ⟨hnode, hget⟩ := List.getElem?_eq_some_iff.mp hmarked
  cases marked with
  | true => cases h
  | false =>
    have hpos : 0 < visited.count false := List.count_pos_iff.2 (hget ▸ List.getElem_mem hnode)
    simp only [List.count_set hnode, hget, BEq.rfl, if_true]
    change _ - 1 + 0 < _
    omega

/-- A search in its loop over the nodes, from one node on. The marks are those of all searches in
progress: whoever is in the way looks for another node among those without a mark. -/
def search? (side : Side) (a : Ledger) (seeker : Nat) (visited : List Bool) (node : Nat) :
    Option { r : Bool × Ledger × List Bool // r.2.2.count false ≤ visited.count false } :=
  if _ : node < side.count a then
    match htries : tries? side a seeker visited node with
    | none => none
    | some false => search? side a seeker visited (node + 1)
    | some true =>
      have hlt := count_set_lt_of_tries? htries
      match side.occupant? a node with
      | none => none
      | some none =>
        (side.assign? a seeker node).map fun a' =>
          ⟨(true, a', visited.set node true), Nat.le_of_lt hlt⟩
      | some (some other) =>
        match search? side a other (visited.set node true) 0 with
        | none => none
        | some ⟨(true, a', marks), hmarks⟩ =>
          (side.assign? a' seeker node).map fun a'' =>
            ⟨(true, a'', marks), Nat.le_trans hmarks (Nat.le_of_lt hlt)⟩
        | some ⟨(false, a', marks), hmarks⟩ =>
          have hle := Nat.le_trans hmarks (Nat.le_of_lt hlt)
          (search? side a' seeker marks (node + 1)).map fun r => ⟨r.1, Nat.le_trans r.2 hle⟩
  else some ⟨(false, a, visited), Nat.le_refl _⟩
termination_by (visited.count false, side.count a - node)
decreasing_by
  · exact Prod.Lex.right _ (by omega)
  · exact Prod.Lex.left _ _ hlt
  · exact Prod.Lex.left _ _ (Nat.lt_of_le_of_lt hmarks hlt)

/-- The outcome of a search: whether it succeeds, the ledger and the marks. -/
def run? (side : Side) (a : Ledger) (seeker : Nat) (visited : List Bool) (node : Nat) :
    Option (Bool × Ledger × List Bool) :=
  (search? side a seeker visited node).map (·.1)

section

variable {side : Side} {a a' a'' : Ledger} {seeker node other : Nat} {visited marks : List Bool}

theorem run?_exhausted (h : side.count a ≤ node) :
    run? side a seeker visited node = some (false, a, visited) := by
  rw [run?, search?, dif_neg (by omega)]
  rfl

theorem run?_skip (hnode : node < side.count a)
    (htries : tries? side a seeker visited node = some false) :
    run? side a seeker visited node = run? side a seeker visited (node + 1) := by
  rw [run?, search?, dif_pos hnode]
  split <;> simp_all [run?]

theorem run?_vacant (hnode : node < side.count a)
    (htries : tries? side a seeker visited node = some true)
    (hvacant : side.occupant? a node = some none)
    (hassign : side.assign? a seeker node = some a') :
    run? side a seeker visited node = some (true, a', visited.set node true) := by
  rw [run?, search?, dif_pos hnode]
  split <;> simp_all

theorem run?_moved (hnode : node < side.count a)
    (htries : tries? side a seeker visited node = some true)
    (hother : side.occupant? a node = some (some other))
    (hrun : run? side a other (visited.set node true) 0 = some (true, a', marks))
    (hassign : side.assign? a' seeker node = some a'') :
    run? side a seeker visited node = some (true, a'', marks) := by
  obtain ⟨⟨-, hle⟩, hsearch, rfl⟩ := Option.map_eq_some_iff.mp hrun
  rw [run?, search?, dif_pos hnode]
  split <;> simp_all

theorem run?_stuck (hnode : node < side.count a)
    (htries : tries? side a seeker visited node = some true)
    (hother : side.occupant? a node = some (some other))
    (hrun : run? side a other (visited.set node true) 0 = some (false, a', marks)) :
    run? side a seeker visited node = run? side a' seeker marks (node + 1) := by
  obtain ⟨⟨-, hle⟩, hsearch, rfl⟩ := Option.map_eq_some_iff.mp hrun
  rw [run?, search?, dif_pos hnode]
  split <;> simp_all [run?, Function.comp_def]

end

/-! ## Settling in lists -/

/-- Fills the required ones of the given slots, up to the first that cannot be filled. -/
def fillEach? (pairs : Nat) (a : Ledger) : List Nat → Option (Except (Nat × Ledger) Ledger)
  | [] => some (.ok a)
  | slot :: rest => do
    let record ← a.slots[slot]?
    if record.required then
      match ← run? .slot a slot (List.replicate pairs false) 0 with
      | (true, a', _) => a'.fillEach? pairs rest
      | (false, a', _) => some (.error (slot, a'))
    else a.fillEach? pairs rest

/-- Places those of the given pairs that are not placed, each if it can be. -/
def claimEach? (a : Ledger) : List Nat → Option Ledger
  | [] => some a
  | pair :: rest => do
    match ← a.slotOf[pair]? with
    | some _ => a.claimEach? rest
    | none =>
      let (_, a', _) ← run? .pair a pair (List.replicate a.slots.length false) 0
      a'.claimEach? rest

/-- Fills the required slots, then places the remaining pairs. A slot that cannot be filled comes
with the ledger at that point. -/
def settle? (pairs : Nat) (a : Ledger) : Option (Except (Nat × Ledger) Ledger) := do
  match ← a.fillEach? pairs (List.range a.slots.length) with
  | .ok a' => (a'.claimEach? (List.range pairs)).map .ok
  | .error short => some (.error short)

/-- The ledger that settling ends with, whether all required slots are filled or not. -/
def final : Except (Nat × Ledger) Ledger → Ledger
  | .ok a => a
  | .error (_, a) => a

/-! ## Numbers in range -/

/-- All lists of a ledger have the lengths that its numbers ask for: a row for each pair, a column
for each rule that owns a slot, and a place for each pair and each slot. Slots and pairs that are
named by their numbers exist. -/
structure InRange (a : Ledger) (pairs columns : Nat) : Prop where
  length_rows : a.rows.length = pairs
  length_row : ∀ row ∈ a.rows, row.length = columns
  column_lt : ∀ r ∈ a.slots, r.owner.column a.groups < columns
  length_slotOf : a.slotOf.length = pairs
  length_holder : a.holder.length = a.slots.length
  slot_lt : ∀ slot, some slot ∈ a.slotOf → slot < a.slots.length
  pair_lt : ∀ pair, some pair ∈ a.holder → pair < pairs

/-- The number of those who may search. -/
def Side.seekers : Side → Ledger → Nat
  | slot, a => a.slots.length
  | pair, a => a.rows.length

namespace InRange

variable {a : Ledger} {pairs columns : Nat}

theorem exists_accepts? (h : a.InRange pairs columns) {pair slot : Nat}
    (hpair : pair < a.rows.length) (hslot : slot < a.slots.length) :
    ∃ x, a.accepts? pair slot = some x := by
  have hrow := h.length_row _ (List.getElem_mem hpair)
  have hcolumn := h.column_lt _ (List.getElem_mem hslot)
  rw [← hrow] at hcolumn
  exact ⟨_, by simp [accepts?, hpair, hslot, hcolumn]; rfl⟩

theorem set_slotOf (h : a.InRange pairs columns) (pair : Nat) {slot : Nat}
    (hslot : slot < a.slots.length) :
    { a with slotOf := a.slotOf.set pair (some slot) }.InRange pairs columns := by
  refine { h with length_slotOf := by simpa using h.length_slotOf, slot_lt := fun x hx => ?_ }
  rcases List.mem_or_eq_of_mem_set hx with hx | hx
  · exact h.slot_lt x hx
  · rwa [Option.some.inj hx]

theorem set_holder (h : a.InRange pairs columns) (slot : Nat) {pair : Nat} (hpair : pair < pairs) :
    { a with holder := a.holder.set slot (some pair) }.InRange pairs columns := by
  refine { h with length_holder := by simpa using h.length_holder, pair_lt := fun x hx => ?_ }
  rcases List.mem_or_eq_of_mem_set hx with hx | hx
  · exact h.pair_lt x hx
  · rwa [Option.some.inj hx]

/-- Putting a pair into a slot keeps all numbers in range. -/
theorem exists_assign? (h : a.InRange pairs columns) {pair slot : Nat}
    (hpair : pair < a.rows.length) (hslot : slot < a.slots.length) :
    ∃ a', a.assign? pair slot = some a' ∧ a'.InRange pairs columns ∧ a'.slots = a.slots := by
  have hslotOf : pair < a.slotOf.length := by rwa [h.length_slotOf, ← h.length_rows]
  have hholder : slot < a.holder.length := by rwa [h.length_holder]
  have hmoved := h.set_slotOf pair hslot
  rw [h.length_rows] at hpair
  cases hroomy : a.slots[slot].unbounded with
  | true => exact ⟨_, by simp [assign?, write?, hslotOf, hslot, hroomy], hmoved, rfl⟩
  | false =>
    exact ⟨_, by simp [assign?, write?, hslotOf, hholder, hslot, hroomy],
      hmoved.set_holder slot hpair, rfl⟩

variable {side : Side}

theorem count_eq (h : a.InRange pairs columns) {a' : Ledger} (h' : a'.InRange pairs columns)
    (hslots : a'.slots = a.slots) (side : Side) :
    side.count a' = side.count a ∧ side.seekers a' = side.seekers a := by
  cases side <;> simp [Side.count, Side.seekers, hslots, h.length_rows, h'.length_rows]

theorem exists_tries? (h : a.InRange pairs columns) {seeker node : Nat} {visited : List Bool}
    (hseeker : seeker < side.seekers a) (hvisited : visited.length = side.count a)
    (hnode : node < side.count a) : ∃ x, tries? side a seeker visited node = some x := by
  have haccepts : ∃ x, side.accepts? a seeker node = some x := by
    cases side with
    | slot => exact h.exists_accepts? hnode hseeker
    | pair => exact h.exists_accepts? hseeker hnode
  rw [← hvisited] at hnode
  obtain ⟨x, hx⟩ := haccepts
  cases hmarked : visited[node] <;> exact ⟨_, by simp [tries?, hnode, hmarked, hx]; rfl⟩

theorem exists_occupant? (h : a.InRange pairs columns) {node : Nat} (hnode : node < side.count a) :
    ∃ x, side.occupant? a node = some x ∧ ∀ other, x = some other → other < side.seekers a := by
  cases side with
  | slot =>
    have hslotOf : node < a.slotOf.length := by rwa [h.length_slotOf, ← h.length_rows]
    refine ⟨_, List.getElem?_eq_getElem hslotOf, fun other hother => ?_⟩
    exact h.slot_lt other (hother ▸ List.getElem_mem hslotOf)
  | pair =>
    have hslots : node < a.slots.length := hnode
    have hholder : node < a.holder.length := by rwa [h.length_holder]
    cases hroomy : a.slots[node].unbounded with
    | true => exact ⟨none, by simp [Side.occupant?, hslots, hroomy], by simp⟩
    | false =>
      refine ⟨a.holder[node], by simp [Side.occupant?, hslots, hroomy, hholder], ?_⟩
      intro other hother
      rw [Side.seekers, h.length_rows]
      exact h.pair_lt other (hother ▸ List.getElem_mem hholder)

/-- Whoever is in the way may search. -/
theorem occupant_lt (h : a.InRange pairs columns) {node other : Nat} (hnode : node < side.count a)
    (hoccupant : side.occupant? a node = some (some other)) : other < side.seekers a := by
  obtain ⟨x, hx, hother⟩ := h.exists_occupant? hnode
  exact hother other (Option.some.inj (hx.symm.trans hoccupant))

theorem exists_assign?_side (h : a.InRange pairs columns) {seeker node : Nat}
    (hseeker : seeker < side.seekers a) (hnode : node < side.count a) :
    ∃ a', side.assign? a seeker node = some a' ∧ a'.InRange pairs columns ∧ a'.slots = a.slots := by
  cases side with
  | slot => exact h.exists_assign? hnode hseeker
  | pair => exact h.exists_assign? hseeker hnode

/-- A search from a ledger in range has a result, and the ledger stays in range. -/
theorem exists_search? (h : a.InRange pairs columns) {seeker node : Nat} {visited : List Bool}
    (hseeker : seeker < side.seekers a) (hvisited : visited.length = side.count a) :
    ∃ r, search? side a seeker visited node = some r ∧ r.1.2.1.InRange pairs columns ∧
      r.1.2.1.slots = a.slots ∧ r.1.2.2.length = visited.length := by
  fun_induction search? side a seeker visited node with
  | case1 a seeker visited node hnode htries =>
    obtain ⟨x, hx⟩ := h.exists_tries? hseeker hvisited hnode
    cases htries.symm.trans hx
  | case2 a seeker visited node hnode htries ih => exact ih h hseeker hvisited
  | case3 a seeker visited node hnode htries hlt hoccupant =>
    obtain ⟨x, hx, -⟩ := h.exists_occupant? hnode
    cases hoccupant.symm.trans hx
  | case4 a seeker visited node hnode htries hlt hoccupant =>
    obtain ⟨a', ha', hin, hslots⟩ := h.exists_assign?_side hseeker hnode
    exact ⟨_, by rw [ha']; rfl, hin, hslots, List.length_set⟩
  | case5 a seeker visited node hnode htries hlt other hoccupant hnone ih =>
    have hother := h.occupant_lt hnode hoccupant
    obtain ⟨r, hr, -⟩ := ih h hother (by simpa using hvisited)
    cases hnone.symm.trans hr
  | case6 a seeker visited node hnode htries hlt other hoccupant a' marks hmarks hsearch ih =>
    have hother := h.occupant_lt hnode hoccupant
    obtain ⟨r, hr, hin, hslots, hlength⟩ := ih h hother (by simpa using hvisited)
    cases hsearch.symm.trans hr
    obtain ⟨hcount, hseekers⟩ := h.count_eq hin hslots side
    obtain ⟨a'', ha'', hin', hslots'⟩ :=
      hin.exists_assign?_side (hseekers ▸ hseeker) (hcount ▸ hnode)
    exact ⟨_, by rw [ha'']; rfl, hin', hslots'.trans hslots, by simpa using hlength⟩
  | case7 a seeker visited node hnode htries hlt other hoccupant a' marks hmarks hsearch hle
      ih' ih =>
    have hother := h.occupant_lt hnode hoccupant
    obtain ⟨r, hr, hin, hslots, hlength⟩ := ih' h hother (by simpa using hvisited)
    cases hsearch.symm.trans hr
    obtain ⟨hcount, hseekers⟩ := h.count_eq hin hslots side
    have hmarks' : marks.length = visited.length := by simpa using hlength
    obtain ⟨r, hr, hin', hslots', hlength'⟩ :=
      ih hin (hseekers ▸ hseeker) (by rw [hmarks', hvisited, hcount])
    exact ⟨_, by rw [hr]; rfl, hin', hslots'.trans hslots, hlength'.trans hmarks'⟩
  | case8 a seeker visited node hnode => exact ⟨_, rfl, h, rfl, rfl⟩

theorem exists_run? (h : a.InRange pairs columns) {seeker : Nat} {visited : List Bool}
    (hseeker : seeker < side.seekers a) (hvisited : visited.length = side.count a) (node : Nat) :
    ∃ found a' marks, run? side a seeker visited node = some (found, a', marks) ∧
      a'.InRange pairs columns ∧ a'.slots = a.slots ∧ marks.length = visited.length := by
  obtain ⟨r, hsearch, hkeeps⟩ := h.exists_search? hseeker hvisited
  exact ⟨r.1.1, r.1.2.1, r.1.2.2, by rw [run?, hsearch]; rfl, hkeeps⟩

theorem exists_fillEach? (h : a.InRange pairs columns) {l : List Nat}
    (hl : ∀ slot ∈ l, slot < a.slots.length) :
    ∃ outcome, a.fillEach? pairs l = some outcome ∧ (final outcome).InRange pairs columns := by
  induction l generalizing a with
  | nil => exact ⟨_, rfl, h⟩
  | cons slot rest ih =>
    obtain ⟨hslot, hrest⟩ := List.forall_mem_cons.mp hl
    have hvisited : (List.replicate pairs false).length = Side.slot.count a := by
      rw [List.length_replicate, Side.count, h.length_rows]
    have hseeker : slot < Side.slot.seekers a := hslot
    obtain ⟨found, a', marks, hrun, hin, hslots, -⟩ := h.exists_run? hseeker hvisited 0
    obtain ⟨r, hr⟩ : ∃ r, a.slots[slot]? = some r := ⟨_, List.getElem?_eq_getElem hslot⟩
    rw [fillEach?, hr]
    cases hrequired : r.required with
    | false => simpa [hrequired] using ih h hrest
    | true =>
      cases found with
      | true => simpa [hrequired, hrun] using ih hin (hslots ▸ hrest)
      | false => exact ⟨.error (slot, a'), by simp [hrequired, hrun], hin⟩

theorem exists_claimEach? (h : a.InRange pairs columns) {l : List Nat}
    (hl : ∀ pair ∈ l, pair < pairs) :
    ∃ a', a.claimEach? l = some a' ∧ a'.InRange pairs columns := by
  induction l generalizing a with
  | nil => exact ⟨_, rfl, h⟩
  | cons pair rest ih =>
    obtain ⟨hpair, hrest⟩ := List.forall_mem_cons.mp hl
    have hslotOf : pair < a.slotOf.length := by rwa [h.length_slotOf]
    have hvisited : (List.replicate a.slots.length false).length = Side.pair.count a :=
      List.length_replicate
    have hseeker : pair < Side.pair.seekers a := by rwa [Side.seekers, h.length_rows]
    obtain ⟨found, a', marks, hrun, hin, -⟩ := h.exists_run? hseeker hvisited 0
    obtain ⟨place, hplace⟩ : ∃ place, a.slotOf[pair]? = some place :=
      ⟨_, List.getElem?_eq_getElem hslotOf⟩
    rw [claimEach?, hplace]
    cases place with
    | some slot => simpa using ih h hrest
    | none => simpa [hrun] using ih hin hrest

/-- Settling from a ledger in range has an outcome, and the ledger stays in range. -/
theorem exists_settle? (h : a.InRange pairs columns) :
    ∃ outcome, a.settle? pairs = some outcome ∧ (final outcome).InRange pairs columns := by
  obtain ⟨outcome, hfill, hin⟩ := h.exists_fillEach? fun _ => List.mem_range.mp
  rw [settle?, hfill]
  cases outcome with
  | error short => exact ⟨_, rfl, hin⟩
  | ok a' =>
    have hin : a'.InRange pairs columns := hin
    obtain ⟨a'', hclaim, hin'⟩ := hin.exists_claimEach? fun _ => List.mem_range.mp
    exact ⟨.ok a'', by simp [hclaim], hin'⟩

end InRange

end Ledger

end ShapeMatch
