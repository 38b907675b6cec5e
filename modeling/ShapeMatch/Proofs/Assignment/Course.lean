import Mathlib.Logic.Relation
import ShapeMatch.Proofs.Assignment.Settle

/-!
# The course of settling

Settling is a sequence of searches: one for each required slot until one fails, then one for each
pair that is not placed yet. What holds of the placement between any two of them is shown here, one
search at a time. Within a search it need not hold, since pairs move on before their places are
taken.

## Main definitions

* `Stage`, `Progress`: what is still to be done, and the placement by then.
* `Board.Step`, `Board.Reaches`: one search, and all that settling comes by.
* `Board.Fills`, `Board.Claims`: what a search may have done to a placement when it ends.

## Main statements

* `Board.settle_eq_ok_iff_reaches`, `Board.settle_eq_error_iff_reaches`: the course ends where
  settling does.
* `Board.Reaches.orderly`: what holds between two searches.
* `Board.Filled.fills`, `Board.Sound.claims`: a search that fails changes nothing, and one that
  succeeds fills its slot or places its pair and empties no slot.
-/

namespace ShapeMatch

variable {pairs slots : Nat}

/-- What is still to be done. -/
inductive Stage (pairs slots : Nat) where
  /-- These required slots are to be filled, and then the pairs placed. -/
  | filling (rest : List (Fin slots))
  /-- All required slots are filled, and these pairs are to be placed. -/
  | placing (rest : List (Fin pairs))
  /-- A required slot cannot be filled, and nothing more is done. -/
  | short (slot : Fin slots)

/-- Whether the last required slot has been filled. -/
def Stage.isPlacing : Stage pairs slots → Bool
  | placing _ => true
  | _ => false

/-- How far settling has come between two searches. -/
structure Progress (pairs slots : Nat) where
  stage : Stage pairs slots
  placement : Placement pairs slots

namespace Board

variable {b : Board pairs slots} {p q : Placement pairs slots} {s t : Progress pairs slots}

/-- One search, or the turn from slots to pairs. A pair that is placed by then is passed over. -/
inductive Step (b : Board pairs slots) : Progress pairs slots → Progress pairs slots → Prop
  | filled {slot : Fin slots} {rest : List (Fin slots)} {p : Placement pairs slots}
      (h : (b.fillSlot slot (.start p)).1.1 = true) :
      Step b ⟨.filling (slot :: rest), p⟩
        ⟨.filling rest, (b.fillSlot slot (.start p)).1.2.placement⟩
  | short {slot : Fin slots} {rest : List (Fin slots)} {p : Placement pairs slots}
      (h : (b.fillSlot slot (.start p)).1.1 = false) :
      Step b ⟨.filling (slot :: rest), p⟩
        ⟨.short slot, (b.fillSlot slot (.start p)).1.2.placement⟩
  | turned {p : Placement pairs slots} :
      Step b ⟨.filling [], p⟩ ⟨.placing (List.finRange pairs), p⟩
  | passed {pair : Fin pairs} {rest : List (Fin pairs)} {p : Placement pairs slots}
      (h : (p.slotOf.get pair).isSome) :
      Step b ⟨.placing (pair :: rest), p⟩ ⟨.placing rest, p⟩
  | tried {pair : Fin pairs} {rest : List (Fin pairs)} {p : Placement pairs slots}
      (h : p.slotOf.get pair = none) :
      Step b ⟨.placing (pair :: rest), p⟩
        ⟨.placing rest, (b.claimPair pair (.start p)).1.2.placement⟩

/-- What settling comes by from an empty placement. -/
def Reaches (b : Board pairs slots) : Progress pairs slots → Prop :=
  Relation.ReflTransGen b.Step ⟨.filling b.requiredSlots, .empty⟩

/-! ## The course ends where settling does -/

/-- What settling comes to from here on. -/
def outcome (b : Board pairs slots) :
    Progress pairs slots → Except (Shortage pairs slots) (Placement pairs slots)
  | ⟨.filling rest, p⟩ => (b.fillAll p rest).map fun q => b.claimAll q (List.finRange pairs)
  | ⟨.placing rest, p⟩ => .ok (b.claimAll p rest)
  | ⟨.short slot, p⟩ => .error ⟨slot, p⟩

theorem fillAll_cons_of_filled {slot : Fin slots} (h : (b.fillSlot slot (.start p)).1.1 = true)
    (rest : List (Fin slots)) :
    b.fillAll p (slot :: rest) = b.fillAll (b.fillSlot slot (.start p)).1.2.placement rest := by
  rw [fillAll]
  split
  next hrun => rw [hrun]
  next hrun => simp [hrun] at h

theorem fillAll_cons_of_short {slot : Fin slots} (h : (b.fillSlot slot (.start p)).1.1 = false)
    (rest : List (Fin slots)) :
    b.fillAll p (slot :: rest) = .error ⟨slot, (b.fillSlot slot (.start p)).1.2.placement⟩ := by
  rw [fillAll]
  split
  next hrun => simp [hrun] at h
  next hrun => rw [hrun]

theorem claimAll_cons_of_placed {pair : Fin pairs} (h : (p.slotOf.get pair).isSome)
    (rest : List (Fin pairs)) : b.claimAll p (pair :: rest) = b.claimAll p rest := by
  obtain ⟨slot, hslot⟩ := Option.isSome_iff_exists.mp h
  have hplace : p.slotOf[pair] = some slot := hslot
  rw [claimAll, hplace]

theorem claimAll_cons_of_unplaced {pair : Fin pairs} (h : p.slotOf.get pair = none)
    (rest : List (Fin pairs)) :
    b.claimAll p (pair :: rest) =
      b.claimAll (b.claimPair pair (.start p)).1.2.placement rest := by
  have hplace : p.slotOf[pair] = none := h
  rw [claimAll, hplace]

theorem Step.outcome_eq (h : b.Step s t) : b.outcome t = b.outcome s := by
  cases h with
  | filled h => rw [outcome, outcome, fillAll_cons_of_filled h]
  | short h => rw [outcome, outcome, fillAll_cons_of_short h, Except.map]
  | turned => rfl
  | passed h => rw [outcome, outcome, claimAll_cons_of_placed h]
  | tried h => rw [outcome, outcome, claimAll_cons_of_unplaced h]

theorem Reaches.outcome_eq (h : b.Reaches s) : b.outcome s = b.settle := by
  induction h with
  | refl => rfl
  | tail _ hstep ih => exact hstep.outcome_eq.trans ih

theorem Reaches.step (hs : b.Reaches s) (h : b.Step s t) : b.Reaches t := hs.tail h

theorem Reaches.claimAll {rest : List (Fin pairs)} (h : b.Reaches ⟨.placing rest, p⟩) :
    b.Reaches ⟨.placing [], b.claimAll p rest⟩ := by
  induction rest generalizing p with
  | nil => exact h
  | cons pair rest ih =>
    cases hplace : p.slotOf.get pair with
    | some slot =>
      have hsome := Option.isSome_of_eq_some hplace
      rw [claimAll_cons_of_placed hsome]
      exact ih (h.step (.passed hsome))
    | none =>
      rw [claimAll_cons_of_unplaced hplace]
      exact ih (h.step (.tried hplace))

theorem Reaches.fillAll {rest : List (Fin slots)} (h : b.Reaches ⟨.filling rest, p⟩) :
    match b.fillAll p rest with
    | .ok q => b.Reaches ⟨.filling [], q⟩
    | .error e => b.Reaches ⟨.short e.slot, e.placement⟩ := by
  induction rest generalizing p with
  | nil => exact h
  | cons slot rest ih =>
    cases hfound : (b.fillSlot slot (.start p)).1.1 with
    | true =>
      rw [fillAll_cons_of_filled hfound]
      exact ih (h.step (.filled hfound))
    | false =>
      rw [fillAll_cons_of_short hfound]
      exact h.step (.short hfound)

theorem settle_eq_ok_iff_reaches : b.settle = .ok q ↔ b.Reaches ⟨.placing [], q⟩ := by
  constructor
  · intro h
    have hfill := Reaches.fillAll (b := b) .refl
    rw [settle] at h
    cases hp : b.fillAll .empty b.requiredSlots with
    | ok p =>
      obtain rfl : b.claimAll p (List.finRange pairs) = q := by simpa [hp, Except.map] using h
      rw [hp] at hfill
      exact (hfill.step .turned).claimAll
    | error e => simp [hp, Except.map] at h
  · intro h
    exact h.outcome_eq.symm

theorem settle_eq_error_iff_reaches {e : Shortage pairs slots} :
    b.settle = .error e ↔ b.Reaches ⟨.short e.slot, e.placement⟩ := by
  constructor
  · intro h
    have hfill := Reaches.fillAll (b := b) .refl
    rw [settle] at h
    cases hp : b.fillAll .empty b.requiredSlots with
    | ok p => simp [hp, Except.map] at h
    | error e' =>
      obtain rfl : e' = e := by simpa [hp, Except.map] using h
      rwa [hp] at hfill
  · intro h
    exact h.outcome_eq.symm

/-! ## One search -/

/-- The bounded slots that hold a pair. -/
def occupied (b : Board pairs slots) (p : Placement pairs slots) : Finset (Fin slots) :=
  Finset.univ.filter fun slot => b.roomy slot = false ∧ (p.holder.get slot).isSome

/-- What the search of a slot makes of a placement. -/
inductive Fills (b : Board pairs slots) (slot : Fin slots) (p : Placement pairs slots) :
    Bool → Placement pairs slots → Prop
  /-- A search that fails changes nothing. -/
  | failed : Fills b slot p false p
  /-- One that succeeds fills its slot and places one pair more. -/
  | filled {q : Placement pairs slots} {pair : Fin pairs} (hslot : slot ∉ b.occupied p)
      (hoccupied : b.occupied q = insert slot (b.occupied p)) (hpair : pair ∉ p.placed)
      (hplaced : q.placed.toFinset = insert pair p.placed.toFinset) : Fills b slot p true q

/-- What the search of a pair makes of a placement. -/
inductive Claims (b : Board pairs slots) (pair : Fin pairs) (p : Placement pairs slots) :
    Bool → Placement pairs slots → Prop
  /-- A search that fails changes nothing. -/
  | failed : Claims b pair p false p
  /-- One that succeeds places its pair, empties no slot and fills at most one. -/
  | placed {q : Placement pairs slots} (hpair : pair ∉ p.placed)
      (hplaced : q.placed.toFinset = insert pair p.placed.toFinset)
      (hkept : b.occupied p ⊆ b.occupied q) (hmore : (b.occupied q \ b.occupied p).card ≤ 1) :
      Claims b pair p true q

variable {slot : Fin slots} {pair : Fin pairs} {done : List (Fin slots)}

theorem mem_occupied : slot ∈ b.occupied p ↔ b.roomy slot = false ∧ (p.holder.get slot).isSome := by
  simp [occupied]

theorem mem_placed : pair ∈ p.placed ↔ (p.slotOf.get pair).isSome := by
  simp [Placement.placed, Vector.get]

theorem Sound.mem_occupied_iff (hp : b.Sound p) :
    slot ∈ b.occupied p ↔ (p.holder.get slot).isSome := by
  rw [mem_occupied, and_iff_right_iff_imp]
  intro hsome
  by_contra hroomy
  have hnone := hp.guestAt_roomy slot (by simpa using hroomy)
  simp [show p.holder.get slot = none from hnone] at hsome

/-- The search of an empty slot, while no pair is in an unbounded slot. -/
theorem Filled.fills (hp : b.Filled p done) (hslot : b.roomy slot = false) (hnew : slot ∉ done) :
    let r := (b.fillSlot slot (.start p)).1
    b.Fills slot p r.1 r.2.placement := by
  intro r
  have hempty : p.holder.get slot = none := hp.holder_eq_none hnew
  cases hfound : r.1 with
  | false =>
    have hsame := (hp.not_fillable hslot hnew (Prod.ext hfound rfl)).1
    rw [show r.2.placement = p from hsame]
    exact .failed
  | true =>
    have hfilled := hp.fillSlot hslot hnew (Prod.ext hfound rfl)
    have hseeks := fillSlot_seeks b slot (.start p) hslot hp.bounded
    have hrun : (b.fillSlot slot (.start p)).1.1 = true := hfound
    rw [hrun] at hseeks
    have hadv := hseeks.advance hp.valid_flip (List.nodup_finRange pairs)
      fun pair hpair => nomatch hempty.symm.trans hpair
    obtain ⟨pair, hfree, htaken⟩ := hadv.taken
    have hseated : ∀ c : Fin slots, (r.2.placement.holder.get c).isSome ↔
        c = slot ∨ (p.holder.get c).isSome := hadv.seated
    have hnone : p.slotOf.get pair = none := hfree
    have hunplaced : pair ∉ p.placed := by simp [mem_placed, hnone]
    refine .filled ?_ ?_ hunplaced ?_
    · simp [hp.sound.mem_occupied_iff, hempty]
    · ext c
      rw [hfilled.sound.mem_occupied_iff, Finset.mem_insert, hp.sound.mem_occupied_iff]
      exact hseated c
    · ext x
      have hx : (r.2.placement.slotOf.get x).isSome ↔
          (p.slotOf.get x).isSome ∨ x = pair ∧ false = false := htaken x
      simp [mem_placed, hx, or_comm]

/-- What a search changes that has placed its pair. -/
theorem Sound.advance_claimPair (hp : b.Sound p) (hpair : p.slotOf.get pair = none)
    (hfound : (b.claimPair pair (.start p)).1.1 = true) :
    Seating.Advance b.roomy b.fits pair p.seating
      (b.claimPair pair (.start p)).1.2.placement.seating (List.finRange slots) := by
  have hseeks := claimPair_seeks b pair (.start p) hp.guestAt_roomy
  rw [hfound] at hseeks
  exact hseeks.advance hp (List.nodup_finRange slots)
    fun slot hslot => nomatch hpair.symm.trans hslot

theorem Sound.claimPair_eq_of_failed (hp : b.Sound p)
    (hfound : (b.claimPair pair (.start p)).1.1 = false) :
    (b.claimPair pair (.start p)).1.2.placement = p := by
  have hseeks := claimPair_seeks b pair (.start p) hp.guestAt_roomy
  rw [hfound] at hseeks
  exact Placement.eq_of_seating hseeks.eq_of_failed

theorem Sound.claimPair (hp : b.Sound p) (hpair : p.slotOf.get pair = none) :
    b.Sound (b.claimPair pair (.start p)).1.2.placement := by
  cases hfound : (b.claimPair pair (.start p)).1.1 with
  | false => rwa [hp.claimPair_eq_of_failed hfound]
  | true => exact (hp.advance_claimPair hpair hfound).valid hpair

/-- The search of a pair that is not placed. -/
theorem Sound.claims (hp : b.Sound p) (hpair : p.slotOf.get pair = none) :
    let r := (b.claimPair pair (.start p)).1
    b.Claims pair p r.1 r.2.placement := by
  intro r
  cases hfound : r.1 with
  | false =>
    rw [show r.2.placement = p from hp.claimPair_eq_of_failed hfound]
    exact .failed
  | true =>
    have hadv := hp.advance_claimPair hpair hfound
    have hq : b.Sound r.2.placement := hp.claimPair hpair
    have hseated : ∀ x : Fin pairs, (r.2.placement.slotOf.get x).isSome ↔
        x = pair ∨ (p.slotOf.get x).isSome := hadv.seated
    obtain ⟨slot, -, htaken⟩ := hadv.taken
    have hheld : ∀ c : Fin slots, (r.2.placement.holder.get c).isSome ↔
        (p.holder.get c).isSome ∨ c = slot ∧ b.roomy slot = false := htaken
    refine .placed ?_ ?_ ?_ ?_
    · simp [mem_placed, hpair]
    · ext x
      simp [mem_placed, hseated]
    · intro c hc
      rw [hp.mem_occupied_iff] at hc
      exact hq.mem_occupied_iff.mpr ((hheld c).mpr (.inl hc))
    · have hsub : b.occupied r.2.placement \ b.occupied p ⊆ {slot} := by
        intro c hc
        rw [Finset.mem_sdiff, hq.mem_occupied_iff, hp.mem_occupied_iff] at hc
        exact Finset.mem_singleton.mpr (((hheld c).mp hc.1).resolve_left hc.2).1
      exact (Finset.card_le_card hsub).trans_eq (Finset.card_singleton slot)

/-! ## All searches -/

/-- What holds between two searches. While slots are being filled, those done hold pairs and no
others do. Afterwards pairs may be in any slot. -/
inductive Orderly (b : Board pairs slots) : Progress pairs slots → Prop
  | filling {done rest : List (Fin slots)} {p : Placement pairs slots}
      (hsplit : b.requiredSlots = done ++ rest) (hfilled : b.Filled p done) :
      Orderly b ⟨.filling rest, p⟩
  | placing {rest : List (Fin pairs)} {p : Placement pairs slots} (hsound : b.Sound p) :
      Orderly b ⟨.placing rest, p⟩
  | short {done rest : List (Fin slots)} {slot : Fin slots} {p : Placement pairs slots}
      (hsplit : b.requiredSlots = done ++ slot :: rest) (hfilled : b.Filled p done) :
      Orderly b ⟨.short slot, p⟩

/-- The next required slot is bounded and holds no pair. -/
theorem next_slot (hb : b.Proper) {rest : List (Fin slots)}
    (hsplit : b.requiredSlots = done ++ slot :: rest) : b.roomy slot = false ∧ slot ∉ done := by
  have hmem : slot ∈ b.requiredSlots := by simp [hsplit]
  have hnodup := b.nodup_requiredSlots
  rw [hsplit] at hnodup
  exact ⟨hb slot (mem_requiredSlots.mp hmem), by grind⟩

theorem Orderly.step (hb : b.Proper) (hs : b.Orderly s) (h : b.Step s t) : b.Orderly t := by
  cases h with
  | filled h =>
    cases hs with
    | filling hsplit hfilled =>
      obtain ⟨hslot, hnew⟩ := next_slot hb hsplit
      exact .filling (by simpa using hsplit) (hfilled.fillSlot hslot hnew (Prod.ext h rfl))
  | short h =>
    cases hs with
    | filling hsplit hfilled =>
      obtain ⟨hslot, hnew⟩ := next_slot hb hsplit
      have hsame := (hfilled.not_fillable hslot hnew (Prod.ext h rfl)).1
      rw [hsame]
      exact .short hsplit hfilled
  | turned =>
    cases hs with
    | filling hsplit hfilled => exact .placing hfilled.sound
  | passed h =>
    cases hs with
    | placing hsound => exact .placing hsound
  | tried h =>
    cases hs with
    | placing hsound => exact .placing (hsound.claimPair h)

theorem Reaches.orderly (hb : b.Proper) (h : b.Reaches s) : b.Orderly s := by
  induction h with
  | refl => exact .filling (List.nil_append _).symm (filled_empty b)
  | tail _ hstep ih => exact ih.step hb hstep

theorem Orderly.sound (hs : b.Orderly s) : b.Sound s.placement := by
  cases hs with
  | filling _ hfilled => exact hfilled.sound
  | placing hsound => exact hsound
  | short _ hfilled => exact hfilled.sound

/-- Until pairs are placed, exactly some of the required slots hold pairs. -/
theorem Orderly.exists_filled (hs : b.Orderly s) (hstage : s.stage.isPlacing = false) :
    ∃ done, done ⊆ b.requiredSlots ∧ b.Filled s.placement done := by
  cases hs with
  | filling hsplit hfilled => exact ⟨_, by simp [hsplit], hfilled⟩
  | placing => cases hstage
  | short hsplit hfilled => exact ⟨_, by simp [hsplit], hfilled⟩

end Board

end ShapeMatch
