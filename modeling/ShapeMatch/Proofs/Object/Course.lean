import ShapeMatch.Proofs.Assignment.Course
import ShapeMatch.Proofs.Object.Reconciliation

/-!
# The course of claiming fields

Wildcards and the catch-all claim fields by one search after another. Between two searches the
placement is a matching of fields and slots, and each search either does what it is for or changes
nothing. This holds whatever the rules test and whatever the fields are.

## Main definitions

* `Board.IsMatching`: what a placement is between two searches.
* `Board.IsAtomic`: what the searches do that may follow.

## Main statements

* `ObjectRules.isMatching_of_reaches`: the placement is a matching all the time.
* `ObjectRules.isAtomic_of_reaches`: searches are atomic all the time.
-/

namespace ShapeMatch

variable {pairs slots : Nat}

namespace Board

/-- The two maps of a placement describe one matching of pairs and bounded slots. Unbounded slots
record nobody, pairs are where they fit, and before all required slots are filled no other slot
holds a pair. -/
structure IsMatching (b : Board pairs slots) (s : Progress pairs slots) : Prop where
  agree : ∀ pair slot, b.roomy slot = false →
    (s.placement.slotOf.get pair = some slot ↔ s.placement.holder.get slot = some pair)
  unrecorded : ∀ slot, b.roomy slot = true → s.placement.holder.get slot = none
  accepted : ∀ pair slot, s.placement.slotOf.get pair = some slot → b.fits pair slot = true
  required_first : s.stage.isPlacing = false → ∀ pair slot,
    s.placement.slotOf.get pair = some slot → (b.slot.get slot).required = true

/-- A search that may follow does all it is for or nothing: that of an empty bounded slot before
pairs are placed, as the slot that comes next is, and that of any pair that is not placed. -/
structure IsAtomic (b : Board pairs slots) (s : Progress pairs slots) : Prop where
  next : ∀ slot rest, s.stage = .filling (slot :: rest) →
    b.roomy slot = false ∧ s.placement.holder.get slot = none
  fills : s.stage.isPlacing = false → ∀ slot, b.roomy slot = false →
    s.placement.holder.get slot = none →
    let r := (b.fillSlot slot (.start s.placement)).1
    b.Fills slot s.placement r.1 r.2.placement
  claims : ∀ pair, s.placement.slotOf.get pair = none →
    let r := (b.claimPair pair (.start s.placement)).1
    b.Claims pair s.placement r.1 r.2.placement

variable {b : Board pairs slots} {s : Progress pairs slots}

theorem Orderly.isMatching (hs : b.Orderly s) : b.IsMatching s where
  agree pair slot hslot := (hs.sound.guestAt_iff pair slot hslot).symm
  unrecorded := hs.sound.guestAt_roomy
  accepted := hs.sound.fits_of_seatOf
  required_first hstage pair slot hpair := by
    obtain ⟨done, hdone, hfilled⟩ := hs.exists_filled hstage
    have hheld : s.placement.holder.get slot = some pair :=
      (hs.sound.guestAt_iff pair slot (hfilled.bounded pair slot hpair)).2 hpair
    have hmem := (hfilled.holder_isSome_iff slot).1 (by simp [hheld])
    exact mem_requiredSlots.mp (hdone hmem)

theorem Orderly.isAtomic (hb : b.Proper) (hs : b.Orderly s) : b.IsAtomic s where
  next slot rest hstage := by
    cases hs with
    | filling hsplit hfilled =>
      cases hstage
      obtain ⟨hslot, hnew⟩ := next_slot hb hsplit
      exact ⟨hslot, hfilled.holder_eq_none hnew⟩
    | placing | short => cases hstage
  fills hstage slot hslot hempty := by
    obtain ⟨done, -, hfilled⟩ := hs.exists_filled hstage
    refine hfilled.fills hslot ?_
    rw [← hfilled.holder_isSome_iff, hempty]
    simp
  claims pair hpair := hs.sound.claims hpair

end Board

namespace ObjectRules

/-- Between two searches the placement of fields is a matching. -/
theorem isMatching_of_reaches (rules : ObjectRules (Value → Bool)) (pending : Object)
    {s : Progress pending.length rules.slotCount} (hs : (rules.board pending).Reaches s) :
    (rules.board pending).IsMatching s :=
  (hs.orderly (rules.proper_board pending)).isMatching

/-- Of three fields, the first two fill the two wildcards, one of which asks for 1. The third takes
the place of the second, which moves on to the catch-all. -/
theorem isMatching_of_displaced_fields :
    let rules : ObjectRules (Value → Bool) :=
      ⟨[], [⟨⟨false, "*", fun _ => true⟩, []⟩, ⟨⟨false, "*x*", (·.deepEqual (.num (.int 1)))⟩, []⟩],
        some ⟨true, "(**)", fun _ => true⟩⟩
    let pending : Object := [("a", .num (.int 1)), ("b", .num (.int 2)), ("c", .num (.int 3))]
    ∃ q, (rules.board pending).Reaches ⟨.placing [], q⟩ ∧
      q.slotOf.toList.map (Option.map Fin.val) = [some 1, some 2, some 0] ∧
      q.holder.toList.map (Option.map Fin.val) = [some 2, some 0, none] ∧
      (rules.board pending).IsMatching ⟨.placing [], q⟩ := by
  intro rules pending
  have hrun : ((rules.board pending).settle.toOption.any fun q =>
      q.slotOf.toList.map (Option.map Fin.val) == [some 1, some 2, some 0] &&
        q.holder.toList.map (Option.map Fin.val) == [some 2, some 0, none]) = true := by
    decide +kernel
  obtain ⟨q, hq, hplaces⟩ := (Option.any_eq_true _ _).1 hrun
  obtain ⟨hslotOf, hholder⟩ := Bool.and_eq_true_iff.mp hplaces
  have hreaches := Board.settle_eq_ok_iff_reaches.mp (toOption_eq_some_iff.mp hq)
  exact ⟨q, hreaches, by simpa using hslotOf, by simpa using hholder,
    isMatching_of_reaches rules pending hreaches⟩

/-- A search changes nothing when it fails. When it succeeds it fills its slot and places one field,
or places its field and leaves filled slots filled. -/
theorem isAtomic_of_reaches (rules : ObjectRules (Value → Bool)) (pending : Object)
    {s : Progress pending.length rules.slotCount} (hs : (rules.board pending).Reaches s) :
    (rules.board pending).IsAtomic s :=
  (hs.orderly (rules.proper_board pending)).isAtomic (rules.proper_board pending)

/-- The second of two wildcards asks for 1, which the first has claimed. Its search succeeds: the
first wildcard claims the other field instead. -/
theorem isAtomic_of_displaced_field :
    let rules : ObjectRules (Value → Bool) :=
      ⟨[], [⟨⟨false, "*", fun _ => true⟩, []⟩, ⟨⟨false, "*x*", (·.deepEqual (.num (.int 1)))⟩, []⟩],
        none⟩
    let pending : Object := [("a", .num (.int 1)), ("b", .num (.int 2))]
    let b := rules.board pending
    ∃ p slot, b.Reaches ⟨.filling [slot], p⟩ ∧ b.IsAtomic ⟨.filling [slot], p⟩ ∧
      p.slotOf.toList.map (Option.map Fin.val) = [some 0, none] ∧
      (b.fillSlot slot (.start p)).1.1 = true ∧
      (b.fillSlot slot (.start p)).1.2.placement.slotOf.toList.map (Option.map Fin.val) =
        [some 1, some 0] := by
  intro rules pending b
  let first : Fin rules.slotCount := ⟨0, by decide⟩
  let second : Fin rules.slotCount := ⟨1, by decide⟩
  have hrequired : b.requiredSlots = [first, second] := by decide +kernel
  have hstart : b.Reaches ⟨.filling [first, second], .empty⟩ := by
    rw [← hrequired]
    exact .refl
  have hreaches := hstart.step (.filled (by decide +kernel))
  exact ⟨_, second, hreaches, isAtomic_of_reaches rules pending hreaches, by decide +kernel,
    by decide +kernel, by decide +kernel⟩

end ObjectRules

end ShapeMatch
