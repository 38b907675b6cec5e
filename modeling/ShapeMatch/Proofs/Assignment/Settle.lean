import ShapeMatch.Proofs.Assignment.Search

/-!
# What settling a board achieves

Required slots are filled one after another, then the remaining pairs are placed one after
another. Each search stops at a blocked set when it fails, and blocked sets stay blocked, so that
neither phase ever misses a better placement, whatever the order of pairs and slots.

## Main definitions

* `Board.Allows`, `Board.Serves`, `Board.Complete`: placements of some pairs, of some pairs with
  every required slot filled, and of all pairs with every required slot filled, as plain functions.
* `Board.Fillable`: some slots can be filled with different pairs.

## Main statements

* `Board.settle_ok`: the required slots are filled and as few pairs as possible are left.
* `Board.settle_error`: the slot reported is the first that cannot be filled with those before it.
* `Board.exists_settle_ok_iff`: settling succeeds exactly when the required slots can be filled.
* `Board.settle_unplaced_nil_iff`: every pair is placed exactly when a complete placement exists.
-/

namespace ShapeMatch

variable {pairs slots : Nat}

namespace Board

/-- Pairs are put where they fit, at most one into a bounded slot; some may be left out. -/
structure Allows (b : Board pairs slots) (f : Fin pairs → Option (Fin slots)) : Prop where
  fits : ∀ pair slot, f pair = some slot → b.fits pair slot = true
  bounded : ∀ pair pair' slot, b.roomy slot = false → f pair = some slot → f pair' = some slot →
    pair = pair'

/-- Pairs are put as the board allows, and every required slot holds one. -/
structure Serves (b : Board pairs slots) (f : Fin pairs → Option (Fin slots)) : Prop extends
    b.Allows f where
  required : ∀ slot : Fin slots, (b.slot.get slot).required = true → ∃ pair, f pair = some slot

/-- Every pair is put where it fits, at most one into a bounded slot and at least one into a
required slot. -/
structure Complete (b : Board pairs slots) (f : Fin pairs → Fin slots) : Prop where
  fits : ∀ pair, b.fits pair (f pair) = true
  bounded : ∀ pair pair', f pair = f pair' → b.roomy (f pair) = false → pair = pair'
  required : ∀ slot : Fin slots, (b.slot.get slot).required = true → ∃ pair, f pair = slot

/-- The listed slots can be filled with different pairs that fit them. -/
def Fillable (b : Board pairs slots) (l : List (Fin slots)) : Prop :=
  ∃ pick : Fin slots → Option (Fin pairs), (∀ slot ∈ l, (pick slot).isSome) ∧
    (∀ slot pair, pick slot = some pair → b.fits pair slot = true) ∧
    ∀ slot slot' pair, pick slot = some pair → pick slot' = some pair → slot = slot'

/-- A slot that must be filled holds one pair only. -/
def Proper (b : Board pairs slots) : Prop :=
  ∀ slot : Fin slots, (b.slot.get slot).required = true → b.roomy slot = false

variable {b : Board pairs slots} {p q : Placement pairs slots}

/-! ## Filling required slots -/

/-- A placement in which exactly the listed slots hold pairs, all of them bounded. -/
structure Filled (b : Board pairs slots) (p : Placement pairs slots) (done : List (Fin slots)) :
    Prop where
  sound : b.Sound p
  bounded : b.Bounded p
  holder_isSome_iff : ∀ slot : Fin slots, (p.holder.get slot).isSome ↔ slot ∈ done

variable {slot : Fin slots} {done rest : List (Fin slots)}

theorem filled_empty (b : Board pairs slots) : b.Filled .empty [] :=
  ⟨sound_empty b, bounded_empty b, by simp [Placement.empty, Vector.get]⟩

theorem Filled.valid_flip (hp : b.Filled p done) :
    p.seating.flip.Valid (fun _ => false) (fun slot pair => b.fits pair slot) :=
  (Seating.valid_flip_iff (s := p.seating) hp.bounded).2 hp.sound

theorem Filled.holder_eq_none (hp : b.Filled p done) (hnew : slot ∉ done) :
    p.holder.get slot = none := by
  rw [← Option.not_isSome_iff_eq_none, hp.holder_isSome_iff]
  exact hnew

/-- A slot that holds a pair is bounded. -/
theorem Filled.roomy_eq_false (hp : b.Filled p done) (hslot : slot ∈ done) :
    b.roomy slot = false := by
  obtain ⟨pair, hpair⟩ := Option.isSome_iff_exists.mp ((hp.holder_isSome_iff slot).2 hslot)
  exact hp.bounded pair slot ((hp.valid_flip.guestAt_iff slot pair rfl).2 hpair)

theorem Filled.fillable (hp : b.Filled p done) : b.Fillable done := by
  refine ⟨fun slot => p.holder.get slot, fun slot hslot => (hp.holder_isSome_iff slot).2 hslot,
    hp.valid_flip.fits_of_seatOf, fun slot slot' pair h h' => ?_⟩
  exact hp.valid_flip.eq_of_seatOf rfl h h'

/-- Filling one more slot leaves the others filled. -/
theorem Filled.fillSlot (hp : b.Filled p done) (hslot : b.roomy slot = false)
    (hnew : slot ∉ done) {s : Search pairs slots pairs}
    (h : (b.fillSlot slot (.start p)).1 = (true, s)) : b.Filled s.placement (done ++ [slot]) := by
  have hempty : p.seating.flip.seatOf slot = none := hp.holder_eq_none hnew
  have hseeks := fillSlot_seeks b slot (.start p) hslot hp.bounded
  rw [h] at hseeks
  have hadv := hseeks.advance hp.valid_flip (List.nodup_finRange pairs)
    fun pair hpair => nomatch hempty.symm.trans hpair
  have hvalid := hadv.valid hempty
  have hsome : ∀ c : Fin slots, (s.placement.holder.get c).isSome ↔ c ∈ done ++ [slot] := by
    intro c
    rw [List.mem_append, List.mem_singleton, or_comm, ← hp.holder_isSome_iff]
    exact hadv.seated c
  have hbounded : b.Bounded s.placement := by
    intro pair c hc
    have hseat : s.placement.holder.get c = some pair := (hvalid.guestAt_iff c pair rfl).1 hc
    have hmem := (hsome c).1 (by simp [hseat])
    rcases List.mem_append.mp hmem with hmem | hmem
    · exact hp.roomy_eq_false hmem
    · rwa [List.mem_singleton.mp hmem]
  exact ⟨(Seating.valid_flip_iff (s := s.placement.seating) hbounded).1 hvalid, hbounded, hsome⟩

/-- A slot that cannot be filled by a search cannot be filled along with the others at all. -/
theorem Filled.not_fillable (hp : b.Filled p done) (hslot : b.roomy slot = false)
    (hnew : slot ∉ done) {s : Search pairs slots pairs}
    (h : (b.fillSlot slot (.start p)).1 = (false, s)) :
    s.placement = p ∧ ¬ b.Fillable (done ++ [slot]) := by
  have hseeks := fillSlot_seeks b slot (.start p) hslot hp.bounded
  rw [h] at hseeks
  have hflip : s.placement.seating.flip = p.seating.flip := hseeks.eq_of_failed
  refine ⟨Placement.eq_of_seating (congrArg Seating.flip hflip), ?_⟩
  rintro ⟨pick, hsome, hfits, hinj⟩
  obtain ⟨w, hblocked, hw⟩ := hseeks.exists_blocked_of_failed List.mem_finRange
  have hwaiting : ∀ c ∈ ({slot} : Finset (Fin slots)), p.seating.flip.seatOf c = none ∧
      ∀ pair, b.fits pair c = true → pair ∈ w := by
    simpa using ⟨hp.holder_eq_none hnew, hw⟩
  have hcard := Seating.card_le_of_blocked hp.valid_flip hblocked hwaiting hfits
    fun c c' pair _ => hinj c c' pair
  -- the slot and those whose pairs are blocked would all have to be picked for
  rw [Finset.filter_false_of_mem, Finset.card_singleton, Finset.card_empty] at hcard
  · omega
  · intro c hc hnone
    have hmem : c ∈ done ++ [slot] := by
      rcases Finset.mem_union.mp hc with hc | hc
      · simp [Finset.mem_singleton.mp hc]
      · obtain ⟨pair, -, hpair⟩ := Seating.mem_guestsAt.mp hc
        have hseat : p.holder.get c = some pair := (hp.valid_flip.guestAt_iff c pair rfl).1 hpair
        exact List.mem_append_left _ ((hp.holder_isSome_iff c).1 (by simp [hseat]))
    simpa [hnone] using hsome c hmem

theorem Filled.fillAll_ok (hp : b.Filled p done) (hrest : ∀ slot ∈ rest, b.roomy slot = false)
    (hnodup : (done ++ rest).Nodup) (h : b.fillAll p rest = .ok q) :
    b.Filled q (done ++ rest) := by
  induction rest generalizing p done with
  | nil =>
    cases h
    simpa using hp
  | cons slot rest ih =>
    have hnew : slot ∉ done := by grind
    rw [fillAll] at h
    split at h
    next s hs =>
      have hp' := hp.fillSlot (hrest slot (by simp)) hnew hs
      simpa using ih hp' (fun c hc => hrest c (by simp [hc])) (by simpa using hnodup) h
    next => cases h

theorem Filled.fillAll_error (hp : b.Filled p done) (hrest : ∀ slot ∈ rest, b.roomy slot = false)
    (hnodup : (done ++ rest).Nodup) {e : Shortage pairs slots} (h : b.fillAll p rest = .error e) :
    ∃ before after, rest = before ++ e.slot :: after ∧ b.Filled e.placement (done ++ before) ∧
      ¬ b.Fillable (done ++ before ++ [e.slot]) := by
  induction rest generalizing p done with
  | nil => cases h
  | cons slot rest ih =>
    have hslot := hrest slot (by simp)
    have hnew : slot ∉ done := by grind
    rw [fillAll] at h
    split at h
    next s hs =>
      have hp' := hp.fillSlot hslot hnew hs
      obtain ⟨before, after, hsplit, hfilled, hnot⟩ :=
        ih hp' (fun c hc => hrest c (by simp [hc])) (by simpa using hnodup) h
      exact ⟨slot :: before, after, by simp [hsplit], by simpa using hfilled, by simpa using hnot⟩
    next s hs =>
      cases h
      obtain ⟨hsame, hnot⟩ := hp.not_fillable hslot hnew hs
      exact ⟨[], rest, rfl, by simpa [hsame] using hp, by simpa using hnot⟩

/-! ## Placing the remaining pairs -/

/-- A sound placement in which the pairs tried and left over cannot be placed: the slots that fit
them are blocked. -/
structure Stalled (b : Board pairs slots) (p : Placement pairs slots) (tried : Fin pairs → Prop) :
    Prop where
  sound : b.Sound p
  exists_blocked : ∃ w, Seating.Blocked b.fits p.seating w ∧
    ∀ pair, tried pair → p.slotOf.get pair = none → ∀ slot, b.fits pair slot = true → slot ∈ w

variable {pair : Fin pairs} {tried : Fin pairs → Prop}

theorem Stalled.mono {tried' : Fin pairs → Prop} (hp : b.Stalled p tried)
    (h : ∀ pair, tried' pair → tried pair ∨ (p.slotOf.get pair).isSome) : b.Stalled p tried' := by
  obtain ⟨hsound, w, hw, htried⟩ := hp
  refine ⟨hsound, w, hw, ?_⟩
  intro pair hpair hnone
  rcases h pair hpair with hpair | hsome
  · exact htried pair hpair hnone
  · simp [hnone] at hsome

/-- One more pair is placed or found to be stuck, and filled slots stay filled. -/
theorem Stalled.claimPair (hp : b.Stalled p tried) (hpair : p.slotOf.get pair = none) {found : Bool}
    {s : Search pairs slots slots} (h : (b.claimPair pair (.start p)).1 = (found, s)) :
    b.Stalled s.placement (fun x => tried x ∨ x = pair) ∧
      ∀ slot : Fin slots, (p.holder.get slot).isSome → (s.placement.holder.get slot).isSome := by
  obtain ⟨hsound, w, hw, htried⟩ := hp
  have hempty : p.seating.seatOf pair = none := hpair
  have hseeks := claimPair_seeks b pair (.start p) hsound.guestAt_roomy
  rw [h] at hseeks
  cases found with
  | true =>
    have hadv := hseeks.advance hsound (List.nodup_finRange slots)
      fun slot hslot => nomatch hempty.symm.trans hslot
    refine ⟨⟨hadv.valid hempty, w, hw.congr (hseeks.guestAt_of_blocked hw), ?_⟩, ?_⟩
    · intro x hx hnone
      have hseated : (s.placement.slotOf.get x).isSome ↔ x = pair ∨ (p.slotOf.get x).isSome :=
        hadv.seated x
      rw [hnone] at hseated
      simp only [Option.isSome_none, Bool.false_eq_true, false_iff, not_or,
        Option.not_isSome_iff_eq_none] at hseated
      exact htried x (hx.resolve_right hseated.1) hseated.2
    · intro slot hslot
      obtain ⟨c, -, htaken⟩ := hadv.taken
      exact (htaken slot).2 (.inl hslot)
  | false =>
    have hsame : s.placement = p := Placement.eq_of_seating hseeks.eq_of_failed
    obtain ⟨v, hv, hfits⟩ := hseeks.exists_blocked_of_failed List.mem_finRange
    rw [hsame]
    refine ⟨⟨hsound, w ∪ v, hw.union hv, ?_⟩, fun slot hslot => hslot⟩
    rintro x (hx | rfl) hnone slot hslot
    · exact Finset.mem_union_left _ (htried x hx hnone slot hslot)
    · exact Finset.mem_union_right _ (hfits slot hslot)

/-- Trying pairs one after another stalls on all of them. -/
theorem Stalled.claimAll {rest : List (Fin pairs)} (hp : b.Stalled p (· ∉ rest)) :
    b.Stalled (b.claimAll p rest) (fun _ => True) ∧
      ∀ slot : Fin slots, (p.holder.get slot).isSome →
        ((b.claimAll p rest).holder.get slot).isSome := by
  induction rest generalizing p with
  | nil => exact ⟨hp.mono fun _ _ => .inl (by simp), fun _ h => h⟩
  | cons pair rest ih =>
    rw [Board.claimAll]
    split
    next slot hslot =>
      refine ih (hp.mono fun x hx => ?_)
      by_cases hxp : x = pair
      · subst hxp
        exact .inr (Option.isSome_of_eq_some hslot)
      · exact .inl (by simp [hxp, hx])
    next hnone =>
      obtain ⟨hstalled, hkept⟩ := hp.claimPair hnone rfl
      obtain ⟨hall, hkept'⟩ := ih (hstalled.mono fun x hx => .inl (by simp [hx, em']))
      exact ⟨hall, fun slot h => hkept' slot (hkept slot h)⟩

theorem mem_unplaced {p : Placement pairs slots} {pair : Fin pairs} :
    pair ∈ p.unplaced ↔ p.slotOf.get pair = none := by
  simp [Placement.unplaced, Vector.get]

theorem length_unplaced (p : Placement pairs slots) :
    p.unplaced.length =
      (Finset.univ.filter fun pair : Fin pairs => p.slotOf.get pair = none).card := by
  have hnodup : p.unplaced.Nodup := (List.nodup_finRange pairs).filter _
  rw [← List.toFinset_card_of_nodup hnodup]
  congr 1
  ext pair
  simp [mem_unplaced]

/-- A stalled placement leaves as few pairs over as any. -/
theorem Stalled.unplaced_le (hp : b.Stalled p fun _ => True) {f : Fin pairs → Option (Fin slots)}
    (hf : b.Allows f) :
    p.unplaced.length ≤ (Finset.univ.filter fun pair => f pair = none).card := by
  obtain ⟨hsound, w, hw, hstuck⟩ := hp
  rw [length_unplaced]
  refine (Seating.card_le_of_blocked hsound hw (fun pair hpair => ?_) hf.fits
    fun x y slot hslot hx hy => hf.bounded x y slot hslot hx hy).trans ?_
  · have hnone := (Finset.mem_filter.mp hpair).2
    exact ⟨hnone, hstuck pair trivial hnone⟩
  · exact Finset.card_le_card (Finset.filter_subset_filter _ (Finset.subset_univ _))

/-! ## Both phases -/

theorem nodup_requiredSlots (b : Board pairs slots) : b.requiredSlots.Nodup :=
  (List.nodup_finRange slots).filter _

theorem mem_requiredSlots {b : Board pairs slots} {slot : Fin slots} :
    slot ∈ b.requiredSlots ↔ (b.slot.get slot).required = true := by
  simp [requiredSlots, Vector.get]

theorem settle_ok (hb : b.Proper) (h : b.settle = .ok q) :
    b.Sound q ∧ b.Fillable b.requiredSlots ∧
      (∀ slot ∈ b.requiredSlots, (q.holder.get slot).isSome) ∧
      ∀ f, b.Allows f →
        q.unplaced.length ≤ (Finset.univ.filter fun pair => f pair = none).card := by
  rw [settle] at h
  cases hfill : b.fillAll .empty b.requiredSlots with
  | error e => simp [hfill, Except.map] at h
  | ok p =>
    have hq : b.claimAll p (List.finRange pairs) = q := by simpa [hfill, Except.map] using h
    have hp := (filled_empty b).fillAll_ok (fun slot hslot => hb slot (mem_requiredSlots.mp hslot))
      (nodup_requiredSlots b) hfill
    have hstalled : b.Stalled p (· ∉ List.finRange pairs) :=
      ⟨hp.sound, ∅, by simp [Seating.Blocked], by simp⟩
    obtain ⟨hall, hkept⟩ := hstalled.claimAll
    rw [hq] at hall hkept
    exact ⟨hall.sound, hp.fillable,
      fun slot hslot => hkept slot ((hp.holder_isSome_iff slot).2 hslot),
      fun f hf => hall.unplaced_le hf⟩

theorem settle_error (hb : b.Proper) {e : Shortage pairs slots} (h : b.settle = .error e) :
    ∃ before after, b.requiredSlots = before ++ e.slot :: after ∧ b.Fillable before ∧
      ¬ b.Fillable (before ++ [e.slot]) ∧
      ∀ slot : Fin slots, (e.placement.holder.get slot).isSome ↔ slot ∈ before := by
  rw [settle] at h
  cases hfill : b.fillAll .empty b.requiredSlots with
  | ok p => simp [hfill, Except.map] at h
  | error e' =>
    obtain rfl : e' = e := by simpa [hfill, Except.map] using h
    obtain ⟨before, after, hsplit, hfilled, hnot⟩ := (filled_empty b).fillAll_error
      (fun slot hslot => hb slot (mem_requiredSlots.mp hslot)) (nodup_requiredSlots b) hfill
    exact ⟨before, after, hsplit, hfilled.fillable, hnot, hfilled.holder_isSome_iff⟩

theorem Fillable.mono {l l' : List (Fin slots)} (h : b.Fillable l) (hsub : l' ⊆ l) :
    b.Fillable l' := by
  obtain ⟨pick, hsome, hrest⟩ := h
  exact ⟨pick, fun slot hslot => hsome slot (hsub hslot), hrest⟩

/-- A placement that fills every required slot shows that these can be filled. -/
theorem Serves.fillable {f : Fin pairs → Option (Fin slots)} (hf : b.Serves f) :
    b.Fillable b.requiredSlots := by
  have hpick : ∀ slot, ∃ o : Option (Fin pairs), (slot ∈ b.requiredSlots → o.isSome) ∧
      ∀ pair, o = some pair → f pair = some slot := by
    intro slot
    by_cases hslot : slot ∈ b.requiredSlots
    · obtain ⟨pair, hpair⟩ := hf.required slot (mem_requiredSlots.mp hslot)
      exact ⟨some pair, fun _ => rfl, fun x hx => Option.some.inj hx ▸ hpair⟩
    · exact ⟨none, fun h => absurd h hslot, fun x hx => nomatch hx⟩
  choose pick hsome hslot using hpick
  refine ⟨pick, hsome, fun slot pair h => hf.fits pair slot (hslot slot pair h), ?_⟩
  intro slot slot' pair h h'
  exact Option.some.inj ((hslot slot pair h).symm.trans (hslot slot' pair h'))

/-- The pairs that are placed are placed as the board allows. -/
theorem Sound.allows (h : b.Sound q) : b.Allows fun pair => q.slotOf.get pair :=
  ⟨h.fits_of_seatOf, fun _ _ _ hslot hpair hpair' => h.eq_of_seatOf hslot hpair hpair'⟩

/-- A sound placement in which every required slot holds a pair. -/
theorem Sound.serves (h : b.Sound q) (hb : b.Proper)
    (hrequired : ∀ slot ∈ b.requiredSlots, (q.holder.get slot).isSome) :
    b.Serves fun pair => q.slotOf.get pair where
  toAllows := h.allows
  required slot hslot := by
    obtain ⟨pair, hpair⟩ :=
      Option.isSome_iff_exists.mp (hrequired slot (mem_requiredSlots.mpr hslot))
    exact ⟨pair, (h.guestAt_iff pair slot (hb slot hslot)).1 hpair⟩

theorem complete_iff_serves {f : Fin pairs → Fin slots} :
    b.Complete f ↔ b.Serves fun pair => some (f pair) := by
  constructor
  · rintro ⟨hfits, hbounded, hrequired⟩
    refine ⟨⟨?_, ?_⟩, ?_⟩
    · rintro pair _ ⟨⟩
      exact hfits pair
    · rintro pair pair' _ hslot ⟨⟩ h'
      exact hbounded pair pair' (Option.some.inj h').symm hslot
    · simpa using hrequired
  · rintro ⟨⟨hfits, hbounded⟩, hrequired⟩
    refine ⟨fun pair => hfits pair _ rfl, ?_, by simpa using hrequired⟩
    exact fun pair pair' h hslot => hbounded pair pair' _ hslot rfl (congrArg some h.symm)

/-- Settling succeeds exactly when some placement fills every required slot. -/
theorem exists_settle_ok_iff (hb : b.Proper) :
    (∃ q, b.settle = .ok q) ↔ ∃ f, b.Serves f := by
  constructor
  · rintro ⟨q, hq⟩
    obtain ⟨hsound, -, hrequired, -⟩ := settle_ok hb hq
    exact ⟨_, hsound.serves hb hrequired⟩
  · rintro ⟨f, hf⟩
    cases h : b.settle with
    | ok q => exact ⟨q, rfl⟩
    | error e =>
      obtain ⟨before, after, hsplit, -, hnot, -⟩ := settle_error hb h
      exact absurd (hf.fillable.mono (by simp [hsplit])) hnot

/-- Settling places every pair exactly when some placement of all pairs fills every required
slot. -/
theorem settle_unplaced_nil_iff (hb : b.Proper) :
    (∃ q, b.settle = .ok q ∧ q.unplaced = []) ↔ ∃ f, b.Complete f := by
  constructor
  · rintro ⟨q, hq, hnil⟩
    obtain ⟨hsound, -, hrequired, -⟩ := settle_ok hb hq
    have hplaced : ∀ pair : Fin pairs, ∃ slot, q.slotOf.get pair = some slot := by
      intro pair
      have hmem : pair ∉ q.unplaced := by simp [hnil]
      exact Option.ne_none_iff_exists'.mp (mt mem_unplaced.mpr hmem)
    choose f hf using hplaced
    have hserves := hsound.serves hb hrequired
    rw [funext hf] at hserves
    exact ⟨f, complete_iff_serves.mpr hserves⟩
  · rintro ⟨f, hf⟩
    have hserves := complete_iff_serves.mp hf
    obtain ⟨q, hq⟩ := (exists_settle_ok_iff hb).mpr ⟨_, hserves⟩
    obtain ⟨-, -, -, hmin⟩ := settle_ok hb hq
    exact ⟨q, hq, List.length_eq_zero_iff.mp (by simpa using hmin _ hserves.toAllows)⟩

end Board

end ShapeMatch
