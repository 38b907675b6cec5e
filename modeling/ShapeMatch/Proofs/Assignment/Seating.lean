import Mathlib.Data.Fintype.Card

/-!
# Seatings and augmenting searches

Guests look for seats. A guest who finds a seat taken has the one who sits there look for another,
and a seat once tried is not tried again. Both searches of an assignment are this one search: a
slot looks for a pair, or a pair looks for a slot. Here it is a relation on the two views of a
seating, so that what holds of it is proved once.

A roomy seat has room for any number of guests and does not record them.

## Main statements

* `Seeks.advance`: what a successful search changes, and that a valid seating stays valid.
* `Seeks.eq_of_failed`, `Seeks.exists_blocked_of_failed`: a failed search changes nothing and
  leaves a set of seats that are all taken and cannot be left.
* `Seeks.failed_of_blocked`, `Seeks.guestAt_of_blocked`: later searches never disturb such a set.
* `card_le_of_blocked`: such a set bounds what any other seating can do.
-/

namespace ShapeMatch

/-- Where each guest sits and who sits at each seat. -/
structure Seating (α β : Type) where
  seatOf : α → Option β
  guestAt : β → Option α

namespace Seating

variable {α β : Type} (roomy : β → Bool) (fits : α → β → Bool)

/-- The two views agree, and guests sit where they fit. -/
structure Valid (s : Seating α β) : Prop where
  guestAt_iff : ∀ a b, roomy b = false → (s.guestAt b = some a ↔ s.seatOf a = some b)
  guestAt_roomy : ∀ b, roomy b = true → s.guestAt b = none
  fits_of_seatOf : ∀ a b, s.seatOf a = some b → fits a b = true

section

variable [DecidableEq α] [DecidableEq β]

/-- Seats a guest. Whoever sat there, and the guest's former seat, are not updated. -/
def take (s : Seating α β) (a : α) (b : β) : Seating α β where
  seatOf x := if x = a then some b else s.seatOf x
  guestAt c := if c = b ∧ roomy b = false then some a else s.guestAt c

@[grind =] theorem seatOf_take (s : Seating α β) (a x : α) (b : β) :
    (s.take roomy a b).seatOf x = if x = a then some b else s.seatOf x := rfl

@[grind =] theorem guestAt_take (s : Seating α β) (a : α) (b c : β) :
    (s.take roomy a b).guestAt c = if c = b ∧ roomy b = false then some a else s.guestAt c := rfl

/-- A guest looks for a seat among the untried ones: the outcome, the seating and the seats
still untried at the end. -/
inductive Seeks : α → Seating α β → List β → Bool → Seating α β → List β → Prop
  | exhausted {a s untried} (hnone : untried.find? (fits a) = none) :
      Seeks a s untried false s untried
  | vacant {a s untried b} (hfind : untried.find? (fits a) = some b)
      (hb : s.guestAt b = none) :
      Seeks a s untried true (s.take roomy a b) (untried.erase b)
  | moved {a s untried b x t rest} (hfind : untried.find? (fits a) = some b)
      (hb : s.guestAt b = some x) (hx : Seeks x s (untried.erase b) true t rest) :
      Seeks a s untried true (t.take roomy a b) rest
  | stuck {a s untried b x t rest found u last} (hfind : untried.find? (fits a) = some b)
      (hb : s.guestAt b = some x) (hx : Seeks x s (untried.erase b) false t rest)
      (ha : Seeks a t rest found u last) :
      Seeks a s untried found u last

end

/-- What has changed from `s` to `t` when a search for guest `a` has succeeded. The former seat of
`a` still names `a`: whoever displaced `a` is about to take it. -/
structure Advance (a : α) (s t : Seating α β) (untried : List β) : Prop where
  guestAt_iff : ∀ x b, roomy b = false → s.seatOf a ≠ some b →
    (t.guestAt b = some x ↔ t.seatOf x = some b)
  left : ∀ b, s.seatOf a = some b → ∀ x, t.seatOf x ≠ some b
  guestAt_roomy : ∀ b, roomy b = true → t.guestAt b = none
  fits_of_seatOf : ∀ x b, t.seatOf x = some b → fits x b = true
  seated : ∀ x, (t.seatOf x).isSome ↔ x = a ∨ (s.seatOf x).isSome
  taken : ∃ b, s.guestAt b = none ∧
    ∀ c, (t.guestAt c).isSome ↔ (s.guestAt c).isSome ∨ c = b ∧ roomy b = false
  guestAt_kept : ∀ b ∉ untried, t.guestAt b = s.guestAt b
  seatOf_kept : ∀ x ≠ a, (∀ b ∈ untried, s.seatOf x ≠ some b) → t.seatOf x = s.seatOf x

variable {roomy fits} {a : α} {s t : Seating α β} {untried rest : List β} {found : Bool}

/-- Two guests share a seat only if it is roomy. -/
theorem Valid.eq_of_seatOf (hs : s.Valid roomy fits) {x : α} {b : β} (hb : roomy b = false)
    (ha : s.seatOf a = some b) (hx : s.seatOf x = some b) : a = x :=
  Option.some.inj (((hs.guestAt_iff a b hb).2 ha).symm.trans ((hs.guestAt_iff x b hb).2 hx))

/-- The seating seen from the other side: seats look for guests. -/
def flip (s : Seating α β) : Seating β α := ⟨s.guestAt, s.seatOf⟩

/-- Where no guest sits on a roomy seat, both sides see the same. -/
theorem valid_flip_iff (hbounded : ∀ a b, s.seatOf a = some b → roomy b = false) :
    s.flip.Valid (fun _ => false) (fun b a => fits a b) ↔ s.Valid roomy fits := by
  constructor
  · rintro ⟨hview, -, hfits⟩
    refine ⟨fun a b _ => (hview b a rfl).symm, ?_, ?_⟩
    · intro b hb
      by_contra hne
      obtain ⟨a, ha⟩ := Option.ne_none_iff_exists'.1 hne
      simp [hbounded a b ((hview b a rfl).2 ha)] at hb
    · intro a b h
      exact hfits b a ((hview b a rfl).1 h)
  · intro hs
    have hview : ∀ a b, s.seatOf a = some b ↔ s.guestAt b = some a := by
      intro a b
      refine ⟨fun h => (hs.guestAt_iff a b (hbounded a b h)).2 h, ?_⟩
      intro h
      cases hb : roomy b with
      | false => exact (hs.guestAt_iff a b hb).1 h
      | true => cases (hs.guestAt_roomy b hb).symm.trans h
    exact ⟨fun b a _ => hview a b, fun _ h => (nomatch h),
      fun b a h => hs.fits_of_seatOf a b ((hview a b).2 h)⟩

/-- A valid seating stays valid when a guest without a seat has found one. -/
theorem Advance.valid (h : Advance roomy fits a s t untried) (ha : s.seatOf a = none) :
    t.Valid roomy fits where
  guestAt_iff x b hb := h.guestAt_iff x b hb (by simp [ha])
  guestAt_roomy := h.guestAt_roomy
  fits_of_seatOf := h.fits_of_seatOf

/-- All seats of the set are taken, by guests whom no other seat fits. -/
def Blocked (fits : α → β → Bool) (s : Seating α β) (seats : Finset β) : Prop :=
  ∀ b ∈ seats, ∃ x, s.guestAt b = some x ∧ ∀ c, fits x c = true → c ∈ seats

theorem Blocked.union [DecidableEq β] {v w : Finset β} (hv : Blocked fits s v)
    (hw : Blocked fits s w) : Blocked fits s (v ∪ w) := by
  intro b hb
  rcases Finset.mem_union.mp hb with hb | hb
  · obtain ⟨x, hx, hc⟩ := hv b hb
    exact ⟨x, hx, fun c hfit => Finset.mem_union_left _ (hc c hfit)⟩
  · obtain ⟨x, hx, hc⟩ := hw b hb
    exact ⟨x, hx, fun c hfit => Finset.mem_union_right _ (hc c hfit)⟩

theorem Blocked.congr {w : Finset β} (hw : Blocked fits s w)
    (h : ∀ b ∈ w, t.guestAt b = s.guestAt b) : Blocked fits t w := by
  intro b hb
  rw [h b hb]
  exact hw b hb

theorem Blocked.roomy_eq_false (hs : s.Valid roomy fits) {w : Finset β} (hw : Blocked fits s w)
    {b : β} (hb : b ∈ w) : roomy b = false := by
  obtain ⟨x, hx, -⟩ := hw b hb
  by_contra hroomy
  simp [hs.guestAt_roomy b (by simpa using hroomy)] at hx

variable [DecidableEq α] [DecidableEq β]

/-! ## Failed searches -/

theorem Seeks.sublist (h : Seeks roomy fits a s untried found t rest) :
    rest.Sublist untried := by
  induction h with
  | exhausted => exact .refl _
  | vacant => exact List.erase_sublist
  | moved _ _ _ ih => exact ih.trans List.erase_sublist
  | stuck _ _ _ _ ihx iha => exact iha.trans (ihx.trans List.erase_sublist)

/-- A failed search changes nothing. -/
theorem Seeks.eq_of_failed (h : Seeks roomy fits a s untried false t rest) : t = s := by
  generalize hfound : false = found at h
  induction h with
  | exhausted => rfl
  | vacant | moved => cases hfound
  | stuck _ _ _ _ ihx iha => rw [iha hfound, ihx rfl]

/-- No seat left untried by a failed search fits its guest. -/
theorem Seeks.not_fits_of_failed (h : Seeks roomy fits a s untried false t rest) :
    ∀ b ∈ rest, fits a b = false := by
  generalize hfound : false = found at h
  induction h with
  | exhausted hnone => simpa using hnone
  | vacant | moved => cases hfound
  | stuck _ _ _ _ _ iha => exact iha hfound

/-- A seat tried by a failed search is taken by a guest whom no seat left untried fits. -/
theorem Seeks.tried_of_failed (h : Seeks roomy fits a s untried false t rest) :
    ∀ b ∈ untried, b ∉ rest → ∃ x, s.guestAt b = some x ∧ ∀ c ∈ rest, fits x c = false := by
  generalize hfound : false = found at h
  induction h with
  | exhausted => intro b hb hnot; exact absurd hb hnot
  | vacant | moved => cases hfound
  | @stuck a s untried b x t rest found u last hfind hb hx ha ihx iha =>
    subst hfound
    intro c hc hlast
    have hsub := ha.sublist.subset
    by_cases hcb : c = b
    · subst hcb
      exact ⟨x, hb, fun d hd => hx.not_fits_of_failed d (hsub hd)⟩
    · by_cases hrest : c ∈ rest
      · simpa [hx.eq_of_failed] using iha rfl c hrest hlast
      · obtain ⟨y, hy, hfits⟩ := ihx rfl c ((List.mem_erase_of_ne hcb).2 hc) hrest
        exact ⟨y, hy, fun d hd => hfits d (hsub hd)⟩

/-! ## Successful searches -/

/-- A successful search seats its guest, unseats nobody and keeps the views in agreement. The
induction needs that the guest's own seat, if any, has been tried before. -/
theorem Seeks.advance (h : Seeks roomy fits a s untried true t rest) (hs : s.Valid roomy fits)
    (hnodup : untried.Nodup) (hseat : ∀ b, s.seatOf a = some b → roomy b = false ∧ b ∉ untried) :
    Advance roomy fits a s t untried := by
  generalize hfound : true = found at h
  induction h with
  | exhausted => cases hfound
  | @vacant a s untried b hfind hb =>
    have hfit := List.find?_some hfind
    have hmem := List.mem_of_find?_eq_some hfind
    obtain ⟨hview, hroomy, hfits⟩ := id hs
    constructor
    case left =>
      intro c hc x hx
      by_cases hxa : x = a
      · grind
      · rw [seatOf_take, if_neg hxa] at hx
        exact hxa (hs.eq_of_seatOf (hseat c hc).1 hx hc)
    case taken => exact ⟨b, hb, by grind⟩
    all_goals grind
  | @moved a s untried b x t rest hfind hb hx ih =>
    have hfit := List.find?_some hfind
    have hmem := List.mem_of_find?_eq_some hfind
    obtain ⟨hview, hroomy, hfits⟩ := id hs
    have hb' : roomy b = false := by grind
    have hxb : s.seatOf x = some b := (hview x b hb').1 hb
    have hxa : x ≠ a := by grind
    have hsub : ∀ c ∈ untried.erase b, c ∈ untried := fun c => List.mem_of_mem_erase
    obtain ⟨tview, tleft, troomy, tfits, tseated, ttaken, tguest, tseat⟩ :=
      ih hs (hnodup.erase b) (by grind [List.Nodup.not_mem_erase]) rfl
    -- the guest of this call is untouched by the search for the one it displaces
    have ha : t.seatOf a = s.seatOf a := tseat a hxa.symm (by grind)
    constructor
    case left =>
      intro c hc y hy
      obtain ⟨hroom, hnot⟩ := hseat c hc
      by_cases hya : y = a
      · grind
      · rw [seatOf_take, if_neg hya] at hy
        have hguest := tguest c fun hmem => hnot (hsub c hmem)
        rw [(hview a c hroom).2 hc, (tview y c hroom (by grind)).2 hy] at hguest
        exact hya (Option.some.inj hguest)
    case seatOf_kept =>
      intro y hya hy
      have hyx : y ≠ x := by grind
      rw [seatOf_take, if_neg hya, tseat y hyx fun c hc => hy c (hsub c hc)]
    all_goals grind
  | @stuck a s untried b x t rest found u last hfind hb hx ha ihx iha =>
    have ht := hx.eq_of_failed
    subst ht hfound
    have hsub := hx.sublist.trans List.erase_sublist
    have hmem := hsub.subset
    obtain ⟨tview, tleft, troomy, tfits, tseated, ttaken, tguest, tseat⟩ :=
      iha hs (hnodup.sublist hsub) (by grind) rfl
    constructor <;> grind

/-! ## Blocked seats -/

/-- A guest whom only blocked seats fit finds none. -/
theorem Seeks.failed_of_blocked {w : Finset β} (h : Seeks roomy fits a s untried found t rest)
    (hw : Blocked fits s w) (ha : ∀ b, fits a b = true → b ∈ w) : found = false := by
  induction h with
  | exhausted => rfl
  | vacant hfind hb =>
    obtain ⟨x, hx, -⟩ := hw _ (ha _ (List.find?_some hfind))
    rw [hb] at hx
    cases hx
  | moved hfind hb _ ih =>
    obtain ⟨x, hx, hc⟩ := hw _ (ha _ (List.find?_some hfind))
    obtain rfl := Option.some.inj (hb.symm.trans hx)
    cases ih hw hc
  | stuck hfind hb hx _ _ iha =>
    exact iha (hw.congr fun b _ => by rw [hx.eq_of_failed]) ha

/-- A search leaves blocked seats to their guests: to enter the set it would have to get stuck
there. -/
theorem Seeks.guestAt_of_blocked {w : Finset β} (h : Seeks roomy fits a s untried found t rest)
    (hw : Blocked fits s w) : ∀ b ∈ w, t.guestAt b = s.guestAt b := by
  induction h with
  | exhausted => exact fun b _ => rfl
  | @vacant a s untried b hfind hb =>
    intro c hc
    obtain ⟨x, hx, -⟩ := hw c hc
    grind
  | @moved a s untried b x t rest hfind hb hx ih =>
    intro c hc
    have hne : c ≠ b := by
      rintro rfl
      obtain ⟨y, hy, hfits⟩ := hw c hc
      obtain rfl := Option.some.inj (hb.symm.trans hy)
      cases hx.failed_of_blocked hw hfits
    rw [guestAt_take, if_neg (by simp [hne]), ih hw c hc]
  | stuck hfind hb hx _ _ iha =>
    have ht := hx.eq_of_failed
    subst ht
    exact iha hw

/-- A search over all seats that fails leaves a blocked set with all seats that fit its guest. -/
theorem Seeks.exists_blocked_of_failed [Fintype β]
    (h : Seeks roomy fits a s untried false t rest)
    (hall : ∀ b, b ∈ untried) :
    ∃ w : Finset β, Blocked fits s w ∧ ∀ b, fits a b = true → b ∈ w := by
  refine ⟨Finset.univ.filter (· ∉ rest), ?_, ?_⟩
  · intro b hb
    obtain ⟨x, hx, hfits⟩ := h.tried_of_failed b (hall b) (by simpa using hb)
    refine ⟨x, hx, ?_⟩
    intro c hc
    simp only [Finset.mem_filter, Finset.mem_univ, true_and]
    intro hcrest
    simp [hfits c hcrest] at hc
  · intro b hb
    simp only [Finset.mem_filter, Finset.mem_univ, true_and]
    intro hrest
    simp [h.not_fits_of_failed b hrest] at hb

/-- The guests who sit on the seats of a set. -/
def guestsAt [Fintype α] (s : Seating α β) (seats : Finset β) : Finset α :=
  Finset.univ.filter fun a => ∃ b ∈ seats, s.guestAt b = some a

omit [DecidableEq β] in
theorem mem_guestsAt [Fintype α] {seats : Finset β} :
    a ∈ s.guestsAt seats ↔ ∃ b ∈ seats, s.guestAt b = some a := by
  simp [guestsAt]

omit [DecidableEq β] in
/-- The guests of a blocked set sit there, and nothing else fits them. -/
theorem Blocked.seatOf_guest [Fintype α] (hs : s.Valid roomy fits) {w : Finset β}
    (hw : Blocked fits s w) (ha : a ∈ s.guestsAt w) :
    ∃ b ∈ w, s.seatOf a = some b ∧ ∀ c, fits a c = true → c ∈ w := by
  obtain ⟨b, hb, hab⟩ := mem_guestsAt.mp ha
  obtain ⟨x, hx, hfit⟩ := hw b hb
  obtain rfl := Option.some.inj (hab.symm.trans hx)
  exact ⟨b, hb, (hs.guestAt_iff a b (hw.roomy_eq_false hs hb)).1 hab, hfit⟩

/-- Every blocked seat is the seat of its guest, and of no other. -/
theorem Blocked.card_le_card_guestsAt [Fintype α] (hs : s.Valid roomy fits) {w : Finset β}
    (hw : Blocked fits s w) : w.card ≤ (s.guestsAt w).card := by
  have hsub : w.image some ⊆ (s.guestsAt w).image s.seatOf := by
    intro o ho
    obtain ⟨b, hb, rfl⟩ := Finset.mem_image.mp ho
    obtain ⟨x, hx, -⟩ := hw b hb
    have hxw : x ∈ s.guestsAt w := mem_guestsAt.mpr ⟨b, hb, hx⟩
    exact Finset.mem_image.mpr ⟨x, hxw, (hs.guestAt_iff x b (hw.roomy_eq_false hs hb)).1 hx⟩
  calc w.card = (w.image some).card :=
        (Finset.card_image_of_injective w (Option.some_injective β)).symm
    _ ≤ ((s.guestsAt w).image s.seatOf).card := Finset.card_le_card hsub
    _ ≤ (s.guestsAt w).card := Finset.card_image_le

omit [DecidableEq α] in
/-- Guests who are given seats of a set, none of them roomy, are given different seats. -/
theorem card_seated_le {w : Finset β} (hbounded : ∀ b ∈ w, roomy b = false) {guests : Finset α}
    {seat : α → Option β} (hin : ∀ a ∈ guests, ∀ b, seat a = some b → b ∈ w)
    (hinj : ∀ a a' b, roomy b = false → seat a = some b → seat a' = some b → a = a') :
    (guests.filter fun a => ¬ seat a = none).card ≤ w.card := by
  rw [← Finset.card_image_of_injective w (Option.some_injective β)]
  apply Finset.card_le_card_of_injOn seat
  · intro a ha
    obtain ⟨ha, hsome⟩ := Finset.mem_filter.mp ha
    obtain ⟨b, hb⟩ := Option.ne_none_iff_exists'.1 hsome
    simpa [hb] using hin a ha b hb
  · intro a ha a' ha' heq
    obtain ⟨ha, hsome⟩ := Finset.mem_filter.mp ha
    obtain ⟨b, hb⟩ := Option.ne_none_iff_exists'.1 hsome
    exact hinj a a' b (hbounded b (hin a ha b hb)) hb (heq ▸ hb)

/-- If a blocked set holds all seats that fit some guests without seats, then whatever seats
else are given to these guests and those on the set, as many of them go without. -/
theorem card_le_of_blocked [Fintype α] (hs : s.Valid roomy fits) {w : Finset β}
    (hw : Blocked fits s w) {waiting : Finset α}
    (hwait : ∀ a ∈ waiting, s.seatOf a = none ∧ ∀ b, fits a b = true → b ∈ w)
    {seat : α → Option β} (hfits : ∀ a b, seat a = some b → fits a b = true)
    (hinj : ∀ a a' b, roomy b = false → seat a = some b → seat a' = some b → a = a') :
    waiting.card ≤ ((waiting ∪ s.guestsAt w).filter fun a => seat a = none).card := by
  have hdisjoint : Disjoint waiting (s.guestsAt w) := by
    rw [Finset.disjoint_left]
    intro a ha hseated
    obtain ⟨b, -, hb, -⟩ := hw.seatOf_guest hs hseated
    simp [(hwait a ha).1] at hb
  have hin : ∀ a ∈ waiting ∪ s.guestsAt w, ∀ b, seat a = some b → b ∈ w := by
    intro a ha b hab
    rcases Finset.mem_union.mp ha with ha | ha
    · exact (hwait a ha).2 b (hfits a b hab)
    · obtain ⟨-, -, -, hfit⟩ := hw.seatOf_guest hs ha
      exact hfit b (hfits a b hab)
  have hseated := card_seated_le (fun b => hw.roomy_eq_false hs) hin hinj
  have hguests := hw.card_le_card_guestsAt hs
  have hsplit := Finset.card_filter_add_card_filter_not (s := waiting ∪ s.guestsAt w)
    (fun a => seat a = none)
  rw [Finset.card_union_of_disjoint hdisjoint] at hsplit
  omega

end Seating

end ShapeMatch
