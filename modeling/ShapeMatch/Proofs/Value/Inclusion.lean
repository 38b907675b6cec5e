import Mathlib.Logic.Relation
import ShapeMatch.Proofs.Collection.Distinct
import ShapeMatch.Proofs.Value.DeepEqual

/-!
# Inclusion of documents

The equality that tells integers from doubles is an equivalence of documents. Inclusion of one list
of documents in another under it is therefore inclusion of their classes: neither the order of a
list nor how often it holds equal documents plays a role.

## Main definitions

* `Value.Within`: every document of one list equals one of another.
* `Value.RepeatStep`, `Value.SameUpToRepeats`: lists that differ in their order and in repetitions.

## Main statements

* `Value.isSubset_iff_within`: the test of inclusion decides inclusion.
* `Value.SameUpToRepeats.within`: what differs in repetitions includes each other.
* `Value.isSubset_is_inclusion`: the laws of inclusion.
-/

namespace ShapeMatch

namespace Value

/-! ## Equality -/

variable {u v w : Value}

theorem strictEq_self (hv : v.WellFormed) : v.strictEq v = true :=
  (eqBy_iff_alike hv hv).mpr (.refl Number.strictEq_self v)

theorem strictEq_symm (hv : v.WellFormed) (hw : w.WellFormed) (h : v.strictEq w = true) :
    w.strictEq v = true := by
  rw [strictEq, eqBy_iff_alike hv hw] at h
  exact (eqBy_iff_alike hw hv).mpr (h.symm fun _ _ => Number.strictEq_symm)

theorem strictEq_trans (hu : u.WellFormed) (hv : v.WellFormed) (hw : w.WellFormed)
    (huv : u.strictEq v = true) (hvw : v.strictEq w = true) : u.strictEq w = true := by
  rw [strictEq, eqBy_iff_alike hu hv] at huv
  rw [strictEq, eqBy_iff_alike hv hw] at hvw
  refine (eqBy_iff_alike hu hw).mpr (Alike.trans ?_ huv hvw)
  exact fun _ _ _ => Number.strictEq_trans

/-! ## Inclusion -/

variable {a a' b b' c : List Value}

/-- Every document of one list equals one of another. -/
def Within (a b : List Value) : Prop := ∀ x ∈ a, ∃ y ∈ b, x.strictEq y = true

theorem Within.of_subset (ha : ∀ x ∈ a, x.WellFormed) (h : a ⊆ b) : Within a b :=
  fun x hx => ⟨x, h hx, strictEq_self (ha x hx)⟩

theorem Within.trans (ha : ∀ x ∈ a, x.WellFormed) (hb : ∀ x ∈ b, x.WellFormed)
    (hc : ∀ x ∈ c, x.WellFormed) (hab : Within a b) (hbc : Within b c) : Within a c := by
  intro x hx
  obtain ⟨y, hy, hxy⟩ := hab x hx
  obtain ⟨z, hz, hyz⟩ := hbc y hy
  exact ⟨z, hz, strictEq_trans (ha x hx) (hb y hy) (hc z hz) hxy hyz⟩

/-- The test of inclusion, which looks for the distinct documents of the first list only, decides
inclusion. -/
theorem isSubset_iff_within (ha : ∀ x ∈ a, x.WellFormed) (hb : ∀ x ∈ b, x.WellFormed) :
    isSubset strictEq a b = true ↔ Within a b := by
  have htrans : ∀ z ∈ b, ∀ y ∈ a, ∀ x ∈ a, z.strictEq y = true → y.strictEq x = true →
      z.strictEq x = true :=
    fun z hz y hy x hx => strictEq_trans (hb z hz) (ha y hy) (ha x hx)
  rw [isSubset_iff_of_trans htrans]
  refine forall₂_congr fun x hx => exists_congr fun y => and_congr_right fun hy => ?_
  exact ⟨strictEq_symm (hb y hy) (ha x hx), strictEq_symm (ha x hx) (hb y hy)⟩

/-! ## Order and repetitions -/

/-- A list of documents is permuted, or a document is added to it that equals one of its own. -/
inductive RepeatStep : List Value → List Value → Prop
  | perm {a b : List Value} (h : a.Perm b) : RepeatStep a b
  | duplicate {a : List Value} {x y : Value} (hx : x ∈ a) (hy : y.WellFormed)
      (h : x.strictEq y = true) : RepeatStep a (y :: a)

/-- Lists of documents that are permuted and have repetitions added and removed, in any number of
steps. -/
def SameUpToRepeats : List Value → List Value → Prop := Relation.EqvGen RepeatStep

theorem RepeatStep.wellFormed_iff (h : RepeatStep a b) :
    (∀ x ∈ a, x.WellFormed) ↔ ∀ x ∈ b, x.WellFormed := by
  cases h with
  | perm h => simp only [h.mem_iff]
  | duplicate _ hy => rw [List.forall_mem_cons, and_iff_right hy]

theorem RepeatStep.within (h : RepeatStep a b) (ha : ∀ x ∈ a, x.WellFormed) :
    Within a b ∧ Within b a := by
  have hb := h.wellFormed_iff.mp ha
  cases h with
  | perm h => exact ⟨.of_subset ha h.subset, .of_subset hb h.symm.subset⟩
  | @duplicate x y hx hy h =>
    refine ⟨.of_subset ha (List.subset_cons_self y a), List.forall_mem_cons.mpr ⟨?_, ?_⟩⟩
    · exact ⟨x, hx, strictEq_symm (ha x hx) hy h⟩
    · exact Within.of_subset ha (List.Subset.refl a)

theorem SameUpToRepeats.wellFormed_iff (h : SameUpToRepeats a b) :
    (∀ x ∈ a, x.WellFormed) ↔ ∀ x ∈ b, x.WellFormed := by
  induction h with
  | rel _ _ hstep => exact hstep.wellFormed_iff
  | refl => rfl
  | symm _ _ _ ih => exact ih.symm
  | trans _ _ _ _ _ ih ih' => exact ih.trans ih'

/-- Lists that differ in order and repetitions include each other. -/
theorem SameUpToRepeats.within (h : SameUpToRepeats a b) (ha : ∀ x ∈ a, x.WellFormed) :
    Within a b ∧ Within b a := by
  induction h with
  | rel _ _ hstep => exact hstep.within ha
  | refl => exact ⟨.of_subset ha (List.Subset.refl _), .of_subset ha (List.Subset.refl _)⟩
  | symm _ _ hba ih =>
    have hb := (SameUpToRepeats.wellFormed_iff hba).mpr ha
    exact (ih hb).symm
  | trans _ _ _ hab hbc ih ih' =>
    have hb := (SameUpToRepeats.wellFormed_iff hab).mp ha
    have hc := (SameUpToRepeats.wellFormed_iff hbc).mp hb
    obtain ⟨hleft, hright⟩ := ih ha
    obtain ⟨hleft', hright'⟩ := ih' hb
    exact ⟨hleft.trans ha hb hc hleft', hright'.trans hc hb ha hright⟩

/-- Inclusion does not depend on the order of either list or on repetitions in it. -/
theorem SameUpToRepeats.isSubset_eq (ha : ∀ x ∈ a, x.WellFormed) (hb : ∀ x ∈ b, x.WellFormed)
    (haa' : SameUpToRepeats a a') (hbb' : SameUpToRepeats b b') :
    isSubset strictEq a' b' = isSubset strictEq a b := by
  have ha' := haa'.wellFormed_iff.mp ha
  have hb' := hbb'.wellFormed_iff.mp hb
  obtain ⟨hfrom, hto⟩ := haa'.within ha
  obtain ⟨hfrom', hto'⟩ := hbb'.within hb
  rw [Bool.eq_iff_iff, isSubset_iff_within ha' hb', isSubset_iff_within ha hb]
  constructor
  · intro h
    exact hfrom.trans ha ha' hb (h.trans ha' hb' hb hto')
  · intro h
    exact hto.trans ha' ha hb' (h.trans ha hb hb' hfrom')

/-! ## Laws -/

/-- The test of inclusion decides whether every document of one list equals one of another. It is
blind to order and repetitions, reflexive and transitive. -/
theorem isSubset_is_inclusion (ha : ∀ x ∈ a, x.WellFormed) (hb : ∀ x ∈ b, x.WellFormed)
    (hc : ∀ x ∈ c, x.WellFormed) :
    (isSubset strictEq a b = true ↔ ∀ x ∈ a, ∃ y ∈ b, x.strictEq y = true) ∧
      (∀ a' b', SameUpToRepeats a a' → SameUpToRepeats b b' →
        isSubset strictEq a' b' = isSubset strictEq a b) ∧
      isSubset strictEq a a = true ∧
      (isSubset strictEq a b = true → isSubset strictEq b c = true →
        isSubset strictEq a c = true) := by
  refine ⟨isSubset_iff_within ha hb, ?_, ?_, ?_⟩
  · exact fun a' b' haa' hbb' => haa'.isSubset_eq ha hb hbb'
  · exact (isSubset_iff_within ha ha).mpr (.of_subset ha (List.Subset.refl a))
  · rw [isSubset_iff_within ha hb, isSubset_iff_within hb hc, isSubset_iff_within ha hc]
    exact Within.trans ha hb hc

/-- Zeros of both signs in nested documents, of which one repeats the other, beside the integer that
equals neither. -/
theorem isSubset_of_signed_zeros :
    let zero (negative : Bool) : Value :=
      .obj [("k", .arr [.null, .num (.float ⟨negative, ⟨0, by decide⟩⟩)])]
    let a : List Value := [zero false, zero true]
    let b : List Value := [zero true, .num (.int 0)]
    let c : List Value := [.str "0", .num (.int 0), zero false]
    ((∀ x ∈ a, x.WellFormed) ∧ (∀ x ∈ b, x.WellFormed) ∧ (∀ x ∈ c, x.WellFormed)) ∧
      (∀ x ∈ a, ∃ y ∈ b, x.strictEq y = true) ∧
      isSubset strictEq [zero false] [.num (.int 0), zero true] = isSubset strictEq a b ∧
      isSubset strictEq a a = true ∧ isSubset strictEq a c = true ∧
      isSubset strictEq b a = false := by
  intro zero a b c
  have ha : ∀ x ∈ a, x.WellFormed := by decide +kernel
  have hb : ∀ x ∈ b, x.WellFormed := by decide +kernel
  have hc : ∀ x ∈ c, x.WellFormed := by decide +kernel
  obtain ⟨hiff, hrepeats, hself, htrans⟩ := isSubset_is_inclusion ha hb hc
  have hab : isSubset strictEq a b = true := by decide +kernel
  have hbc : isSubset strictEq b c = true := by decide +kernel
  -- the second zero is moved to the front, where it repeats the first
  have hsingle : SameUpToRepeats a [zero false] :=
    .trans _ _ _ (.rel _ _ (.perm (.swap ..)))
      (.symm _ _ (.rel _ _ (.duplicate (List.mem_singleton_self _) (by decide +kernel)
        (by decide +kernel))))
  have hswap : SameUpToRepeats b [.num (.int 0), zero true] := .rel _ _ (.perm (.swap ..))
  exact ⟨⟨ha, hb, hc⟩, hiff.mp hab, hrepeats _ _ hsingle hswap, hself, htrans hab hbc,
    by decide +kernel⟩

end Value

end ShapeMatch
