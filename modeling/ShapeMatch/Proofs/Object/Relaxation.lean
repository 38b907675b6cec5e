import Mathlib.Data.List.Forall2
import ShapeMatch.Proofs.Object.Accounting

/-!
# Asking less of an object

Demands can be relaxed one by one: they may accept more values, and they may become optional.
Optional demands that name no field can be added. An object that accounts for the demands accounts
for the relaxed ones, although its fields may have to be shared out in another way.

## Main definitions

* `Claimant.RelaxesTo`, `Demand.RelaxesTo`: claimants and demands that ask less.

## Main statements

* `Accounts.relax`, `CoversRequired.relax`: demands may be relaxed.
* `Accounts.append_optional`, `CoversRequired.append_optional`: an optional wildcard or catch-all
  may be added.
-/

namespace ShapeMatch

/-! ## Claimants -/

/-- The second claimant accepts more, may have more and must have less. -/
structure Claimant.RelaxesTo (c c' : Claimant) : Prop where
  accepts : ∀ field, c.accepts field → c'.accepts field
  required : c'.required = true → c.required = true
  unbounded : c.unbounded = true → c'.unbounded = true

variable {cs cs' : List Claimant} {fields : Object}

theorem Shareable.relax (h : Shareable cs fields) (hcs : List.Forall₂ Claimant.RelaxesTo cs cs') :
    Shareable cs' fields := by
  have hget : ∀ c : Fin cs.length, (cs.get c).RelaxesTo (cs'.get (finCongr hcs.length_eq c)) :=
    fun c => hcs.get c.isLt _
  refine h.transport (Equiv.refl _) (finCongr hcs.length_eq) ?_ ?_ ?_
  · exact fun i c => (hget c).accepts _
  · exact fun c => (hget c).required
  · exact fun c => (hget c).unbounded

/-- One who need not have a field may get none. -/
theorem Shareable.append_optional (h : Shareable cs fields) {c : Claimant}
    (hc : c.required = false) : Shareable (cs ++ [c]) fields := by
  have hnone : Shareable [c] [] := by
    refine ⟨Fin.elim0, fun i => i.elim0, fun i => i.elim0, ?_⟩
    intro d hd
    rw [Fin.fin_one_eq_zero d] at hd
    cases hc.symm.trans hd
  simpa using h.append hnone

/-! ## Demands -/

/-- The second demand is about the same fields, accepts more values and may be optional. -/
structure Demand.RelaxesTo (d d' : Demand) : Prop where
  target : d'.key.target = d.key.target
  optional : d.key.optional = true → d'.key.optional = true
  accepts : ∀ v, d.accepts v → d'.accepts v

namespace Demand

variable {d d' : Demand} {o : Object}

theorem RelaxesTo.refl (d : Demand) : d.RelaxesTo d := ⟨rfl, id, fun _ => id⟩

theorem MetBy.relax (h : d.MetBy o) (hd : d.RelaxesTo d') : d'.MetBy o := by
  intro name hname
  have hfield := h name (hd.target.symm.trans hname)
  cases hget : o.get? name with
  | some v => exact hd.accepts v (by simpa [hget] using hfield)
  | none => exact hd.optional (by simpa [hget] using hfield)

theorem RelaxesTo.claimant? (h : d.RelaxesTo d') :
    Option.Rel Claimant.RelaxesTo d.claimant? d'.claimant? := by
  obtain ⟨⟨optional, target⟩, accepts⟩ := d
  obtain ⟨⟨optional', target'⟩, accepts'⟩ := d'
  obtain ⟨rfl, hoptional, haccepts⟩ := h
  have hrequired : (!optional') = true → (!optional) = true := by
    cases optional <;> simp_all
  cases target' with
  | field name => exact .none
  | wildcard => exact .some ⟨fun field => haccepts field.2, hrequired, id⟩
  | catchAll => exact .some ⟨fun field => haccepts field.2, hrequired, id⟩

theorem RelaxesTo.requiredName? (h : d.RelaxesTo d') {name : String}
    (hname : d'.key.requiredName? = some name) : d.key.requiredName? = some name := by
  obtain ⟨⟨optional, target⟩, accepts⟩ := d
  rw [KeyPattern.requiredName?_eq_some_iff] at hname ⊢
  have htarget := h.target
  have hoptional := h.optional
  grind

end Demand

variable {ds ds' : List Demand} {o : Object}

theorem unnamedFields_relax (h : List.Forall₂ Demand.RelaxesTo ds ds') :
    unnamedFields ds o = unnamedFields ds' o := by
  have htargets : ds.map (·.key.target) = ds'.map (·.key.target) := by
    induction h with
    | nil => rfl
    | cons hd _ ih => rw [List.map_cons, List.map_cons, hd.target, ih]
  have hmem : ∀ (ds : List Demand) (name : String), (∀ d ∈ ds, d.key.target ≠ .field name) ↔
      KeyTarget.field name ∉ ds.map (·.key.target) := by
    simp
  simp only [unnamedFields, hmem, htargets]

theorem Accounts.relax (h : Accounts ds o) (hds : List.Forall₂ Demand.RelaxesTo ds ds') :
    Accounts ds' o := by
  obtain ⟨hnamed, hothers⟩ := h
  constructor
  · clear hothers
    induction hds with
    | nil => simp
    | cons hd _ ih =>
      rw [List.forall_mem_cons] at hnamed ⊢
      exact ⟨hnamed.1.relax hd, ih hnamed.2⟩
  · rw [← unnamedFields_relax hds]
    exact hothers.relax (List.rel_filterMap (fun _ _ hd => hd.claimant?) hds)

theorem CoversRequired.relax (h : CoversRequired ds o)
    (hds : List.Forall₂ Demand.RelaxesTo ds ds') : CoversRequired ds' o := by
  have hsub : (ds'.filterMap fun d => d.key.requiredName?).Sublist
      (ds.filterMap fun d => d.key.requiredName?) := by
    clear h
    induction hds with
    | nil => exact .slnil
    | @cons d d' _ _ hd _ ih =>
      rw [List.filterMap_cons, List.filterMap_cons]
      cases hname : d'.key.requiredName? with
      | some name =>
        rw [hd.requiredName? hname]
        exact ih.cons_cons name
      | none =>
        cases d.key.requiredName? with
        | some name => exact ih.cons name
        | none => exact ih
  exact hsub.length_le.trans h

variable {d : Demand}

theorem Accounts.append_optional (h : Accounts ds o) (hoptional : d.key.optional = true)
    (htarget : ∀ name, d.key.target ≠ .field name) : Accounts (ds ++ [d]) o := by
  obtain ⟨hnamed, hothers⟩ := h
  obtain ⟨⟨optional, target⟩, accepts⟩ := d
  obtain rfl : optional = true := hoptional
  constructor
  · rw [List.forall_mem_append, List.forall_mem_singleton]
    exact ⟨hnamed, fun name hname => absurd hname (htarget name)⟩
  · have hunnamed : unnamedFields (ds ++ [⟨⟨true, target⟩, accepts⟩]) o = unnamedFields ds o := by
      simp only [unnamedFields, List.forall_mem_append, List.forall_mem_singleton]
      exact List.filter_congr fun field _ => by simp [htarget]
    rw [hunnamed, List.filterMap_append]
    cases target with
    | field name => exact absurd rfl (htarget name)
    | wildcard => exact hothers.append_optional rfl
    | catchAll => exact hothers.append_optional rfl

theorem CoversRequired.append_optional (h : CoversRequired ds o)
    (hoptional : d.key.optional = true) : CoversRequired (ds ++ [d]) o := by
  have hname : d.key.requiredName? = none := by
    rw [Option.eq_none_iff_forall_ne_some]
    intro name hname
    rw [KeyPattern.requiredName?_eq_some_iff] at hname
    simp [hname] at hoptional
  simpa [CoversRequired, hname] using h

end ShapeMatch
