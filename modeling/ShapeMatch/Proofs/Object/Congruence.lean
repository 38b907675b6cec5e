import ShapeMatch.Proofs.Object.Relaxation
import ShapeMatch.Proofs.Value.DeepEqual

/-!
# Objects with related values

If the values of an object are exchanged for related ones, and demands for such as accept what is
related, then the object still accounts for what is asked of it. Its fields can be shared out as
before, since names and positions stay.

## Main definitions

* `Claimant.CarriesTo`, `Demand.CarriesTo`: claimants and demands that accept what is related.

## Main statements

* `Accounts.carry`, `CoversRequired.carry`: values and demands may be exchanged for related ones.
-/

namespace ShapeMatch

variable {R : Value → Value → Prop} {o o' : Object}

/-! ## Claimants -/

/-- The second claimant must and may have as many fields, and accepts the fields whose values are
related to those of fields that the first accepts. -/
structure Claimant.CarriesTo (R : Value → Value → Prop) (c c' : Claimant) : Prop where
  required : c.required = c'.required
  unbounded : c.unbounded = c'.unbounded
  accepts : ∀ f g : String × Value, f.1 = g.1 → R f.2 g.2 → c.accepts f → c'.accepts g

theorem Shareable.carry {cs cs' : List Claimant} (h : Shareable cs o) (ho : o.Related R o')
    (hcs : List.Forall₂ (Claimant.CarriesTo R) cs cs') : Shareable cs' o' := by
  have hget : ∀ c : Fin cs.length, (cs.get c).CarriesTo R (cs'.get (finCongr hcs.length_eq c)) :=
    fun c => hcs.get c.isLt _
  have hfield : ∀ i : Fin o.length,
      (o.get i).1 = (o'.get (finCongr ho.length_eq i)).1 ∧
        R (o.get i).2 (o'.get (finCongr ho.length_eq i)).2 :=
    fun i => List.Forall₂.get ho i.isLt _
  refine h.transport (finCongr ho.length_eq) (finCongr hcs.length_eq) ?_ ?_ ?_
  · exact fun i c => (hget c).accepts _ _ (hfield i).1 (hfield i).2
  · exact fun c => (hget c).required.trans
  · exact fun c => (hget c).unbounded.symm.trans

/-! ## Demands -/

/-- The second demand has the same key, and accepts values related to what the first accepts. -/
structure Demand.CarriesTo (R : Value → Value → Prop) (d d' : Demand) : Prop where
  key : d.key = d'.key
  accepts : ∀ v w, R v w → d.accepts v → d'.accepts w

namespace Demand

variable {d d' : Demand}

theorem MetBy.carry (h : d.MetBy o) (hd : d.CarriesTo R d') (ho : o.Related R o') :
    d'.MetBy o' := by
  intro name hname
  have hfield := h name (hd.key ▸ hname)
  have hvalue := ho.get? name
  generalize o.get? name = found at hfield hvalue
  generalize o'.get? name = found' at hvalue ⊢
  cases hvalue with
  | some hvw => exact hd.accepts _ _ hvw hfield
  | none => exact hd.key ▸ hfield

theorem CarriesTo.claimant? (h : d.CarriesTo R d') :
    Option.Rel (Claimant.CarriesTo R) d.claimant? d'.claimant? := by
  obtain ⟨⟨optional, target⟩, accepts⟩ := d
  obtain ⟨key', accepts'⟩ := d'
  obtain ⟨rfl, haccepts⟩ := h
  cases target with
  | field name => exact .none
  | wildcard => exact .some ⟨rfl, rfl, fun f g _ => haccepts f.2 g.2⟩
  | catchAll => exact .some ⟨rfl, rfl, fun f g _ => haccepts f.2 g.2⟩

end Demand

variable {ds ds' : List Demand}

theorem keys_eq_of_carriesTo (h : List.Forall₂ (Demand.CarriesTo R) ds ds') :
    ds.map (·.key) = ds'.map (·.key) := by
  induction h with
  | nil => rfl
  | cons hd _ ih => rw [List.map_cons, List.map_cons, hd.key, ih]

/-- The same keys leave the same fields without a name. -/
theorem unnamedFields_related (hds : List.Forall₂ (Demand.CarriesTo R) ds ds')
    (ho : o.Related R o') : (unnamedFields ds o).Related R (unnamedFields ds' o') := by
  have hkeys : ∀ (ds : List Demand) (name : String), (∀ d ∈ ds, d.key.target ≠ .field name) ↔
      ∀ key ∈ ds.map (·.key), key.target ≠ .field name := by
    simp
  simp only [unnamedFields, hkeys, keys_eq_of_carriesTo hds]
  exact ho.filter fun name => ∀ key ∈ ds'.map (·.key), key.target ≠ .field name

theorem Accounts.carry (h : Accounts ds o) (hds : List.Forall₂ (Demand.CarriesTo R) ds ds')
    (ho : o.Related R o') : Accounts ds' o' := by
  constructor
  · exact forall_mem_of_forall₂ hds fun d hd d' hcarries => (h.named d hd).carry hcarries ho
  · exact h.others.carry (unnamedFields_related hds ho)
      (List.rel_filterMap (fun _ _ hd => hd.claimant?) hds)

theorem CoversRequired.carry (h : CoversRequired ds o)
    (hds : List.Forall₂ (Demand.CarriesTo R) ds ds') (ho : o.Related R o') :
    CoversRequired ds' o' := by
  have hnames : ∀ ds : List Demand, ds.filterMap (fun d => d.key.requiredName?) =
      (ds.map (·.key)).filterMap KeyPattern.requiredName? := by
    simp [List.filterMap_map]
  rw [CoversRequired, hnames] at h ⊢
  rwa [← keys_eq_of_carriesTo hds, ← ho.length_eq]

end ShapeMatch
