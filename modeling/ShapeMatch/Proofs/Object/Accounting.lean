import ShapeMatch.Rule
import ShapeMatch.Proofs.Object.Sharing

/-!
# Objects that account for what is asked of them

What the entries of an object schema ask of an object, as a statement about the entries alone:
neither groups of wildcards nor slots occur in it.

## Main definitions

* `Demand`: an entry of an object schema, as a key and the values it accepts.
* `Accounts`: the named fields pass, and the others can be shared out.
* `CoversRequired`: there are as many fields as demands of a named field.

## Main statements

* `accounts_perm`, `coversRequired_perm`: the order of demands plays no role.
* `coversRequired_of_nodup`: a bound on the number of fields says nothing new when no field is
  required twice.
-/

namespace ShapeMatch

/-- The field that a key requires. -/
def KeyPattern.requiredName? : KeyPattern → Option String
  | ⟨false, .field name⟩ => some name
  | _ => none

theorem KeyPattern.requiredName?_eq_some_iff {p : KeyPattern} {name : String} :
    p.requiredName? = some name ↔ p = ⟨false, .field name⟩ := by
  unfold requiredName?
  split <;> grind

/-- What an entry of an object schema asks. -/
structure Demand where
  key : KeyPattern
  accepts : Value → Prop

namespace Demand

/-- A field of this name passes, or is not there and need not be. -/
def MetBy (d : Demand) (o : Object) : Prop :=
  ∀ name, d.key.target = .field name →
    match o.get? name with
    | some v => d.accepts v
    | none => d.key.optional = true

/-- A wildcard or a catch-all as a claimant. -/
def claimant? (d : Demand) : Option Claimant :=
  match d.key with
  | ⟨_, .field _⟩ => none
  | ⟨optional, .wildcard⟩ => some ⟨(d.accepts ·.2), !optional, false⟩
  | ⟨optional, .catchAll⟩ => some ⟨(d.accepts ·.2), !optional, true⟩

end Demand

/-- The fields that no demand names. -/
def unnamedFields (ds : List Demand) (o : Object) : Object :=
  o.filter fun field => ∀ d ∈ ds, d.key.target ≠ .field field.1

/-- An object accounts for demands: the fields they name pass, and the other fields can be shared
out among the wildcards and the catch-alls. -/
structure Accounts (ds : List Demand) (o : Object) : Prop where
  named : ∀ d ∈ ds, d.MetBy o
  others : Shareable (ds.filterMap Demand.claimant?) (unnamedFields ds o)

/-- There are as many fields as demands of a named field that must be there. -/
def CoversRequired (ds : List Demand) (o : Object) : Prop :=
  (ds.filterMap fun d => d.key.requiredName?).length ≤ o.length

variable {ds ds' : List Demand} {o : Object}

theorem unnamedFields_perm (h : ds.Perm ds') : unnamedFields ds o = unnamedFields ds' o := by
  simp only [unnamedFields, h.mem_iff]

theorem accounts_perm (h : ds.Perm ds') : Accounts ds o ↔ Accounts ds' o := by
  have hmem : ∀ d, d ∈ ds ↔ d ∈ ds' := fun d => h.mem_iff
  have hunnamed : unnamedFields ds o = unnamedFields ds' o := unnamedFields_perm h
  constructor
  · rintro ⟨hnamed, hothers⟩
    refine ⟨fun d hd => hnamed d ((hmem d).2 hd), ?_⟩
    rwa [← hunnamed, ← shareable_perm_claimants (h.filterMap _)]
  · rintro ⟨hnamed, hothers⟩
    refine ⟨fun d hd => hnamed d ((hmem d).1 hd), ?_⟩
    rwa [hunnamed, shareable_perm_claimants (h.filterMap _)]

theorem coversRequired_perm (h : ds.Perm ds') : CoversRequired ds o ↔ CoversRequired ds' o := by
  rw [CoversRequired, CoversRequired, (h.filterMap _).length_eq]

/-- A field that must be there and passes is there. -/
theorem mem_keys_of_requiredName? {d : Demand} {name : String} (hd : d.MetBy o)
    (hname : d.key.requiredName? = some name) : name ∈ o.keys := by
  have hkey := KeyPattern.requiredName?_eq_some_iff.mp hname
  have hfield := hd name (by rw [hkey])
  rw [hkey] at hfield
  split at hfield
  next v hv => exact Object.mem_keys_of_get? hv
  next => cases hfield

/-- When no name is required twice, an object with all the required fields has enough of them. -/
theorem coversRequired_of_nodup (hnodup : (ds.filterMap fun d => d.key.requiredName?).Nodup)
    (hmet : ∀ d ∈ ds, d.MetBy o) : CoversRequired ds o := by
  have hsub : (ds.filterMap fun d => d.key.requiredName?) ⊆ o.keys := by
    intro name hname
    obtain ⟨d, hd, hname⟩ := List.mem_filterMap.mp hname
    exact mem_keys_of_requiredName? (hmet d hd) hname
  simpa [CoversRequired, Object.keys] using (hnodup.subperm hsub).length_le

end ShapeMatch
