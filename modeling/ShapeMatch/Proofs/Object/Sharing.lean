import Mathlib.Data.List.Perm.Basic
import Mathlib.Data.List.Perm.Subperm
import Mathlib.Order.Fin.Basic
import ShapeMatch.Proofs.Value.Fields

/-!
# Sharing fields out among claimants

What it means that the fields of an object can be shared out among those who claim them, as an
assignment and without any search: every field goes to one claimant who accepts it, and
every claimant gets as many fields as it may and must have.

## Main definitions

* `Claimant`: which fields it accepts and how many of them it may and must have.
* `Shares`, `Shareable`: an assignment of fields to claimants, and that there is one.

## Main statements

* `Shareable.transport`: sharing depends on the order of neither fields nor claimants.
* `shareable_split_iff`: a claimant of at least one field is one of one field and one of any number.
-/

namespace ShapeMatch

/-- One who claims fields. It may have one field, or any number, and must have one if required. -/
structure Claimant where
  accepts : String × Value → Prop
  required : Bool
  unbounded : Bool

/-- Each field has an owner who accepts it. No owner has two fields unless it is unbounded,
and every required claimant owns a field. -/
structure Shares (cs : List Claimant) (fields : Object)
    (owner : Fin fields.length → Fin cs.length) : Prop where
  accepts : ∀ i, (cs.get (owner i)).accepts (fields.get i)
  single : ∀ i j, owner i = owner j → i = j ∨ (cs.get (owner i)).unbounded = true
  served : ∀ c : Fin cs.length, (cs.get c).required = true → ∃ i, owner i = c

/-- The fields can be shared out among the claimants. -/
def Shareable (cs : List Claimant) (fields : Object) : Prop := ∃ owner, Shares cs fields owner

variable {cs cs' : List Claimant} {fields fields' : Object}

/-- If two lists look alike up to order, their positions correspond. -/
theorem exists_equiv_of_perm_map {α β γ : Type} {f : α → γ} {g : β → γ} {xs : List α} {ys : List β}
    (h : (xs.map f).Perm (ys.map g)) :
    ∃ e : Fin xs.length ≃ Fin ys.length, ∀ i, g (ys.get (e i)) = f (xs.get i) := by
  classical
  let e : Fin (xs.map f).length ≃ Fin (ys.map g).length :=
    ⟨h.idxBij, h.symm.idxBij, fun _ => h.idxBij_symm_idxBij, fun _ => h.idxBij_idxBij_symm⟩
  have he : ∀ i, (ys.map g).get (e i) = (xs.map f).get i := h.getElem_idxBij_eq_getElem
  refine ⟨(finCongr (by simp)).trans (e.trans (finCongr (by simp))), ?_⟩
  intro i
  simpa using he (finCongr (by simp) i)

/-- Sharing carries over along correspondences of fields and of claimants, to claimants who accept
more, may have more and must have less. -/
theorem Shareable.transport (h : Shareable cs fields) (e : Fin fields.length ≃ Fin fields'.length)
    (g : Fin cs.length ≃ Fin cs'.length)
    (haccepts : ∀ i c, (cs.get c).accepts (fields.get i) →
      (cs'.get (g c)).accepts (fields'.get (e i)))
    (hrequired : ∀ c, (cs'.get (g c)).required = true → (cs.get c).required = true)
    (hunbounded : ∀ c, (cs.get c).unbounded = true → (cs'.get (g c)).unbounded = true) :
    Shareable cs' fields' := by
  obtain ⟨owner, hshares⟩ := h
  refine ⟨fun i => g (owner (e.symm i)), ?_, ?_, ?_⟩
  · intro i
    simpa using haccepts _ _ (hshares.accepts (e.symm i))
  · intro i j hij
    rcases hshares.single _ _ (g.injective hij) with h | h
    · exact .inl (e.symm.injective h)
    · exact .inr (hunbounded _ h)
  · intro c hc
    obtain ⟨i, hi⟩ := hshares.served (g.symm c) (hrequired _ (by simpa using hc))
    exact ⟨e i, by simp [hi]⟩

theorem Shareable.perm_claimants (h : Shareable cs fields) (hperm : cs.Perm cs') :
    Shareable cs' fields := by
  obtain ⟨g, hg⟩ := exists_equiv_of_perm_map (f := id) (g := id) (by simpa using hperm)
  simp only [id_eq] at hg
  refine h.transport (Equiv.refl _) g ?_ ?_ ?_
  · intro i c haccepts
    rwa [hg]
  · intro c hrequired
    rwa [hg] at hrequired
  · intro c hunbounded
    rwa [hg]

theorem Shareable.perm_fields (h : Shareable cs fields) (hperm : fields.Perm fields') :
    Shareable cs fields' := by
  obtain ⟨e, he⟩ := exists_equiv_of_perm_map (f := id) (g := id) (by simpa using hperm)
  simp only [id_eq] at he
  refine h.transport e (Equiv.refl _) ?_ ?_ ?_
  · intro i c haccepts
    rwa [he]
  · exact fun c hrequired => hrequired
  · exact fun c hunbounded => hunbounded

/-- The order of claimants plays no role. -/
theorem shareable_perm_claimants (h : cs.Perm cs') :
    Shareable cs fields ↔ Shareable cs' fields :=
  ⟨fun hshare => hshare.perm_claimants h, fun hshare => hshare.perm_claimants h.symm⟩

/-- The order of fields plays no role. -/
theorem shareable_perm_fields (h : fields.Perm fields') :
    Shareable cs fields ↔ Shareable cs fields' :=
  ⟨fun hshare => hshare.perm_fields h, fun hshare => hshare.perm_fields h.symm⟩

/-- There are as many fields as claimants who must have one. -/
theorem Shareable.countP_required_le (h : Shareable cs fields) :
    cs.countP (·.required) ≤ fields.length := by
  obtain ⟨owner, hshares⟩ := h
  let required := (List.finRange cs.length).filter fun c => (cs.get c).required
  have hcount : cs.countP (·.required) = required.length := by
    conv_lhs => rw [← List.map_getElem_finRange cs]
    rw [List.countP_map, List.countP_eq_length_filter]
    rfl
  have howned : required ⊆ (List.finRange fields.length).map owner := by
    intro c hc
    obtain ⟨i, hi⟩ := hshares.served c (by simpa [required] using hc)
    exact List.mem_map.mpr ⟨i, List.mem_finRange i, hi⟩
  have hnodup : required.Nodup := (List.nodup_finRange cs.length).filter _
  simpa [hcount] using (hnodup.subperm howned).length_le

/-- Without claimants there can be no fields. -/
theorem Shareable.eq_nil (h : Shareable [] fields) : fields = [] := by
  obtain ⟨owner, -⟩ := h
  cases fields with
  | nil => rfl
  | cons field rest => exact (owner ⟨0, by simp⟩).elim0

theorem shareable_nil_iff : Shareable [] fields ↔ fields = [] := by
  refine ⟨Shareable.eq_nil, ?_⟩
  rintro rfl
  exact ⟨Fin.elim0, fun i => i.elim0, fun i => i.elim0, fun c => c.elim0⟩

/-- A claimant who must have a field and may have any number can be taken as two: the first of them
has one of its fields and the second has the others. -/
theorem Shareable.split {accepts : String × Value → Prop}
    (h : Shareable (cs ++ [⟨accepts, true, true⟩]) fields) :
    Shareable (cs ++ [⟨accepts, true, false⟩, ⟨accepts, false, true⟩]) fields := by
  obtain ⟨owner, haccepts, hsingle, hserved⟩ := h
  obtain ⟨first, hfirst⟩ := hserved ⟨cs.length, by simp⟩ (by simp)
  let split (i : Fin fields.length) : Nat :=
    if i = first then cs.length
    else if (owner i).val = cs.length then cs.length + 1 else owner i
  have hsplit : ∀ i, split i < cs.length + 2 := by
    intro i
    have := (owner i).isLt
    grind
  refine ⟨fun i => ⟨split i, by simpa using hsplit i⟩, ?_, ?_, ?_⟩
  · intro i
    have := haccepts i
    grind
  · intro i j hij
    have := hsingle i j
    grind
  · intro c hc
    rcases Nat.lt_trichotomy c cs.length with hlt | heq | hgt
    · obtain ⟨i, hi⟩ := hserved ⟨c, by simp; omega⟩ (by grind)
      refine ⟨i, ?_⟩
      grind
    · exact ⟨first, by grind⟩
    · -- the second part need not have a field
      grind

/-- Two claimants of the same fields, one of one field and one of any number, can be taken as
one. -/
theorem Shareable.join {accepts : String × Value → Prop}
    (h : Shareable (cs ++ [⟨accepts, true, false⟩, ⟨accepts, false, true⟩]) fields) :
    Shareable (cs ++ [⟨accepts, true, true⟩]) fields := by
  obtain ⟨owner, haccepts, hsingle, hserved⟩ := h
  let joined (i : Fin fields.length) : Nat := min (owner i) cs.length
  have hjoined : ∀ i, joined i < cs.length + 1 := by
    intro i
    grind
  refine ⟨fun i => ⟨joined i, by simpa using hjoined i⟩, ?_, ?_, ?_⟩
  · intro i
    have := haccepts i
    grind
  · intro i j hij
    have := hsingle i j
    grind
  · intro c hc
    obtain ⟨i, hi⟩ := hserved ⟨c, by grind⟩ (by grind)
    exact ⟨i, by grind⟩

/-- A claimant who must have a field and may have any number is as good as two: one who must have
a field and one who may have any number. -/
theorem shareable_split_iff {accepts : String × Value → Prop} :
    Shareable (cs ++ [⟨accepts, true, true⟩]) fields ↔
      Shareable (cs ++ [⟨accepts, true, false⟩, ⟨accepts, false, true⟩]) fields :=
  ⟨.split, .join⟩

/-- Fields shared out among claimants and other fields among others are shared out together. -/
theorem Shareable.append (h : Shareable cs fields) (h' : Shareable cs' fields') :
    Shareable (cs ++ cs') (fields ++ fields') := by
  obtain ⟨owner, haccepts, hsingle, hserved⟩ := h
  obtain ⟨owner', haccepts', hsingle', hserved'⟩ := h'
  let both (i : Fin (fields ++ fields').length) : Nat :=
    if h : i < fields.length then owner ⟨i, h⟩
    else cs.length + owner' ⟨i - fields.length, by grind⟩
  have hboth : ∀ i, both i < cs.length + cs'.length := by
    intro i
    grind
  refine ⟨fun i => ⟨both i, by simpa using hboth i⟩, ?_, ?_, ?_⟩
  · intro i
    by_cases hi : i < fields.length
    · have := haccepts ⟨i, hi⟩
      grind
    · have := haccepts' ⟨i - fields.length, by grind⟩
      grind
  · intro i j hij
    by_cases hi : i < fields.length <;> by_cases hj : j < fields.length
    · have := hsingle ⟨i, hi⟩ ⟨j, hj⟩
      grind
    · have := (owner ⟨i, hi⟩).isLt
      grind
    · have := (owner ⟨j, hj⟩).isLt
      grind
    · have := hsingle' ⟨i - fields.length, by grind⟩ ⟨j - fields.length, by grind⟩
      grind
  · intro c hc
    rcases Nat.lt_or_ge c cs.length with hlt | hge
    · obtain ⟨i, hi⟩ := hserved ⟨c, hlt⟩ (by grind)
      exact ⟨⟨i, by grind⟩, by grind⟩
    · obtain ⟨i, hi⟩ := hserved' ⟨c - cs.length, by grind⟩ (by grind)
      exact ⟨⟨fields.length + i, by grind⟩, by grind⟩

/-- If keys do not repeat, fields can be shared out by their keys: every claimant has a name and
accepts the fields of this name, and no two claimants of one name must have a field. -/
theorem shareable_of_names {α : Type} {items : List α} {claimant : α → Claimant}
    (name : α → String) (hnodup : fields.keys.Nodup)
    (haccepts : ∀ r ∈ items, ∀ field ∈ fields, field.1 = name r → (claimant r).accepts field)
    (hcover : ∀ field ∈ fields, ∃ r ∈ items, name r = field.1)
    (hserved : ∀ r ∈ items, (claimant r).required = true → name r ∈ fields.keys)
    (hdistinct : items.Pairwise fun r s =>
      ¬ ((claimant r).required = true ∧ (claimant s).required = true ∧ name r = name s)) :
    Shareable (items.map claimant) fields := by
  -- of several claimants of a name, one that must have a field comes first
  have hchoice : ∀ i : Fin fields.length, ∃ c : Fin items.length,
      name (items.get c) = (fields.get i).1 ∧
        ∀ d : Fin items.length, name (items.get d) = (fields.get i).1 →
          (claimant (items.get d)).required = true → c = d := by
    intro i
    by_cases hrequired : ∃ c : Fin items.length, name (items.get c) = (fields.get i).1 ∧
        (claimant (items.get c)).required = true
    · obtain ⟨c, hname, hc⟩ := hrequired
      refine ⟨c, hname, ?_⟩
      intro d hd hdrequired
      exact eq_of_pairwise_not (fun r s ⟨hr, hs, hrs⟩ => ⟨hs, hr, hrs.symm⟩) hdistinct
        ⟨hc, hdrequired, hname.trans hd.symm⟩
    · obtain ⟨r, hr, hname⟩ := hcover (fields.get i) (List.getElem_mem _)
      obtain ⟨c, hc, rfl⟩ := List.getElem_of_mem hr
      exact ⟨⟨c, hc⟩, hname, fun d hd hdrequired => absurd ⟨d, hd, hdrequired⟩ hrequired⟩
  choose owner hname hfirst using hchoice
  refine ⟨fun i => (owner i).cast (by simp), fun i => ?_, fun i j hij => .inl ?_, fun c hc => ?_⟩
  · simpa using haccepts _ (List.getElem_mem _) _ (List.getElem_mem _) (hname i).symm
  · have hown : owner i = owner j := by simpa [Fin.ext_iff] using hij
    exact Object.eq_of_key_eq hnodup (by rw [← hname, ← hname, hown])
  · have hlt : c.val < items.length := by simpa using c.isLt
    have hrequired : (claimant (items.get ⟨c, hlt⟩)).required = true := by simpa using hc
    obtain ⟨field, hfield, hkey⟩ := List.mem_map.mp (hserved _ (List.getElem_mem hlt) hrequired)
    obtain ⟨i, hi, rfl⟩ := List.getElem_of_mem hfield
    refine ⟨⟨i, hi⟩, ?_⟩
    rw [hfirst ⟨i, hi⟩ ⟨c, hlt⟩ hkey.symm hrequired]
    rfl

/-- If keys do not repeat, no two claimants of fields of one name must both have a field. -/
theorem Shareable.eq_of_name (h : Shareable cs fields) (hnodup : fields.keys.Nodup) (name : String)
    (c d : Fin cs.length) (hc : (cs.get c).required = true) (hd : (cs.get d).required = true)
    (hcname : ∀ field, (cs.get c).accepts field → field.1 = name)
    (hdname : ∀ field, (cs.get d).accepts field → field.1 = name) : c = d := by
  obtain ⟨owner, hshares⟩ := h
  obtain ⟨i, rfl⟩ := hshares.served c hc
  obtain ⟨j, rfl⟩ := hshares.served d hd
  have hkey : (fields.get i).1 = (fields.get j).1 := by
    rw [hcname _ (hshares.accepts i), hdname _ (hshares.accepts j)]
  rw [Object.eq_of_key_eq hnodup hkey]

end ShapeMatch
