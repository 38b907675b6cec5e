import ShapeMatch.Proofs.Assignment.Renumbering
import ShapeMatch.Proofs.Object.Grouping
import ShapeMatch.Proofs.Schema.Compile

/-!
# Renaming fields that no rule looks at

Rules look at the fields they name and at those that references name. Renaming the other fields
sorts the object differently, so that every search runs differently; the outcome stays the same
but for the keys it lists.

## Main definitions

* `Discrepancy.Alike`, `SameOutcome`: equal outcomes, except for the keys of unclaimed fields.
* `ObjectRules.Reads`: a name that rules look at.

## Main statements

* `ObjectRules.sameOutcome_reconcile`: an outcome depends on the named fields and the values of the
  others.
-/

namespace ShapeMatch

/-- Discrepancies are equal, or list equally many unclaimed fields. -/
inductive Discrepancy.Alike : Discrepancy → Discrepancy → Prop
  | refl (d : Discrepancy) : Alike d d
  | unclaimed {keys keys' : List String} (h : keys'.length = keys.length) :
      Alike (.unclaimed keys) (.unclaimed keys')

/-- Outcomes have the same counts, or discrepancies that are alike. -/
inductive SameOutcome : Except Discrepancy Claimed → Except Discrepancy Claimed → Prop
  | ok (claimed : Claimed) : SameOutcome (.ok claimed) (.ok claimed)
  | error {d d' : Discrepancy} (h : d.Alike d') : SameOutcome (.error d) (.error d')

theorem SameOutcome.isOk_eq {x y : Except Discrepancy Claimed} (h : SameOutcome x y) :
    x.isOk = y.isOk := by
  cases h <;> rfl

namespace ObjectRules

variable {o o' pending pending' : Object} {rules : ObjectRules (Value → Bool)}

/-! ## Outcomes -/

theorem claimEach_eq_error_of_get? {fields : List (FieldRule (Value → Bool))} {d : Discrepancy}
    (hget : ∀ r ∈ fields, o'.get? r.name = o.get? r.name)
    (h : claimEach o fields pending = .error d) : claimEach o' fields pending' = .error d := by
  induction fields generalizing pending pending' with
  | nil => cases h
  | cons r rest ih =>
    obtain ⟨hr, hrest⟩ := List.forall_mem_cons.1 hget
    rw [claimEach] at h ⊢
    rw [hr]
    cases hv : o.get? r.name with
    | some v =>
      simp only [hv] at h ⊢
      split at h
      next hvalue => rw [if_pos hvalue]; exact ih hrest h
      next hvalue => rw [if_neg hvalue]; exact h
    | none =>
      simp only [hv] at h ⊢
      split at h
      next hoptional => rw [if_pos hoptional]; exact ih hrest h
      next hoptional => rw [if_neg hoptional]; exact h

theorem claimFields_eq_error_of_get? {d : Discrepancy} (hlength : o'.length = o.length)
    (hget : ∀ name ∈ rules.boundKeys, o'.get? name = o.get? name)
    (h : rules.claimFields o = .error d) : rules.claimFields o' = .error d := by
  rw [claimFields] at h ⊢
  rw [hlength]
  split at h
  next hcost => rw [if_pos hcost]; exact h
  next hcost =>
    rw [if_neg hcost]
    exact claimEach_eq_error_of_get? (fun r hr => hget _ (List.mem_map_of_mem hr)) h

/-- Rules on named fields that claim theirs claim them in any object with the same named fields. -/
theorem claimFields_eq_ok_of_get? (hlength : o'.length = o.length)
    (hget : ∀ name ∈ rules.boundKeys, o'.get? name = o.get? name)
    (h : rules.claimFields o = .ok pending) : rules.claimFields o' = .ok (rules.unnamed o') := by
  obtain ⟨hcost, hmet, -⟩ := claimFields_eq_ok_iff.mp h
  refine claimFields_eq_ok_iff.mpr ⟨hlength ▸ hcost, ?_, rfl⟩
  intro r hr
  rw [FieldRule.metBy_demand_iff, hget _ (List.mem_map_of_mem hr), ← FieldRule.metBy_demand_iff]
  exact hmet r hr

/-- The boards of fields with the same values differ in the numbers of the fields only. -/
theorem exists_renumbers_board (hvalues : (pending.map Prod.snd).Perm (pending'.map Prod.snd)) :
    ∃ e, Board.Renumbers e (rules.board pending) (rules.board pending') := by
  obtain ⟨e, he⟩ := exists_equiv_of_perm_map hvalues
  refine ⟨e, ?_, ?_, ?_, ?_⟩
  · intro slot
    rw [get_slot_board, get_slot_board, Post.slot, Post.slot]
  · intro slot
    rw [get_slot_board, get_slot_board, Post.slot, Post.slot]
  · intro slot
    rw [get_slot_board, get_slot_board, Post.slot, Post.slot]
  · intro pair slot
    rw [fits_board, fits_board, he]

theorem claimRest_eq_error_of_settle {s : Board.Shortage pending.length rules.slotCount}
    {owner : Nat} (hcost : ¬ pending.length < rules.freeCost)
    (hs : (rules.board pending).settle = .error s)
    (howner : ((rules.board pending).slot.get s.slot).owner = owner) :
    rules.claimRest pending =
      .error (rules.shortage owner ((rules.board pending).filled s.placement owner)) := by
  subst howner
  simp only [claimRest, if_neg hcost, hs]
  rfl

/-- Fields with the same values leave equally many unclaimed, or fail for the same reason. -/
theorem claimRest_cases (rules : ObjectRules (Value → Bool))
    (hvalues : (pending.map Prod.snd).Perm (pending'.map Prod.snd)) :
    (∃ p p', rules.claimRest pending = .ok p ∧ rules.claimRest pending' = .ok p' ∧
        p'.unplaced.length = p.unplaced.length) ∨
      ∃ d, rules.claimRest pending = .error d ∧ rules.claimRest pending' = .error d := by
  have hlength : pending'.length = pending.length := by simpa using hvalues.length_eq.symm
  by_cases hcost : pending.length < rules.freeCost
  · have hcost' : pending'.length < rules.freeCost := by rwa [hlength]
    refine .inr ⟨.notEnoughPairs .free rules.freeCost pending.length, ?_, ?_⟩
    · rw [claimRest, if_pos hcost]
    · rw [claimRest, if_pos hcost', hlength]
  · have hcost' : ¬ pending'.length < rules.freeCost := by rwa [hlength]
    obtain ⟨e, he⟩ := exists_renumbers_board hvalues
    obtain ⟨p, p', hp, hp', hleft⟩ | ⟨⟨slot, p⟩, ⟨slot', p'⟩, hs, hs', rfl, hheld⟩ :=
      he.settle_cases (rules.proper_board pending)
    · exact .inl ⟨p, p', by simp [claimRest, hcost, hp], by simp [claimRest, hcost', hp'], hleft⟩
    · refine .inr ⟨_, claimRest_eq_error_of_settle hcost hs rfl, ?_⟩
      rw [claimRest_eq_error_of_settle hcost' hs' (he.owner slot'), he.filled_eq hheld]

/-- The outcome depends on the named fields and the values of the others only. -/
theorem sameOutcome_reconcile (hlength : o'.length = o.length)
    (hget : ∀ name ∈ rules.boundKeys, o'.get? name = o.get? name)
    (hvalues : ((rules.unnamed o).map Prod.snd).Perm ((rules.unnamed o').map Prod.snd)) :
    SameOutcome (rules.reconcile o) (rules.reconcile o') := by
  cases hfields : rules.claimFields o with
  | error d =>
    have hfields' := claimFields_eq_error_of_get? hlength hget hfields
    rw [reconcile_eq_error_of_claimFields hfields, reconcile_eq_error_of_claimFields hfields']
    exact .error (.refl d)
  | ok pending =>
    obtain ⟨-, -, rfl⟩ := claimFields_eq_ok_iff.mp hfields
    have hfields' := claimFields_eq_ok_of_get? hlength hget hfields
    have hunnamed : (rules.unnamed o').length = (rules.unnamed o).length := by
      simpa using hvalues.length_eq.symm
    rcases rules.claimRest_cases hvalues with ⟨p, p', hp, hp', hleft⟩ | ⟨d, hd, hd'⟩
    · have hclaimed : (⟨o'.length - (rules.unnamed o').length, p'.placed.length⟩ : Claimed) =
          ⟨o.length - (rules.unnamed o).length, p.placed.length⟩ := by
        have h := length_placed_add_unplaced p
        have h' := length_placed_add_unplaced p'
        rw [Claimed.mk.injEq]
        omega
      rw [reconcile_eq_of_claimRest hfields hp, reconcile_eq_of_claimRest hfields' hp', hclaimed,
        hleft]
      split
      next => exact .ok _
      next => exact .error (.unclaimed (by simp [hleft]))
    · rw [reconcile_eq_error_of_claimRest hfields hd, reconcile_eq_error_of_claimRest hfields' hd']
      exact .error (.refl d)

/-! ## Renaming -/

/-- Renaming fields apart from the names of rules keeps the values of the other fields. -/
theorem values_unnamed_rename_perm {α : Type} {rules : ObjectRules α} {r : String → String}
    {names : List String} (hnames : rules.boundKeys ⊆ names) (hr : o.RenamedApart r names)
    (hnodup : o.keys.Nodup) :
    ((rules.unnamed o).map Prod.snd).Perm ((rules.unnamed (o.rename r)).map Prod.snd) := by
  have hfilter : (o.map fun field => (r field.1, field.2)).filter (·.1 ∉ rules.boundKeys) =
      (rules.unnamed o).map fun field => (r field.1, field.2) := by
    rw [List.filter_map, unnamed]
    congr 1
    apply List.filter_congr
    intro field hfield
    simpa using hr.mem_names_iff hnames (List.mem_map_of_mem hfield)
  have hperm := ((hr.rename_perm hnodup).filter (·.1 ∉ rules.boundKeys)).map Prod.snd
  rw [hfilter, List.map_map] at hperm
  exact hperm.symm

end ObjectRules

/-- A matcher that refers to no other field of an object does not look at the object. -/
theorem Matcher.judge_some_congr {m : Matcher} {o o' : Object}
    (h : ∀ name, m = .sibling name → o'.get? name = o.get? name) :
    m.judge (some o') = m.judge (some o) := by
  funext v
  cases m with
  | plain test => rw [judge_plain, judge_plain]
  | sibling name => simp [judge_sibling, refersTo, h name rfl]
  | array element => rw [judge_array, judge_array]
  | object rules => rw [judge_object, judge_object]

namespace Schema

/-- The field that a schema refers to. -/
def reference? : Schema → Option String
  | literal (.str s) => siblingName? s
  | _ => none

/-- Only a reference compiles to a matcher that looks at another field. -/
theorem reference?_of_compile {interp : Interpretation} {s : Schema} {name : String}
    (h : s.compile interp = .ok (.sibling name)) : s.reference? = some name := by
  by_cases hleaf : s.isLeaf = true
  · rw [compile_eq_compileLeaf hleaf, compileLeaf_eq_ok_iff] at h
    obtain ⟨test, -, hplain⟩ := h
    cases hplain
  · unfold compile at h
    split at h
    next t =>
      have hstring := Except.ok.inj h
      unfold compileString at hstring
      split at hstring
      next hname =>
        cases hstring
        exact hname
      next => split at hstring <;> cases hstring
    next =>
      obtain ⟨_, _, hbind⟩ := bind_eq_ok.1 h
      obtain ⟨_, _, hpure⟩ := bind_eq_ok.1 hbind
      cases hpure
    next =>
      obtain ⟨_, _, hbind⟩ := bind_eq_ok.1 h
      obtain ⟨_, _, hpure⟩ := bind_eq_ok.1 hbind
      cases hpure
    next hstring harray hobject =>
      refine absurd ?_ hleaf
      unfold isLeaf
      split <;> simp_all

/-- The names that the rules of an object schema look at: those of the fields the rules are about,
and those that the values of its own entries refer to. -/
def observedNames (entries : List (String × Schema)) (rules : ObjectRules Matcher) : List String :=
  rules.boundKeys ++ entries.filterMap fun e => e.2.reference?

variable {interp : Interpretation} {entries : List (String × Schema)} {rules : ObjectRules Matcher}

/-- Within objects that agree on the observed names, rules test alike. -/
theorem within_congr (hrules : compileRules interp entries = .ok rules) {o o' : Object}
    (hget : ∀ name ∈ observedNames entries rules, o'.get? name = o.get? name) :
    rules.within o' = rules.within o := by
  obtain ⟨compiled, hentries, hcompiled⟩ := bind_eq_ok.1 hrules
  obtain ⟨rfl, hvalues⟩ := compileEntries_eq_ok_iff.mp hentries
  refine ObjectRules.map_congr_of_tests fun t ht => Matcher.judge_some_congr fun name hname => ?_
  obtain ⟨e, he, hvalue⟩ := ObjectRules.exists_entry_of_mem_tests hcompiled ht
  refine hget name (List.mem_append_right _ (List.mem_filterMap.mpr ⟨(e.key, e.schema), ?_, ?_⟩))
  · exact List.mem_map_of_mem he
  · exact reference?_of_compile ((hvalues e he).trans (by rw [hvalue, hname]))

/-- Renaming the fields of an object apart from the names that its rules observe changes no verdict
and no outcome, but for the keys of unclaimed fields. -/
theorem sameOutcome_rename (hrules : compileRules interp entries = .ok rules) {o : Object}
    (ho : o.Sorted) {r : String → String} (hr : o.RenamedApart r (observedNames entries rules)) :
    SameOutcome ((rules.within o).reconcile o)
        ((rules.within (o.rename r)).reconcile (o.rename r)) ∧
      ∀ parent, (Matcher.object rules).judge parent (.obj o) =
        (Matcher.object rules).judge parent (.obj (o.rename r)) := by
  have hnodup := ho.nodup_keys
  have hget : ∀ name ∈ observedNames entries rules, (o.rename r).get? name = o.get? name :=
    fun name hname => hr.get?_rename hnodup hname
  have hbound : (rules.within o).boundKeys ⊆ observedNames entries rules := by
    rw [ObjectRules.within, ObjectRules.boundKeys_map]
    exact List.subset_append_left _ _
  have hlength : (o.rename r).length = o.length := by
    simpa using (hr.rename_perm hnodup).length_eq
  have hsame : SameOutcome ((rules.within o).reconcile o)
      ((rules.within o).reconcile (o.rename r)) :=
    ObjectRules.sameOutcome_reconcile hlength (fun name hname => hget name (hbound hname))
      (ObjectRules.values_unnamed_rename_perm hbound hr hnodup)
  rw [within_congr hrules hget]
  refine ⟨hsame, ?_⟩
  intro parent
  simp only [Matcher.judge_object, within_congr hrules hget, ObjectRules.acceptsObject_eq_isOk]
  exact hsame.isOk_eq

/-- Of three fields that equal `b`, a wildcard that refers to `b` leaves as many over whatever the
two others are called. -/
theorem sameOutcome_rename_unclaimed :
    ∃ rules, compileRules (fun _ _ => true)
        [("a", .literal (.num (.int 1))), ("*", .literal (.str "$b$"))] = .ok rules ∧
      let o : Object := [("a", .num (.int 1)), ("b", .null), ("x", .null), ("y", .null)]
      let o' := o.rename fun key => if key = "x" then "m" else if key = "y" then "c" else key
      SameOutcome ((rules.within o).reconcile o) ((rules.within o').reconcile o') := by
  have hbound : (match compileRules (fun _ _ => true)
      [("a", .literal (.num (.int 1))), ("*", .literal (.str "$b$"))] with
    | .ok rules => rules.boundKeys
    | .error _ => []) = ["a"] := by
    decide +kernel
  split at hbound
  next rules hrules =>
    refine ⟨rules, hrules, (sameOutcome_rename hrules (by decide +kernel) ?_).1⟩
    have hnames : observedNames [("a", .literal (.num (.int 1))), ("*", .literal (.str "$b$"))]
        rules = ["a", "b"] := by
      rw [observedNames, hbound]
      decide +kernel
    rw [hnames]
    exact ⟨by decide +kernel, by decide +kernel, by decide +kernel⟩
  next => cases hbound

end Schema

end ShapeMatch
