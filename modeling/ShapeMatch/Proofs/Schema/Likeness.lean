import ShapeMatch.Proofs.Schema.Meaning
import ShapeMatch.Proofs.Value.Equality

/-!
# Schemas of the same shape

Schemas may have the same shape and differ in their literals and in the capabilities they hold. If
literals that correspond ask the same, and so do capabilities, then so do the schemas.

Schemas that denote one predicate are of this kind: their literals are equal as values, and their
capabilities are the same ones.

## Main definitions

* `Step.Alike`, `Schema.Alike`: the same shape, with related literals and capabilities.

## Main statements

* `Schema.Alike.asks_eq`: schemas that are alike ask the same.
* `Schema.asks_eq_of_samePredicate`: schemas of one predicate ask the same.
-/

namespace ShapeMatch

variable {interp : Interpretation} {equal : Value → Value → Prop}
  {same : Capability → Capability → Prop}

/-! ## Steps -/

namespace Step

mutual

/-- Steps of the same shape, with related capabilities. -/
inductive Alike (same : Capability → Capability → Prop) : Step → Step → Prop
  | capability {c d : Capability} (h : same c d) : Alike same (capability c) (capability d)
  | chain {a b : Step} {as bs : List (Glue × Step)} (initial : Alike same a b)
      (steps : AllAlike same as bs) : Alike same (chain a as) (chain b bs)

/-- Joined steps that are alike one by one, connectives included. -/
inductive AllAlike (same : Capability → Capability → Prop) :
    List (Glue × Step) → List (Glue × Step) → Prop
  | nil : AllAlike same [] []
  | cons {glue : Glue} {a b : Step} {as bs : List (Glue × Step)} (step : Alike same a b)
      (rest : AllAlike same as bs) : AllAlike same ((glue, a) :: as) ((glue, b) :: bs)

end

mutual

/-- Steps that are alike have the same truth values if related capabilities test alike. -/
theorem Alike.formula_eq (hsame : ∀ c d, same c d → interp c = interp d) :
    ∀ {s t : Step}, s.Alike same t → s.formula interp = t.formula interp
  | _, _, .capability h => by
    funext v
    rw [formula, formula, hsame _ _ h]
  | _, _, .chain initial steps => by
    funext v
    rw [formula, formula, initial.formula_eq hsame, steps.formulaAll_eq hsame]

theorem AllAlike.formulaAll_eq (hsame : ∀ c d, same c d → interp c = interp d) :
    ∀ {as bs : List (Glue × Step)}, AllAlike same as bs →
      formulaAll interp as = formulaAll interp bs
  | _, _, .nil => rfl
  | _, _, .cons step rest => by
    funext v found
    rw [formulaAll, formulaAll, step.formula_eq hsame, rest.formulaAll_eq hsame]

end

mutual

theorem Alike.refl (hsame : ∀ c, same c c) : ∀ s : Step, s.Alike same s
  | capability c => .capability (hsame c)
  | chain initial steps => .chain (.refl hsame initial) (.refl hsame steps)

theorem AllAlike.refl (hsame : ∀ c, same c c) : ∀ steps, AllAlike same steps steps
  | [] => .nil
  | (_, step) :: rest => .cons (.refl hsame step) (.refl hsame rest)

end

end Step

/-! ## Schemas -/

namespace Schema

mutual

/-- Schemas of the same shape, with related literals and capabilities. -/
inductive Alike (equal : Value → Value → Prop) (same : Capability → Capability → Prop) :
    Schema → Schema → Prop
  | literal {v w : Value} (h : equal v w) : Alike equal same (literal v) (literal w)
  | capability {c d : Capability} (h : same c d) :
      Alike equal same (capability c) (capability d)
  | chain {c d : Chain} (h : c.toStep.Alike same d.toStep) : Alike equal same (chain c) (chain d)
  | object {es fs : List (String × Schema)} (h : EntriesAlike equal same es fs) :
      Alike equal same (object es) (object fs)
  | array {as bs : List Schema} (h : ItemsAlike equal same as bs) :
      Alike equal same (array as) (array bs)
  | undefined : Alike equal same undefined undefined

/-- Entries with the same keys and with schemas that are alike, one by one. -/
inductive EntriesAlike (equal : Value → Value → Prop) (same : Capability → Capability → Prop) :
    List (String × Schema) → List (String × Schema) → Prop
  | nil : EntriesAlike equal same [] []
  | cons {key : String} {s t : Schema} {es fs : List (String × Schema)}
      (head : Alike equal same s t) (rest : EntriesAlike equal same es fs) :
      EntriesAlike equal same ((key, s) :: es) ((key, t) :: fs)

/-- Schemas that are alike one by one. -/
inductive ItemsAlike (equal : Value → Value → Prop) (same : Capability → Capability → Prop) :
    List Schema → List Schema → Prop
  | nil : ItemsAlike equal same [] []
  | cons {s t : Schema} {as bs : List Schema} (head : Alike equal same s t)
      (rest : ItemsAlike equal same as bs) : ItemsAlike equal same (s :: as) (t :: bs)

end

theorem EntriesAlike.eq_nil_iff {es fs : List (String × Schema)}
    (h : EntriesAlike equal same es fs) : es = [] ↔ fs = [] := by
  cases h <;> simp

variable {node : List Demand → Object → Prop}

mutual

/-- Schemas that are alike ask the same, if related literals and related capabilities do. -/
theorem Alike.asks_eq
    (hequal : ∀ v w, equal v w → (literal v).Asks interp node = (literal w).Asks interp node)
    (hsame : ∀ c d, same c d → interp c = interp d) :
    ∀ {s t : Schema}, s.Alike equal same t → s.Asks interp node = t.Asks interp node
  | _, _, .literal h => hequal _ _ h
  | _, _, .capability h => by
    funext parent v
    rw [Asks, Asks, hsame _ _ h]
  | _, _, .chain h => by
    funext parent v
    rw [Asks, Asks, Chain.formula, Chain.formula, h.formula_eq hsame]
  | _, _, .object h => asks_object_congr h.eq_nil_iff fun o => by rw [h.demands_eq hequal hsame]
  | _, _, .array h => asks_array_congr fun v => by
    rw [← asksEach_iff, ← asksEach_iff, h.asksEach_eq hequal hsame]
  | _, _, .undefined => rfl

theorem EntriesAlike.demands_eq
    (hequal : ∀ v w, equal v w → (literal v).Asks interp node = (literal w).Asks interp node)
    (hsame : ∀ c d, same c d → interp c = interp d) :
    ∀ {es fs : List (String × Schema)}, EntriesAlike equal same es fs →
      demands interp node es = demands interp node fs
  | _, _, .nil => rfl
  | _, _, .cons head rest => by
    funext o
    rw [demands, demands, head.asks_eq hequal hsame, rest.demands_eq hequal hsame]

theorem ItemsAlike.asksEach_eq
    (hequal : ∀ v w, equal v w → (literal v).Asks interp node = (literal w).Asks interp node)
    (hsame : ∀ c d, same c d → interp c = interp d) :
    ∀ {as bs : List Schema}, ItemsAlike equal same as bs →
      AsksEach interp node as = AsksEach interp node bs
  | _, _, .nil => rfl
  | _, _, .cons head rest => by
    funext v
    rw [AsksEach, AsksEach, head.asks_eq hequal hsame, rest.asksEach_eq hequal hsame]

end

/-! ## Schemas of one predicate -/

/-- A literal asks for an equal value unless it has parts or is a string. -/
theorem asks_literal_eq_of_deepEqual {v w : Value} (h : v.deepEqual w = true) :
    (literal v).Asks interp node = (literal w).Asks interp node := by
  cases v <;> cases w <;> simp only [Value.deepEqual, Value.eqBy, Bool.false_eq_true] at h
  case null.null => rfl
  case bool.bool => rw [eq_of_beq h]
  case str.str => rw [eq_of_beq h]
  case num.num m n =>
    have hequal : ∀ x : Value, x.deepEqual (.num m) = x.deepEqual (.num n) :=
      Value.deepEqual_congr rfl (by rwa [Value.deepEqual, Value.eqBy])
    funext parent x
    simp only [Asks, hequal]
  case arr.arr | obj.obj =>
    funext parent x
    simp only [Asks]

mutual

/-- Schemas of one predicate are alike, with equal literals and the same capabilities. -/
theorem alike_of_samePredicate : ∀ {s t : Schema}, s.samePredicate t = true →
    s.Alike (fun v w => v.deepEqual w = true) Eq t
  | literal v, literal w, h => .literal (by rwa [samePredicate] at h)
  | capability c, capability d, h => .capability (by rwa [samePredicate, beq_iff_eq] at h)
  | chain c, chain d, h => by
    rw [samePredicate] at h
    rw [Chain.eq_of_sameAs h]
    exact .chain (.refl (fun _ => rfl) _)
  | object es, object fs, h => .object (entriesAlike_of_sameEntries (by rwa [samePredicate] at h))
  | array as, array bs, h => .array (itemsAlike_of_sameItems (by rwa [samePredicate] at h))
  | undefined, undefined, _ => .undefined

theorem entriesAlike_of_sameEntries : ∀ {es fs : List (String × Schema)},
    sameEntries es fs = true → EntriesAlike (fun v w => v.deepEqual w = true) Eq es fs
  | [], [], _ => .nil
  | (k, s) :: es, (l, t) :: fs, h => by
    simp only [sameEntries, Bool.and_eq_true, beq_iff_eq] at h
    obtain ⟨⟨rfl, hhead⟩, hrest⟩ := h
    exact .cons (alike_of_samePredicate hhead) (entriesAlike_of_sameEntries hrest)

theorem itemsAlike_of_sameItems : ∀ {as bs : List Schema},
    sameItems as bs = true → ItemsAlike (fun v w => v.deepEqual w = true) Eq as bs
  | [], [], _ => .nil
  | s :: as, t :: bs, h => by
    simp only [sameItems, Bool.and_eq_true] at h
    exact .cons (alike_of_samePredicate h.1) (itemsAlike_of_sameItems h.2)

end

/-- Schemas of one predicate ask the same. -/
theorem asks_eq_of_samePredicate {s t : Schema} (h : s.samePredicate t = true) :
    s.Asks interp node = t.Asks interp node :=
  (alike_of_samePredicate h).asks_eq (fun _ _ hequal => asks_literal_eq_of_deepEqual hequal)
    (fun _ _ hcd => by rw [hcd])

end Schema

end ShapeMatch
