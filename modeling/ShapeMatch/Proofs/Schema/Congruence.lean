import ShapeMatch.Proofs.Number.Rounding
import ShapeMatch.Proofs.Object.Congruence
import ShapeMatch.Proofs.Schema.Fault

/-!
# Verdicts on equal documents

A schema without capabilities and chains tests values only by their kinds, by their fields and items
and by deep equality, so that its verdict is the same on equal values. Writing an integer as a
double is the case that tells equality from identity.

## Main definitions

* `Schema.FunctionFree`: no capability and no chain occurs in a schema.
* `Value.Respelled`: a value with some of its integers written as doubles.

## Main statements

* `Schema.Follows.of_same`: what follows a schema can be exchanged for what is equal.
* `Schema.verdicts_eq_of_deepEqual`: verdicts on equal values within equal objects are equal.
-/

namespace ShapeMatch

/-! ## Integers written as doubles -/

/-- A number, or a double that denotes it. -/
inductive Number.Respelled : Number → Number → Prop
  | refl (n : Number) : Respelled n n
  | int {i : Int} {x : FiniteDouble} (h : x.Denotes i) : Respelled (.int i) (.float x)

theorem Number.Respelled.looseEq {m n : Number} (h : m.Respelled n) : m.looseEq n = true := by
  cases h with
  | refl => exact looseEq_self m
  | int h => exact looseEq_of_denotes h

/-- A value with some of its integers, at whatever depth, written as doubles that denote them. -/
def Value.Respelled (v w : Value) : Prop := v.Alike Number.Respelled w

theorem Value.Respelled.same {v w : Value} (h : v.Respelled w) (hv : v.WellFormed) : v.Same w :=
  ⟨hv, h.wellFormed hv, h.mono fun _ _ => Number.Respelled.looseEq⟩

namespace Schema

variable {interp : Interpretation}

/-! ## Schemas without functions -/

/-- No capability and no chain occurs in a schema. -/
def FunctionFree (s : Schema) : Prop := ∀ t ∈ s.postorder, t.isFunction = false

theorem functionFree_array_iff {items : List Schema} :
    (array items).FunctionFree ↔ ∀ s ∈ items, s.FunctionFree := by
  rw [FunctionFree, postorder, List.forall_mem_append, List.forall_mem_singleton,
    postorderOfItems_eq_flatMap, List.forall_mem_flatMap]
  exact and_iff_left rfl

theorem functionFree_object_iff {entries : List (String × Schema)} :
    (object entries).FunctionFree ↔ ∀ e ∈ entries, e.2.FunctionFree := by
  rw [FunctionFree, postorder, List.forall_mem_append, List.forall_mem_singleton,
    postorderOfEntries_eq_flatMap, List.forall_mem_flatMap]
  exact and_iff_left rfl

/-! ## Equal values -/

variable {parent parent' : Option Object} {v w : Value}

theorem StringAsks.of_same {s : String} (h : StringAsks s parent v)
    (hparent : Option.Rel (Object.Related Value.Same) parent parent') (hvw : v.Same w) :
    StringAsks s parent' w := by
  unfold StringAsks at h ⊢
  split at h
  next name _ _ =>
    obtain ⟨o, target, rfl, htarget, hequal⟩ := h
    cases hparent with
    | some ho =>
      obtain ⟨target', htarget', hsame⟩ := ho.exists_get? htarget
      exact ⟨_, target', rfl, htarget', by rwa [← hsame.deepEqual_eq hvw]⟩
  next => trivial
  next => rwa [← hvw.deepEqual_eq (.refl (by simp only [Value.WellFormed]))]

/-- What a literal asks of a value, it asks of an equal one. -/
theorem asks_literal_of_same {node : List Demand → Object → Prop} {expected : Value}
    (h : (literal expected).Asks interp node parent v)
    (hparent : Option.Rel (Object.Related Value.Same) parent parent') (hvw : v.Same w) :
    (literal expected).Asks interp node parent' w := by
  have hscalar : ∀ expected : Value, expected.WellFormed → v.deepEqual expected = true →
      w.deepEqual expected = true :=
    fun expected hexpected h => by rwa [← hvw.deepEqual_eq (.refl hexpected)]
  cases expected with
  | str s =>
    rw [Asks] at h ⊢
    exact h.of_same hparent hvw
  | obj fields =>
    rw [Asks] at h ⊢
    obtain ⟨o, rfl⟩ := h
    obtain ⟨p, rfl, -⟩ := hvw.exists_fields
    exact ⟨p, rfl⟩
  | arr items =>
    rw [Asks] at h ⊢
    obtain ⟨xs, rfl⟩ := h
    obtain ⟨ys, rfl, -⟩ := hvw.exists_items
    exact ⟨ys, rfl⟩
  | _ =>
    simp only [Asks] at h ⊢
    exact hscalar _ (by simp only [Value.WellFormed]) h

/-- What follows a schema without functions can be exchanged for what is equal, within an object
whose fields are equal. -/
theorem Follows.of_same {s : Schema} (hs : s.FunctionFree) (h : s.Follows interp parent v)
    (hparent : Option.Rel (Object.Related Value.Same) parent parent') (hvw : v.Same w) :
    s.Follows interp parent' w := by
  induction s using inductOn generalizing parent parent' v w with
  | literal expected => exact asks_literal_of_same h hparent hvw
  | capability c => simp [FunctionFree, postorder, isFunction] at hs
  | chain c => simp [FunctionFree, postorder, isFunction] at hs
  | object entries ih =>
    rw [functionFree_object_iff] at hs
    rw [Follows, asks_object_iff] at h ⊢
    obtain ⟨o, rfl, h⟩ := h
    obtain ⟨p, rfl, hfields⟩ := hvw.exists_fields
    refine ⟨p, rfl, h.imp_right ?_⟩
    rintro ⟨hcovers, haccounts⟩
    let node (ds : List Demand) (o : Object) : Prop := CoversRequired ds o ∧ Accounts ds o
    -- within the second object, an entry accepts what equals the values it accepted in the first
    have hdemands : List.Forall₂ (Demand.CarriesTo Value.Same) (demands interp node entries o)
        (demands interp node entries p) := by
      rw [demands_eq_map, demands_eq_map, List.forall₂_map_left_iff, List.forall₂_map_right_iff,
        List.forall₂_same]
      exact fun e he => ⟨rfl, fun v w hvw hv => ih e he (hs e he) hv (.some hfields) hvw⟩
    exact ⟨hcovers.carry hdemands hfields, haccounts.carry hdemands hfields⟩
  | array items ih =>
    rw [functionFree_array_iff] at hs
    rw [Follows, asks_array_iff] at h ⊢
    obtain ⟨xs, rfl, h⟩ := h
    obtain ⟨ys, rfl, hitems⟩ := hvw.exists_items
    refine ⟨ys, rfl, forall_mem_of_forall₂ hitems ?_⟩
    exact fun x hx y hxy s hs' => ih s hs' (hs s hs') (h x hx s hs') .none hxy
  | undefined => exact h

variable {s : Schema} {m : Matcher}

theorem judge_eq_of_same (hs : s.FunctionFree) (hm : s.compile interp = .ok m)
    (hparent : Option.Rel (Object.Related Value.Same) parent parent') (hvw : v.Same w) :
    m.judge parent v = m.judge parent' w := by
  have hparent' : Option.Rel (Object.Related Value.Same) parent' parent := by
    cases hparent with
    | none => exact .none
    | some h => exact .some (h.symm fun _ _ => Value.Same.symm)
  rw [Bool.eq_iff_iff, judge_iff_follows hm, judge_iff_follows hm]
  exact ⟨fun h => h.of_same hs hparent hvw, fun h => h.of_same hs hparent' hvw.symm⟩

/-- A schema without capabilities and chains has the same verdict on deeply equal values, alone and
within deeply equal objects. An integer may therefore be written as a double that denotes it, in a
value and in the fields that it is compared with. -/
theorem verdicts_eq_of_deepEqual (hs : s.FunctionFree) (hm : s.compile interp = .ok m) :
    (∀ v w, v.WellFormed → w.WellFormed → v.deepEqual w = true →
      m.matchesAlone v = m.matchesAlone w ∧
        ∀ p q, (Value.obj p).WellFormed → (Value.obj q).WellFormed →
          (Value.obj p).deepEqual (.obj q) = true → m.matchesIn p v = m.matchesIn q w) ∧
      ∀ v w, v.WellFormed → v.Respelled w →
        m.matchesAlone v = m.matchesAlone w ∧
          ∀ p q, (Value.obj p).WellFormed → (Value.obj p).Respelled (.obj q) →
            m.matchesIn p v = m.matchesIn q w := by
  have hsame : ∀ v w, v.Same w → m.matchesAlone v = m.matchesAlone w ∧
      ∀ p q, (Value.obj p).Same (.obj q) → m.matchesIn p v = m.matchesIn q w := by
    intro v w hvw
    refine ⟨judge_eq_of_same hs hm .none hvw, ?_⟩
    intro p q hpq
    obtain ⟨_, ⟨⟩, hfields⟩ := hpq.exists_fields
    exact judge_eq_of_same hs hm (.some hfields) hvw
  constructor
  · intro v w hv hw hvw
    obtain ⟨halone, hin⟩ := hsame v w (Value.same_iff.mpr ⟨hv, hw, hvw⟩)
    exact ⟨halone, fun p q hp hq hpq => hin p q (Value.same_iff.mpr ⟨hp, hq, hpq⟩)⟩
  · intro v w hv hvw
    obtain ⟨halone, hin⟩ := hsame v w (hvw.same hv)
    exact ⟨halone, fun p q hp hpq => hin p q (hpq.same hp)⟩

/-- A wildcard refers to a field and a list has a number. Both may be written as doubles, and so may
the fields around the object. -/
theorem matchesAlone_of_doubles :
    let one : FiniteDouble := ⟨false, ⟨1023 * blockSize, by decide⟩⟩
    let two : FiniteDouble := ⟨false, ⟨1024 * blockSize, by decide⟩⟩
    let v : Value := .obj [("a", .num (.int 1)), ("b", .num (.int 1)), ("c", .arr [.num (.int 2)])]
    let w : Value := .obj [("a", .num (.float one)), ("b", .num (.int 1)),
      ("c", .arr [.num (.float two)])]
    ∃ m, compile (fun _ _ => false) (object [("a", .literal (.num (.int 1))),
        ("*", .literal (.str "$a$")), ("(**)", .array [.literal (.num (.int 2))])]) = .ok m ∧
      m.matchesAlone v = true ∧ m.matchesAlone w = true ∧
      m.matchesIn [("d", .num (.int 1))] v = m.matchesIn [("d", .num (.float one))] w := by
  intro one two v w
  have hmatches : (match compile (fun _ _ => false) (object [("a", .literal (.num (.int 1))),
      ("*", .literal (.str "$a$")), ("(**)", .array [.literal (.num (.int 2))])]) with
    | .ok m => m.matchesAlone v
    | .error _ => false) = true := by
    decide +kernel
  have hone : Value.Alike Number.Respelled (.num (.int 1)) (.num (.float one)) :=
    .num (.int (by decide +kernel))
  have htwo : Value.Alike Number.Respelled (.num (.int 2)) (.num (.float two)) :=
    .num (.int (by decide +kernel))
  have hrespelled : v.Respelled w := .obj (.cons hone (.cons (.num (.refl _))
    (.cons (.arr (.cons htwo .nil)) .nil)))
  split at hmatches
  next m hm =>
    have hfree : FunctionFree (object [("a", .literal (.num (.int 1))),
        ("*", .literal (.str "$a$")), ("(**)", .array [.literal (.num (.int 2))])]) := by
      unfold FunctionFree
      decide +kernel
    obtain ⟨hequal, hrespell⟩ := verdicts_eq_of_deepEqual hfree hm
    refine ⟨m, hm, hmatches, ?_, ?_⟩
    · rw [← (hequal v w (by decide +kernel) (by decide +kernel) (by decide +kernel)).1, hmatches]
    · exact (hrespell v w (by decide +kernel) hrespelled).2 _ _ (by decide +kernel)
        (.obj (.cons hone .nil))
  next => cases hmatches

end Schema

end ShapeMatch
