import ShapeMatch.Value

/-!
# Computations that may fail

A computation made of two steps succeeds with a value when the first step does and the second
step does on what the first one gives. It fails with the error of the first step that fails.

## Main definitions

* `errorOf?`: the error of a computation that fails.
-/

namespace ShapeMatch

variable {ε α β : Type}

theorem bind_eq_ok {x : Except ε α} {f : α → Except ε β} {b : β} :
    x >>= f = .ok b ↔ ∃ a, x = .ok a ∧ f a = .ok b := by
  cases x with
  | error e => simp [bind, Except.bind]
  | ok a => simp [bind, Except.bind]

theorem pure_eq_ok {a b : α} : (pure a : Except ε α) = .ok b ↔ a = b := by
  simp [pure, Except.pure]

theorem mapError_eq_ok {ε' : Type} {x : Except ε α} {f : ε → ε'} {a : α} :
    x.mapError f = .ok a ↔ x = .ok a := by
  cases x with
  | error e => constructor <;> (intro h; cases h)
  | ok b => constructor <;> (intro h; cases h; rfl)

theorem isOk_iff {x : Except ε α} : x.isOk = true ↔ ∃ a, x = .ok a := by
  cases x <;> simp [Except.isOk, Except.toBool]

theorem toOption_eq_some_iff {x : Except ε α} {a : α} : x.toOption = some a ↔ x = .ok a := by
  cases x <;> simp [Except.toOption]

/-- The error of a computation that fails. -/
def errorOf? : Except ε α → Option ε
  | .ok _ => none
  | .error e => some e

theorem errorOf?_eq_some_iff {x : Except ε α} {e : ε} : errorOf? x = some e ↔ x = .error e := by
  cases x <;> simp [errorOf?]

theorem errorOf?_eq_none_iff {x : Except ε α} : errorOf? x = none ↔ ∃ a, x = .ok a := by
  cases x <;> simp [errorOf?]

/-- If the second step fails alike on whatever the first gives, the first error counts. -/
theorem errorOf?_bind {x : Except ε α} {f : α → Except ε β} {second : Option ε}
    (hf : ∀ a, x = .ok a → errorOf? (f a) = second) :
    errorOf? (x >>= f) = (errorOf? x).or second := by
  cases x with
  | error e => rfl
  | ok a => exact hf a rfl

theorem errorOf?_bind_pure {x : Except ε α} {f : α → β} :
    errorOf? (x >>= fun a => pure (f a)) = errorOf? x := by
  cases x <;> rfl

theorem errorOf?_map {x : Except ε α} {f : α → β} : errorOf? (x.map f) = errorOf? x := by
  cases x <;> rfl

/-! ## The first result in a list -/

theorem findSome?_cons_eq_or {α β : Type} {f : α → Option β} {x : α} {xs : List α} :
    (x :: xs).findSome? f = (f x).or (xs.findSome? f) := by
  rw [← List.singleton_append, List.findSome?_append, List.findSome?_singleton]

theorem findSome?_congr {α β : Type} {f g : α → Option β} {xs : List α}
    (h : ∀ x ∈ xs, f x = g x) : xs.findSome? f = xs.findSome? g := by
  induction xs with
  | nil => rfl
  | cons x rest ih =>
    obtain ⟨hx, hrest⟩ := List.forall_mem_cons.1 h
    rw [findSome?_cons_eq_or, findSome?_cons_eq_or, hx, ih hrest]

end ShapeMatch
