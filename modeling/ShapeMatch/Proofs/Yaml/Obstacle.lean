import ShapeMatch.Proofs.Except
import ShapeMatch.Yaml.Conversion

/-!
# What keeps a YAML tree from being a value

A tree has no value when one of its numbers is infinite or NaN, or a key is null, a sequence or a
mapping. Tags play no role, and a number of any kind may be a key. Conversion stops at the
first such place in document order: a tree comes before its parts, a key before its value, and
earlier parts before later ones.

## Main definitions

* `Yaml.Tree.places`: the values and the keys within a tree, in document order.
* `Yaml.Place.obstacle?`: what is wrong with a place by itself.
* `Yaml.Tree.Inexpressible`: something within a tree is in the way of a value.

## Main statements

* `Yaml.Tree.errorOf?_toValue`: the error of conversion is the first obstacle.
* `Yaml.Tree.exists_toValue_eq_error_iff`: exactly the inexpressible trees have no value.
* `Yaml.Tree.toValue_fails_at_first_obstacle`: what keeps a tree from being a value, and which
  error tells.
-/

namespace ShapeMatch.Yaml

/-! ## Places -/

/-- A place in a tree: where a value stands, or a key. -/
inductive Place where
  | value (t : Tree)
  | key (k : Tree)

namespace Tree

/-- A tree without its outer tags. -/
def untagged : Tree → Tree
  | tagged _ content => content.untagged
  | t => t

/-- Null, a sequence or a mapping. -/
def isCompound : Tree → Bool
  | null | seq _ | map _ => true
  | _ => false

mutual

/-- The places of a tree in document order: the tree itself, then those of its parts from left to
right, the key of an entry before its value. Nothing within a key is a place. -/
def places : Tree → List Place
  | seq items => .value (seq items) :: placesOfItems items
  | map entries => .value (map entries) :: placesOfEntries entries
  | tagged tag content => .value (tagged tag content) :: content.places
  | scalar => [.value scalar]

/-- The places of several trees. -/
def placesOfItems : List Tree → List Place
  | [] => []
  | t :: rest => t.places ++ placesOfItems rest

/-- The places of the entries of a mapping. -/
def placesOfEntries : List (Tree × Tree) → List Place
  | [] => []
  | (k, t) :: rest => .key k :: (t.places ++ placesOfEntries rest)

end

end Tree

/-- What is wrong with a place by itself: an infinite number or NaN as a value, or a key that is not
a scalar. The error shows the key without its outer tags. -/
def Place.obstacle? : Place → Option ConversionError
  | value (.num (.float x)) => if x.finite?.isNone then some (.nonFiniteFloat x) else none
  | value _ => none
  | key k => if k.untagged.isCompound then some (.compoundKey k.untagged) else none

theorem Place.obstacle?_eq_some_iff {place : Place} {e : ConversionError} :
    place.obstacle? = some e ↔
      (∃ x, place = .value (.num (.float x)) ∧ x.finite? = none ∧ e = .nonFiniteFloat x) ∨
        ∃ k, place = .key k ∧ k.untagged.isCompound = true ∧ e = .compoundKey k.untagged := by
  cases place with
  | key k => grind [obstacle?]
  | value t =>
    rcases t with _ | _ | (_ | x) | _ | _ | _ | _
    case num.float => grind [obstacle?, Option.isNone_iff_eq_none]
    all_goals simp [obstacle?]

/-! ## Errors of conversion -/

theorem Numeral.errorOf?_toNumber (n : Numeral) :
    errorOf? n.toNumber = (Place.value (.num n)).obstacle? := by
  cases n with
  | int i =>
    rw [toNumber_int]
    rfl
  | float x =>
    rw [toNumber_float]
    cases x <;> rfl

namespace Tree

theorem errorOf?_key : ∀ k : Tree, errorOf? k.key = (Place.key k).obstacle?
  | null | bool _ | num _ | str _ | seq _ | map _ => rfl
  | tagged _ content => errorOf?_key content

mutual

/-- The error of conversion is the first obstacle in document order. -/
theorem errorOf?_toValue : ∀ t : Tree, errorOf? t.toValue = t.places.findSome? Place.obstacle?
  | null | bool _ | str _ => rfl
  | num n => by
    rw [toValue, errorOf?_map, n.errorOf?_toNumber, places, List.findSome?_singleton]
    all_goals simp
  | seq items => by
    -- a sequence itself is no obstacle, only its items can be
    rw [toValue, errorOf?_map, errorOf?_itemValues items, places, findSome?_cons_eq_or]
    rfl
  | map entries => by
    rw [toValue, errorOf?_map, errorOf?_entryFields entries, places, findSome?_cons_eq_or]
    rfl
  | tagged tag content => by
    rw [toValue, errorOf?_toValue content, places, findSome?_cons_eq_or]
    rfl

theorem errorOf?_itemValues : ∀ items : List Tree,
    errorOf? (itemValues items) = (placesOfItems items).findSome? Place.obstacle?
  | [] => rfl
  | t :: rest => by
    rw [itemValues, errorOf?_bind fun _ _ => errorOf?_bind_pure, errorOf?_toValue t,
      errorOf?_itemValues rest, placesOfItems, List.findSome?_append]

theorem errorOf?_entryFields : ∀ entries : List (Tree × Tree),
    errorOf? (entryFields entries) = (placesOfEntries entries).findSome? Place.obstacle?
  | [] => rfl
  | (k, t) :: rest => by
    rw [entryFields, errorOf?_bind fun _ _ => errorOf?_bind fun _ _ => errorOf?_bind_pure,
      errorOf?_key, errorOf?_toValue t, errorOf?_entryFields rest, placesOfEntries,
      findSome?_cons_eq_or, List.findSome?_append]

end

/-! ## Obstacles -/

/-- A number within a tree is infinite or NaN, or a key is null, a sequence or a mapping. -/
def Inexpressible (t : Tree) : Prop :=
  (∃ x, .value (.num (.float x)) ∈ t.places ∧ x.finite? = none) ∨
    ∃ k, .key k ∈ t.places ∧ k.untagged.isCompound = true

theorem inexpressible_iff {t : Tree} :
    t.Inexpressible ↔ ∃ place ∈ t.places, place.obstacle?.isSome = true := by
  simp only [Inexpressible, Option.isSome_iff_exists, Place.obstacle?_eq_some_iff]
  constructor
  · rintro (⟨x, hmem, hx⟩ | ⟨k, hmem, hk⟩)
    · exact ⟨_, hmem, _, .inl ⟨x, rfl, hx, rfl⟩⟩
    · exact ⟨_, hmem, _, .inr ⟨k, rfl, hk, rfl⟩⟩
  · rintro ⟨_, hmem, _, ⟨x, rfl, hx, -⟩ | ⟨k, rfl, hk, -⟩⟩
    · exact .inl ⟨x, hmem, hx⟩
    · exact .inr ⟨k, hmem, hk⟩

theorem exists_toValue_eq_error_iff (t : Tree) :
    (∃ e, t.toValue = .error e) ↔ t.Inexpressible := by
  simp only [← errorOf?_eq_some_iff]
  rw [← Option.isSome_iff_exists, errorOf?_toValue, List.findSome?_isSome_iff, inexpressible_iff]

/-- A tree has no value exactly when it is inexpressible. The error is that of the first place in
document order with an obstacle, and names the number, or the key without its outer tags. -/
theorem toValue_fails_at_first_obstacle (t : Tree) :
    ((∃ e, t.toValue = .error e) ↔ t.Inexpressible) ∧
      ∀ e, t.toValue = .error e ↔
        ∃ before place after, t.places = before ++ place :: after ∧
          (∀ p ∈ before, p.obstacle? = none) ∧
          ((∃ x, place = .value (.num (.float x)) ∧ x.finite? = none ∧ e = .nonFiniteFloat x) ∨
            ∃ k, place = .key k ∧ k.untagged.isCompound = true ∧ e = .compoundKey k.untagged ∧
              e.message = "mapping key " ++ k.untagged.describe ++ " is not a scalar") := by
  refine ⟨exists_toValue_eq_error_iff t, fun e => ?_⟩
  rw [← errorOf?_eq_some_iff, errorOf?_toValue, List.findSome?_eq_some_iff]
  constructor
  · rintro ⟨before, place, after, hsplit, hplace, hbefore⟩
    refine ⟨before, place, after, hsplit, hbefore, ?_⟩
    rcases Place.obstacle?_eq_some_iff.mp hplace with hx | ⟨k, hkey, hk, rfl⟩
    · exact .inl hx
    · exact .inr ⟨k, hkey, hk, rfl, rfl⟩
  · rintro ⟨before, place, after, hsplit, hbefore, hplace⟩
    refine ⟨before, place, after, hsplit, Place.obstacle?_eq_some_iff.mpr ?_, hbefore⟩
    rcases hplace with hx | ⟨k, hkey, hk, rfl, -⟩
    · exact .inl hx
    · exact .inr ⟨k, hkey, hk, rfl⟩

/-- NaN may be a key. The sequence that is a key comes before the infinity that is its value, and
stands under a tag that the error leaves out. -/
example : (map [(num (.float .nan), null),
    (tagged "!t" (seq [bool true]), num (.float (.infinite false)))]).toValue =
      .error (.compoundKey (seq [bool true])) := rfl

end Tree

end ShapeMatch.Yaml
