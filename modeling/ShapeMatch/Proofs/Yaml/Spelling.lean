import ShapeMatch.Proofs.Value.Fields
import ShapeMatch.Proofs.Yaml.Obstacle

/-!
# Trees that spell a value

Every value can be written as a tree, in many ways: the entries of a mapping may stand in any order,
and any value or key may carry tags. Conversion undoes all of that, and keeps integers and doubles
apart.

## Main definitions

* `Yaml.Tree.Spells`: a tree is a way of writing a value.
* `Yaml.Tree.ofValue`: a value written without tags, keys in order.

## Main statements

* `Yaml.Tree.Spells.toValue`: a tree that spells a well-formed value has that value.
* `Yaml.Tree.spells_ofValue`: every value is spelt by a tree.
* `Yaml.Tree.toValue_eq_of_spells`: values survive being written as trees.
-/

namespace ShapeMatch.Yaml.Tree

/-! ## Spellings -/

mutual

/-- A tree is a way of writing a value. Numbers are of the same kind, the entries of a mapping are
the fields of the object in any order, and there may be tags around values and keys. -/
inductive Spells : Tree → Value → Prop
  | null : Spells null .null
  | bool (b : Bool) : Spells (bool b) (.bool b)
  | int (i : Int) : Spells (num (.int i)) (.num (.int i))
  | float (x : FiniteDouble) : Spells (num (.float (.finite x))) (.num (.float x))
  | str (s : String) : Spells (str s) (.str s)
  | seq {items : List Tree} {values : List Value} (h : SpellsItems items values) :
      Spells (seq items) (.arr values)
  | map {entries : List (Tree × Tree)} {fields : List (String × Value)} {o : Object}
      (h : SpellsEntries entries fields) (hperm : fields.Perm o) : Spells (map entries) (.obj o)
  | tagged (tag : String) {t : Tree} {v : Value} (h : Spells t v) : Spells (tagged tag t) v

inductive SpellsItems : List Tree → List Value → Prop
  | nil : SpellsItems [] []
  | cons {t : Tree} {v : Value} {rest : List Tree} {values : List Value} (h : Spells t v)
      (hrest : SpellsItems rest values) : SpellsItems (t :: rest) (v :: values)

/-- Entries spell fields one by one. A key is a string, with or without tags. -/
inductive SpellsEntries : List (Tree × Tree) → List (String × Value) → Prop
  | nil : SpellsEntries [] []
  | cons {k t : Tree} {name : String} {v : Value} {rest : List (Tree × Tree)}
      {fields : List (String × Value)} (hkey : k.untagged = .str name) (h : Spells t v)
      (hrest : SpellsEntries rest fields) : SpellsEntries ((k, t) :: rest) ((name, v) :: fields)

end

mutual

/-- A value written without tags, keys in order. -/
def ofValue : Value → Tree
  | .null => null
  | .bool b => bool b
  | .num (.int i) => num (.int i)
  | .num (.float x) => num (.float (.finite x))
  | .str s => str s
  | .arr items => seq (ofItems items)
  | .obj fields => map (ofFields fields)

def ofItems : List Value → List Tree
  | [] => []
  | v :: rest => ofValue v :: ofItems rest

def ofFields : List (String × Value) → List (Tree × Tree)
  | [] => []
  | (name, v) :: rest => (str name, ofValue v) :: ofFields rest

end

mutual

theorem spells_ofValue : ∀ v : Value, (ofValue v).Spells v
  | .null => .null
  | .bool b => .bool b
  | .num (.int i) => .int i
  | .num (.float x) => .float x
  | .str s => .str s
  | .arr items => .seq (spells_ofItems items)
  | .obj fields => .map (spells_ofFields fields) (.refl fields)

theorem spells_ofItems : ∀ items : List Value, SpellsItems (ofItems items) items
  | [] => .nil
  | v :: rest => .cons (spells_ofValue v) (spells_ofItems rest)

theorem spells_ofFields : ∀ fields : List (String × Value), SpellsEntries (ofFields fields) fields
  | [] => .nil
  | (_, v) :: rest => .cons rfl (spells_ofValue v) (spells_ofFields rest)

end

/-! ## Conversion -/

theorem key_eq_of_untagged {name : String} : ∀ {k : Tree}, k.untagged = .str name → k.key = .ok name
  | str _, h => congrArg Except.ok (str.inj h)
  | tagged _ content, h => key_eq_of_untagged (k := content) h

mutual

/-- A tree that spells a well-formed value has that value. -/
theorem Spells.toValue {t : Tree} {v : Value} : t.Spells v → v.WellFormed → t.toValue = .ok v
  | .null, _ | .bool _, _ | .float _, _ | .str _, _ => rfl
  | .int i, _ => by
    rw [Tree.toValue, Numeral.toNumber_int]
    rfl
  | .seq h, hv => by
    rw [Tree.toValue, h.itemValues (Value.wellFormed_arr_iff.1 hv)]
    rfl
  | .map (o := o) h hperm, hv => by
    obtain ⟨hsorted, hfields⟩ := Value.wellFormed_obj_iff.1 hv
    -- the fields come in document order, and building the object sorts them
    rw [Tree.toValue, h.entryFields fun f hf => hfields f (hperm.mem_iff.1 hf)]
    exact congrArg (Except.ok ∘ Value.obj) (hsorted.ofList_eq hperm)
  | .tagged _ h, hv => h.toValue hv

theorem SpellsItems.itemValues {items : List Tree} {values : List Value} :
    SpellsItems items values → (∀ v ∈ values, v.WellFormed) → itemValues items = .ok values
  | .nil, _ => rfl
  | .cons h hrest, hvalues => by
    obtain ⟨hv, hvalues⟩ := List.forall_mem_cons.1 hvalues
    rw [Tree.itemValues, h.toValue hv, hrest.itemValues hvalues]
    rfl

theorem SpellsEntries.entryFields {entries : List (Tree × Tree)} {fields : List (String × Value)} :
    SpellsEntries entries fields → (∀ f ∈ fields, f.2.WellFormed) →
      entryFields entries = .ok fields
  | .nil, _ => rfl
  | .cons hkey h hrest, hfields => by
    obtain ⟨hv, hfields⟩ := List.forall_mem_cons.1 hfields
    rw [Tree.entryFields, key_eq_of_untagged hkey, h.toValue hv, hrest.entryFields hfields]
    rfl

end

/-- A well-formed value comes back from the tree that it is written as, and from every other one
that spells it. -/
theorem toValue_eq_of_spells {v : Value} (h : v.WellFormed) :
    (ofValue v).toValue = .ok v ∧ ∀ t : Tree, t.Spells v → t.toValue = .ok v :=
  ⟨(spells_ofValue v).toValue h, fun _ ht => ht.toValue h⟩

/-- The least signed and the greatest unsigned integer of 64 bits, the first integer that is not
signed, and the negative zero. Keys are out of order, and tags stand around a key and values. -/
theorem toValue_of_tags_and_limits :
    let negativeZero : FiniteDouble := ⟨true, ⟨0, by decide⟩⟩
    let v : Value := .obj
      [("limits", .arr [.num (.int (-9223372036854775808)), .num (.int 9223372036854775808),
        .num (.int 18446744073709551615)]),
        ("zero", .num (.float negativeZero))]
    v.WellFormed ∧ (ofValue v).toValue = .ok v ∧
      (map [(tagged "!key" (str "zero"), num (.float (.finite negativeZero))),
        (str "limits", tagged "!list" (seq [num (.int (-9223372036854775808)),
          tagged "!!int" (num (.int 9223372036854775808)),
          num (.int 18446744073709551615)]))]).toValue = .ok v := by
  intro negativeZero v
  have hv : v.WellFormed := by decide +kernel
  obtain ⟨hplain, hspelt⟩ := toValue_eq_of_spells hv
  refine ⟨hv, hplain, hspelt _ ?_⟩
  have hlimits := SpellsItems.cons (.int (-9223372036854775808))
    (.cons (.tagged "!!int" (.int 9223372036854775808))
      (.cons (.int 18446744073709551615) .nil))
  exact .map (.cons rfl (.float negativeZero) (.cons rfl (.tagged "!list" (.seq hlimits)) .nil))
    (.swap ..)

end ShapeMatch.Yaml.Tree
