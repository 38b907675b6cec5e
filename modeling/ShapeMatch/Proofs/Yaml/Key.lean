import Mathlib.Data.List.Forall2
import ShapeMatch.Proofs.Number.Text
import ShapeMatch.Proofs.Value.DeepEqual
import ShapeMatch.Proofs.Yaml.Obstacle

/-!
# Keys that become one

Keys of a mapping are told apart by kind, tag and content, but the fields of an object by name
alone. Two keys of a mapping get one name when they differ in their tags only, or when one is a
string that spells the other. Of the entries with such keys the object has the last, and nothing
tells that the others are lost. No other keys collide; in particular no two numbers have one text.

## Main definitions

* `Yaml.Tree.printed?`: the text of a key that is a number or a boolean.
* `Yaml.Tree.Collides`: different keys get one name.

## Main statements

* `Yaml.Numeral.text_injective`: different numbers have different texts.
* `Yaml.Tree.key_eq_key_iff`: when two keys get one name.
* `Yaml.Tree.toValue_map_keeps_all_iff`: what remains of a mapping.
-/

namespace ShapeMatch.Yaml

/-! ## Texts of scalars -/

namespace Numeral

/-- A number whose text does not read as a decimal is infinite or NaN. -/
theorem eq_of_signedDecimal?_text_eq_none {n : Numeral} (h : signedDecimal? n.text = none) :
    n = float .nan ∨ n = float (.infinite true) ∨ n = float (.infinite false) := by
  match n with
  | int i =>
    rw [text, signedDecimal?_toString] at h
    cases h
  | float (.finite x) =>
    obtain ⟨d, hd, -⟩ := x.signedDecimal?_text .bare
    cases hd.symm.trans h
  | float .nan => exact .inl rfl
  | float (.infinite true) => exact .inr (.inl rfl)
  | float (.infinite false) => exact .inr (.inr rfl)

/-- The text of an infinity or of NaN is not that of another number. -/
theorem eq_of_text_eq_of_not_finite {n : Numeral} {x : Double} (hx : x.finite? = none)
    (h : n.text = (float x).text) : n = float x := by
  have hplain : signedDecimal? (float x).text = none := by
    rcases x with _ | ⟨_ | _⟩ | _
    · cases hx
    all_goals decide +kernel
  rcases eq_of_signedDecimal?_text_eq_none (h ▸ hplain) with rfl | rfl | rfl <;>
    rcases eq_of_signedDecimal?_text_eq_none hplain with hx | hx | hx <;> rw [hx] at h ⊢ <;>
    exact absurd h (by decide)

/-- Different numbers have different texts. The zeros count as different. -/
theorem text_injective : Function.Injective text := by
  intro m n h
  rcases n with j | y | _ | _
  case int =>
    rcases m with i | x | _ | _
    · have hread := congrArg signedDecimal? h
      rw [text, text, signedDecimal?_toString, signedDecimal?_toString] at hread
      simp only [Option.some.injEq, Prod.mk.injEq, decide_eq_decide, Decimal.mk.injEq] at hread
      exact congrArg int (by omega)
    · exact absurd h (x.text_ne_toString .bare j)
    all_goals exact (eq_of_text_eq_of_not_finite rfl h.symm).symm
  case float.finite =>
    rcases m with i | x | _ | _
    · exact absurd h.symm (y.text_ne_toString .bare i)
    · exact congrArg (float <| .finite ·) (FiniteDouble.text_injective .bare h)
    all_goals exact (eq_of_text_eq_of_not_finite rfl h.symm).symm
  all_goals exact eq_of_text_eq_of_not_finite rfl h

theorem text_ne_toString_bool (n : Numeral) (b : Bool) : n.text ≠ toString b := by
  intro h
  have hplain : signedDecimal? n.text = none := by
    rw [h]
    cases b <;> decide +kernel
  rcases eq_of_signedDecimal?_text_eq_none hplain with rfl | rfl | rfl <;> cases b <;>
    exact absurd h (by decide)

theorem same_self (n : Numeral) : n.same n = true := by
  rcases n with i | x
  · exact beq_self_eq_true i
  · by_cases hx : x = .nan
    · rw [hx]
      rfl
    · rw [same.eq_def]
      grind [Double.ieeeEq_self]

end Numeral

namespace Tree

variable {k l : Tree} {name : String} {entries : List (Tree × Tree)}

/-! ## Keys -/

/-- The text of a number or a boolean. -/
def printed? : Tree → Option String
  | num n => some n.text
  | bool b => some (toString b)
  | _ => none

/-- There is a tag around a tree. -/
def isTagged : Tree → Bool
  | tagged _ _ => true
  | _ => false

/-- Two keys get one name: they differ in their tags, or one is a string that spells the other. -/
def Collides (k l : Tree) : Prop :=
  (k.untagged = l.untagged ∧ (k.isTagged || l.isTagged) = true) ∨
    ∃ s, (k.untagged = str s ∧ l.untagged.printed? = some s) ∨
      (l.untagged = str s ∧ k.untagged.printed? = some s)

theorem untagged_of_not_isTagged (h : k.isTagged = false) : k.untagged = k := by
  cases k <;> first | rfl | cases h

theorem key_eq_ok_iff {name : String} : ∀ {k : Tree}, k.key = .ok name ↔
    k.untagged = str name ∨ k.untagged.printed? = some name
  | null | seq _ | map _ | num _ | bool _ | str _ => by simp [key, untagged, printed?]
  | tagged _ content => key_eq_ok_iff (k := content)

/-- Numbers and booleans of one text are the same. -/
theorem printed?_inj (hk : k.printed? = some name) (hl : l.printed? = some name) : k = l := by
  match k, l, hk, hl with
  | num m, num n, hk, hl =>
    exact congrArg num (Numeral.text_injective (Option.some.inj (hk.trans hl.symm)))
  | num m, bool b, hk, hl =>
    exact absurd (Option.some.inj (hk.trans hl.symm)) (m.text_ne_toString_bool b)
  | bool a, num n, hk, hl =>
    exact absurd (Option.some.inj (hl.trans hk.symm)) (n.text_ne_toString_bool a)
  | bool a, bool b, hk, hl =>
    have heq : toString a = toString b := Option.some.inj (hk.trans hl.symm)
    cases a <;> cases b <;> first | rfl | exact absurd heq (by decide)

/-- A key that has a name is the same as itself. -/
theorem same_self_of_key {name : String} : ∀ {k : Tree}, k.key = .ok name → k.same k = true
  | num n, _ => n.same_self
  | bool b, _ => beq_self_eq_true b
  | str s, _ => beq_self_eq_true s
  | tagged _ content, h =>
    Bool.and_eq_true_iff.mpr ⟨beq_self_eq_true _, same_self_of_key (k := content) h⟩

/-- Keys that count as different get one name exactly when they collide. -/
theorem key_eq_key_iff (hne : k.same l = false) {name' : String} (hk : k.key = .ok name)
    (hl : l.key = .ok name') : name = name' ↔ k.Collides l := by
  constructor
  · rintro rfl
    have huntagged (heq : k.untagged = l.untagged) : k.Collides l := by
      refine .inl ⟨heq, ?_⟩
      by_contra hplain
      obtain ⟨hk', hl'⟩ := Bool.or_eq_false_iff.mp (eq_false_of_ne_true hplain)
      rw [untagged_of_not_isTagged hk', untagged_of_not_isTagged hl'] at heq
      rw [← heq, same_self_of_key hk] at hne
      cases hne
    rcases key_eq_ok_iff.mp hk with hk | hk <;> rcases key_eq_ok_iff.mp hl with hl | hl
    · exact huntagged (hk.trans hl.symm)
    · exact .inr ⟨name, .inl ⟨hk, hl⟩⟩
    · exact .inr ⟨name, .inr ⟨hl, hk⟩⟩
    · exact huntagged (printed?_inj hk hl)
  · rw [key_eq_ok_iff] at hk hl
    rintro (⟨heq, -⟩ | ⟨s, hcollide⟩)
    · grind [printed?]
    · have hname : name = s ∧ name' = s := by grind [printed?]
      exact hname.1.trans hname.2.symm

/-! ## Entries -/

/-- The entry becomes the field. -/
def Becomes (e : Tree × Tree) (f : String × Value) : Prop :=
  e.1.key = .ok f.1 ∧ e.2.toValue = .ok f.2

theorem entryFields_eq_ok_iff {fields : List (String × Value)} :
    entryFields entries = .ok fields ↔ List.Forall₂ Becomes entries fields := by
  induction entries generalizing fields with
  | nil =>
    rw [entryFields, List.forall₂_nil_left_iff, Except.ok.injEq, eq_comm]
  | cons e rest ih =>
    obtain ⟨k, t⟩ := e
    rw [entryFields, List.forall₂_cons_left_iff]
    simp only [bind_eq_ok, pure_eq_ok, ih]
    constructor
    · rintro ⟨name, hk, v, ht, fields', hrest, rfl⟩
      exact ⟨(name, v), fields', ⟨hk, ht⟩, hrest, rfl⟩
    · rintro ⟨⟨name, v⟩, fields', ⟨hk, ht⟩, hrest, rfl⟩
      exact ⟨name, hk, v, ht, fields', hrest, rfl⟩

theorem toValue_map_eq_ok_iff {v : Value} : (map entries).toValue = .ok v ↔
    ∃ fields, List.Forall₂ Becomes entries fields ∧ v = .obj (Object.ofList fields) := by
  simp only [← entryFields_eq_ok_iff, toValue]
  cases entryFields entries with
  | error e => simp [Except.map]
  | ok fields => simp [Except.map, eq_comm]

/-- Lists that are related item by item can be split at the same place. -/
theorem exists_split_of_forall₂ {α β : Type} {R : α → β → Prop} {xs : List α} {before : List β}
    {y : β} {after : List β} (h : List.Forall₂ R xs (before ++ y :: after)) :
    ∃ before' x after', xs = before' ++ x :: after' ∧ R x y ∧ List.Forall₂ R after' after := by
  have hdrop := List.forall₂_drop_append xs before (y :: after) h
  obtain ⟨x, after', hxy, hafter, hsplit⟩ := List.forall₂_cons_right_iff.mp hdrop
  exact ⟨xs.take before.length, x, after', by rw [← hsplit, List.take_append_drop], hxy, hafter⟩

variable {fields : List (String × Value)}

theorem exists_field_of_mem (h : List.Forall₂ Becomes entries fields) {e : Tree × Tree}
    (he : e ∈ entries) : ∃ f ∈ fields, Becomes e f := by
  have hflip : List.Forall₂ (fun f e => Becomes e f) fields entries := h.flip
  exact forall_mem_of_forall₂ (P := fun e => ∃ f ∈ fields, Becomes e f) hflip
    (fun f hf _ hef => ⟨f, hf, hef⟩) e he

theorem exists_entry_of_mem (h : List.Forall₂ Becomes entries fields) {f : String × Value}
    (hf : f ∈ fields) : ∃ e ∈ entries, Becomes e f :=
  forall_mem_of_forall₂ (P := fun f => ∃ e ∈ entries, Becomes e f) h
    (fun e he _ hef => ⟨e, he, hef⟩) f hf

/-- Of the entries with one name, the object has the last. -/
theorem get?_ofList_becomes (h : List.Forall₂ Becomes entries fields) {w : Value} :
    (Object.ofList fields).get? name = some w ↔
      ∃ before k t after, entries = before ++ (k, t) :: after ∧ k.key = .ok name ∧
        t.toValue = .ok w ∧ ∀ e ∈ after, e.1.key ≠ .ok name := by
  have hflip : List.Forall₂ (fun f e => Becomes e f) fields entries := h.flip
  rw [Object.get?_ofList_eq_some_iff]
  constructor
  · rintro ⟨before, after, rfl, hlast⟩
    obtain ⟨before', ⟨k, t⟩, after', rfl, ⟨hk, ht⟩, hafter⟩ := exists_split_of_forall₂ h
    refine ⟨before', k, t, after', rfl, hk, ht, fun e he hname => ?_⟩
    obtain ⟨f, hf, hef⟩ := exists_field_of_mem hafter he
    exact hlast f hf (Except.ok.inj (hef.1.symm.trans hname))
  · rintro ⟨before, k, t, after, rfl, hk, ht, hlast⟩
    obtain ⟨before', f, after', rfl, ⟨hfk, hft⟩, hafter⟩ := exists_split_of_forall₂ hflip
    have hf : f = (name, w) :=
      Prod.ext (Except.ok.inj (hfk.symm.trans hk)) (Except.ok.inj (hft.symm.trans ht))
    refine ⟨before', after', by rw [hf], fun f' hf' hname => ?_⟩
    obtain ⟨e, he, hef⟩ := exists_entry_of_mem hafter.flip hf'
    exact hlast e he (hname ▸ hef.1)

/-- The names of different keys are different when no two of the keys collide. -/
theorem nodup_becomes_iff (hdistinct : entries.Pairwise fun a b => a.1.same b.1 = false)
    (h : List.Forall₂ Becomes entries fields) :
    (fields.map Prod.fst).Nodup ↔ entries.Pairwise fun a b => ¬ a.1.Collides b.1 := by
  induction h with
  | nil => simp
  | @cons e f entries fields hhead hrest ih =>
    obtain ⟨hne, hdistinct⟩ := List.pairwise_cons.mp hdistinct
    rw [List.map_cons, List.nodup_cons, List.pairwise_cons, ih hdistinct]
    refine and_congr_left fun _ => ?_
    rw [List.mem_map]
    constructor
    · intro hnew e' he' hcollide
      obtain ⟨f', hf', hef⟩ := exists_field_of_mem hrest he'
      exact hnew ⟨f', hf', ((key_eq_key_iff (hne e' he') hhead.1 hef.1).mpr hcollide).symm⟩
    · rintro hfree ⟨f', hf', heq⟩
      obtain ⟨e', he', hef⟩ := exists_entry_of_mem hrest hf'
      exact hfree e' he' ((key_eq_key_iff (hne e' he') hhead.1 hef.1).mp heq.symm)

/-- The object of a mapping with different keys has, of each name, the value of the last entry with
it. It has as many fields as there are entries exactly when no two keys collide, and then every
entry is one of its fields. -/
theorem toValue_map_keeps_all_iff {v : Value}
    (hdistinct : entries.Pairwise fun a b => a.1.same b.1 = false)
    (h : (map entries).toValue = .ok v) :
    ∃ o : Object, v = .obj o ∧ o.Sorted ∧
      (∀ name w, o.get? name = some w ↔
        ∃ before k t after, entries = before ++ (k, t) :: after ∧ k.key = .ok name ∧
          t.toValue = .ok w ∧ ∀ e ∈ after, e.1.key ≠ .ok name) ∧
      (o.length = entries.length ↔ entries.Pairwise fun a b => ¬ a.1.Collides b.1) ∧
      ((entries.Pairwise fun a b => ¬ a.1.Collides b.1) →
        ∀ e ∈ entries, ∃ name w, e.1.key = .ok name ∧ e.2.toValue = .ok w ∧
          o.get? name = some w) := by
  obtain ⟨fields, hfields, rfl⟩ := toValue_map_eq_ok_iff.mp h
  have hsorted := Object.sorted_ofList fields
  have hnodup := nodup_becomes_iff hdistinct hfields
  refine ⟨_, rfl, hsorted, fun name w => get?_ofList_becomes hfields, ?_, fun hfree e he => ?_⟩
  · rw [hfields.length_eq, Object.length_ofList_eq_iff, hnodup]
  · obtain ⟨⟨name, w⟩, hmem, hk, ht⟩ := exists_field_of_mem hfields he
    refine ⟨name, w, hk, ht, ?_⟩
    rw [Object.get?_eq_some_iff hsorted.nodup_keys]
    exact (Object.ofList_perm (hnodup.mpr hfree)).mem_iff.mpr hmem

/-- The string `"1"` takes the place of the integer before it. Without that integer nothing is lost:
the integer zero and the double have different texts, and a boolean keeps its own under a tag. -/
theorem toValue_map_of_spelt_integer :
    let zero : FiniteDouble := ⟨false, ⟨0, by decide⟩⟩
    let rest : List (Tree × Tree) := [(str "1", str "b"), (num (.int 0), str "c"),
      (num (.float (.finite zero)), str "d"), (tagged "!t" (bool true), null)]
    let entries := (num (.int 1), str "a") :: rest
    let o : Object := [("0", .str "c"), ("0.0", .str "d"), ("1", .str "b"), ("true", .null)]
    (entries.Pairwise fun a b => a.1.same b.1 = false) ∧
      (map entries).toValue = .ok (.obj o) ∧ (map rest).toValue = .ok (.obj o) ∧
      (¬ entries.Pairwise fun a b => ¬ a.1.Collides b.1) ∧
      (rest.Pairwise fun a b => ¬ a.1.Collides b.1) ∧
      ∀ e ∈ rest, ∃ name w, e.1.key = .ok name ∧ e.2.toValue = .ok w ∧ o.get? name = some w := by
  intro zero rest entries o
  have hdistinct : entries.Pairwise fun a b => a.1.same b.1 = false := by decide +kernel
  have hzero : zero.text .bare = "0.0" := by decide +kernel
  have hfields : List.Forall₂ Becomes rest [("1", .str "b"), ("0", .str "c"), ("0.0", .str "d"),
      ("true", .null)] :=
    .cons ⟨rfl, rfl⟩ (.cons ⟨rfl, rfl⟩ (.cons ⟨congrArg _ hzero, rfl⟩ (.cons ⟨rfl, rfl⟩ .nil)))
  have hrest : (map rest).toValue = .ok (.obj o) :=
    toValue_map_eq_ok_iff.mpr ⟨_, hfields, rfl⟩
  have hentries : (map entries).toValue = .ok (.obj o) :=
    toValue_map_eq_ok_iff.mpr ⟨("1", .str "a") :: _, .cons ⟨rfl, rfl⟩ hfields, rfl⟩
  obtain ⟨p, hp, -, -, hfew, -⟩ := toValue_map_keeps_all_iff hdistinct hentries
  obtain rfl : o = p := Value.obj.inj hp
  obtain ⟨p, hp, -, -, hall, hkept⟩ := toValue_map_keeps_all_iff hdistinct.of_cons hrest
  obtain rfl : o = p := Value.obj.inj hp
  have hfree : rest.Pairwise fun a b => ¬ a.1.Collides b.1 := hall.mp rfl
  exact ⟨hdistinct, hentries, hrest, fun h => absurd (hfew.mpr h) (by decide), hfree, hkept hfree⟩

end Tree

end ShapeMatch.Yaml
