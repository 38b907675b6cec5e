import Mathlib.Logic.Relation
import ShapeMatch.Proofs.KeyPattern
import ShapeMatch.Proofs.Object.Relaxation
import ShapeMatch.Proofs.Schema.Compile

/-!
# Relaxing schemas

Parentheses around the key of an entry make it optional, and further entries that are optional and
name no field may be added. Such an edit, at any node of a schema, loses no value that the schema
accepts. Enclosing nodes accept more values too: an entry whose schema accepts more is a relaxed
demand.

## Main definitions

* `Schema.RelaxStep`: one node of a schema is relaxed.
* `Schema.Relaxed`: nodes are relaxed, one after another.

## Main statements

* `Schema.Relaxed.compiles_and_accepts`: a relaxed schema compiles and loses no accepted value.
-/

namespace ShapeMatch

namespace Schema

/-- An optional wildcard key, without a label or with one. -/
def IsOptionalWildcard (key : String) : Prop :=
  key = "(*)" ∨ ∃ label, label ≠ "" ∧ '*' ∉ label.toList ∧ '\n' ∉ label.toList ∧
    key = "(*" ++ label ++ "*)"

/-- One node of a schema is relaxed: a key is put in parentheses, or an optional wildcard or an
optional catch-all is added to an object that has entries. A catch-all is added only to entries
that have none, optional or not: with two of them the schema would not compile. -/
inductive RelaxStep (interp : Interpretation) : Schema → Schema → Prop
  | optional {before after : List (String × Schema)} {key : String} {s : Schema} (hne : key ≠ "")
      (hline : '\n' ∉ key.toList) (hleading : ∀ t ∈ leading? key, t.kind ≠ .optional) :
      RelaxStep interp (object (before ++ (key, s) :: after))
        (object (before ++ ("(" ++ key ++ ")", s) :: after))
  | wildcard {entries : List (String × Schema)} {key : String} {s : Schema} (hne : entries ≠ [])
      (hkey : IsOptionalWildcard key) (hs : s.Compiles interp) :
      RelaxStep interp (object entries) (object (entries ++ [(key, s)]))
  | catchAll {entries : List (String × Schema)} {s : Schema} (hne : entries ≠ [])
      (hnone : ∀ e ∈ entries, e.1 ≠ "**" ∧ e.1 ≠ "(**)") (hs : s.Compiles interp) :
      RelaxStep interp (object entries) (object (entries ++ [("(**)", s)]))
  | inEntry {before after : List (String × Schema)} {key : String} {s t : Schema}
      (h : RelaxStep interp s t) :
      RelaxStep interp (object (before ++ (key, s) :: after)) (object (before ++ (key, t) :: after))
  | inItem {before after : List Schema} {s t : Schema} (h : RelaxStep interp s t) :
      RelaxStep interp (array (before ++ s :: after)) (array (before ++ t :: after))

/-- Nodes of a schema are relaxed, one after another. -/
def Relaxed (interp : Interpretation) : Schema → Schema → Prop :=
  Relation.ReflTransGen (RelaxStep interp)

variable {interp : Interpretation} {s t : Schema} {es fs : List (String × Schema)}

theorem IsOptionalWildcard.ofKey {key : String} (h : IsOptionalWildcard key) :
    KeyPattern.ofKey key = ⟨true, .wildcard⟩ := by
  rcases h with rfl | ⟨label, hne, hstar, hline, rfl⟩
  · decide +kernel
  · exact KeyPattern.ofKey_optional_wildcard hne hstar hline

theorem ofKey_optional_catchAll : KeyPattern.ofKey "(**)" = ⟨true, .catchAll⟩ := by
  decide +kernel

/-! ## Compilation -/

/-- An object schema compiles when its schemas do and at most one key is a catch-all. -/
theorem compiles_object_iff_countP {entries : List (String × Schema)} :
    (object entries).Compiles interp ↔ (∀ e ∈ entries, e.2.Compiles interp) ∧
      (entries.countP fun e => (KeyPattern.ofKey e.1).target = .catchAll) ≤ 1 := by
  rw [compiles_object_iff, catchAllKeys, ← List.countP_eq_length_filter, List.countP_map]
  rfl

theorem RelaxStep.compiles (h : RelaxStep interp s t) (hs : s.Compiles interp) :
    t.Compiles interp := by
  induction h with
  | optional hne hline hleading =>
    have hkey := KeyPattern.ofKey_parenthesized hne hline hleading
    rw [compiles_object_iff_countP, List.forall_mem_append, List.forall_mem_cons] at hs ⊢
    simpa [List.countP_cons, hkey] using hs
  | wildcard hne hkey hadded =>
    rw [compiles_object_iff_countP] at hs ⊢
    rw [List.forall_mem_append, List.forall_mem_singleton, List.countP_append]
    exact ⟨⟨hs.1, hadded⟩, by simpa [hkey.ofKey] using hs.2⟩
  | catchAll hne hnone hadded =>
    rw [compiles_object_iff_countP] at hs ⊢
    rw [List.forall_mem_append, List.forall_mem_singleton, List.countP_append]
    refine ⟨⟨hs.1, hadded⟩, ?_⟩
    rw [List.countP_eq_zero.mpr]
    · simp [ofKey_optional_catchAll]
    · simpa [KeyPattern.target_ofKey_eq_catchAll_iff] using hnone
  | inEntry _ ih =>
    rw [compiles_object_iff_countP, List.forall_mem_append, List.forall_mem_cons] at hs ⊢
    exact ⟨⟨hs.1.1, ih hs.1.2.1, hs.1.2.2⟩, by simpa [List.countP_cons] using hs.2⟩
  | inItem _ ih =>
    rw [compiles_array_iff, List.forall_mem_append, List.forall_mem_cons] at hs ⊢
    exact ⟨hs.1, ih hs.2.1, hs.2.2⟩

theorem Relaxed.compiles (h : Relaxed interp s t) (hs : s.Compiles interp) : t.Compiles interp := by
  induction h with
  | refl => exact hs
  | tail _ hstep ih => exact hstep.compiles ih

/-! ## Meaning -/

section

variable {node : List Demand → Object → Prop}

/-- An object schema asks no more than one with entries if objects that do what these entries ask
do what its own entries ask. -/
theorem asks_object_mono (hne : es ≠ [])
    (h : ∀ o, node (demands interp node es o) o → node (demands interp node fs o) o)
    {parent : Option Object} {v : Value} (hv : (object es).Asks interp node parent v) :
    (object fs).Asks interp node parent v := by
  rw [asks_object_iff] at hv ⊢
  obtain ⟨o, rfl, hnil | hnode⟩ := hv
  · exact absurd hnil hne
  · exact ⟨o, rfl, .inr (h o hnode)⟩

/-- Entries that are about the same fields and whose schemas ask less are relaxed demands. -/
theorem demands_relax {before after : List (String × Schema)} {e e' : String × Schema} {o : Object}
    (he : Demand.RelaxesTo ⟨.ofKey e.1, e.2.Asks interp node (some o)⟩
      ⟨.ofKey e'.1, e'.2.Asks interp node (some o)⟩) :
    List.Forall₂ Demand.RelaxesTo (demands interp node (before ++ e :: after) o)
      (demands interp node (before ++ e' :: after) o) := by
  have hrefl : ∀ ds : List Demand, List.Forall₂ Demand.RelaxesTo ds ds :=
    fun ds => List.forall₂_same.mpr fun d _ => .refl d
  simp only [demands_eq_map, List.map_append, List.map_cons]
  exact List.rel_append (hrefl _) (.cons he (hrefl _))

variable
  (hadd : ∀ {ds : List Demand} {d : Demand} {o : Object}, d.key.optional = true →
    (∀ name, d.key.target ≠ .field name) → node ds o → node (ds ++ [d]) o)
include hadd

theorem asks_object_append (hne : es ≠ []) {key : String}
    (hoptional : (KeyPattern.ofKey key).optional = true)
    (htarget : ∀ name, (KeyPattern.ofKey key).target ≠ .field name) {parent : Option Object}
    {v : Value} (hv : (object es).Asks interp node parent v) :
    (object (es ++ [(key, s)])).Asks interp node parent v := by
  refine asks_object_mono hne ?_ hv
  intro o hnode
  rw [demands_eq_map, List.map_append, ← demands_eq_map]
  exact hadd hoptional htarget hnode

variable
  (hrelax : ∀ {ds ds' : List Demand} {o : Object}, List.Forall₂ Demand.RelaxesTo ds ds' →
    node ds o → node ds' o)
include hrelax

/-- A step loses no value, if demands may be relaxed and optional ones that name no field added. -/
theorem RelaxStep.asks (h : RelaxStep interp s t) {parent : Option Object} {v : Value}
    (hv : s.Asks interp node parent v) : t.Asks interp node parent v := by
  induction h generalizing parent v with
  | optional hne hline hleading =>
    have hkey := KeyPattern.ofKey_parenthesized hne hline hleading
    refine asks_object_mono (by simp) (fun o => hrelax (demands_relax ?_)) hv
    exact ⟨by rw [hkey], fun _ => by rw [hkey], fun _ => id⟩
  | wildcard hne hkey =>
    exact asks_object_append hadd hne (by rw [hkey.ofKey]) (by simp [hkey.ofKey]) hv
  | catchAll hne =>
    exact asks_object_append hadd hne (by rw [ofKey_optional_catchAll])
      (by simp [ofKey_optional_catchAll]) hv
  | inEntry _ ih =>
    -- below the edited node demands change; from there up, one demand at each node accepts more
    refine asks_object_mono (by simp) (fun o => hrelax (demands_relax ?_)) hv
    exact ⟨rfl, id, fun _ => ih⟩
  | inItem _ ih =>
    rw [asks_array_iff] at hv ⊢
    obtain ⟨xs, rfl, hitems⟩ := hv
    simp only [List.forall_mem_append, List.forall_mem_cons] at hitems ⊢
    exact ⟨xs, rfl, fun x hx => ⟨(hitems x hx).1, ih (hitems x hx).2.1, (hitems x hx).2.2⟩⟩

end

theorem Relaxed.follows (h : Relaxed interp s t) {parent : Option Object} {v : Value}
    (hv : s.Follows interp parent v) : t.Follows interp parent v := by
  induction h with
  | refl => exact hv
  | tail _ hstep ih =>
    refine hstep.asks ?_ ?_ ih
    · exact fun hoptional htarget ⟨hcovers, haccounts⟩ =>
        ⟨hcovers.append_optional hoptional, haccounts.append_optional hoptional htarget⟩
    · exact fun hds ⟨hcovers, haccounts⟩ => ⟨hcovers.relax hds, haccounts.relax hds⟩

/-- A relaxed schema compiles if the schema does, and accepts all that the schema accepts, alone or
within an object. -/
theorem Relaxed.compiles_and_accepts (h : Relaxed interp s t) {m : Matcher}
    (hm : s.compile interp = .ok m) :
    ∃ n, t.compile interp = .ok n ∧
      (∀ v, m.matchesAlone v = true → n.matchesAlone v = true) ∧
        ∀ parent v, m.matchesIn parent v = true → n.matchesIn parent v = true := by
  obtain ⟨n, hn⟩ := h.compiles ⟨m, hm⟩
  have hjudge : ∀ parent v, m.judge parent v = true → n.judge parent v = true := by
    intro parent v
    rw [judge_iff_follows hm, judge_iff_follows hn]
    exact h.follows
  exact ⟨n, hn, hjudge none, fun parent => hjudge (some parent)⟩

/-- An optional wildcard two levels down, parentheses around a key and an optional catch-all keep a
value accepted. -/
theorem accepts_of_relaxed_at_three_nodes :
    ∃ m n,
      compile (fun _ _ => true) (object [("a", .array [.object [("*", .literal (.bool true))]]),
        ("b", .literal .null)]) = .ok m ∧
      compile (fun _ _ => true) (object
        [("a", .array [.object [("*", .literal (.bool true)), ("(*x*)", .undefined)]]),
          ("(b)", .literal .null), ("(**)", .capability ⟨0⟩)]) = .ok n ∧
      m.matchesAlone (.obj [("a", .arr [.obj [("k", .bool true)]]), ("b", .null)]) = true ∧
      n.matchesAlone (.obj [("a", .arr [.obj [("k", .bool true)]]), ("b", .null)]) = true := by
  have hwildcard : RelaxStep (fun _ _ => true)
      (object [("a", .array [.object [("*", .literal (.bool true))]]), ("b", .literal .null)])
      (object [("a", .array [.object [("*", .literal (.bool true)), ("(*x*)", .undefined)]]),
        ("b", .literal .null)]) :=
    @RelaxStep.inEntry _ [] _ _ _ _ (@RelaxStep.inItem _ [] _ _ _
      (@RelaxStep.wildcard _ [_] _ _ (by simp)
        (.inr ⟨"x", by decide +kernel, by decide +kernel, by decide +kernel, by decide +kernel⟩)
        (isOk_iff.mp (by decide +kernel))))
  have hoptional : RelaxStep (fun _ _ => true)
      (object [("a", .array [.object [("*", .literal (.bool true)), ("(*x*)", .undefined)]]),
        ("b", .literal .null)])
      (object [("a", .array [.object [("*", .literal (.bool true)), ("(*x*)", .undefined)]]),
        ("(b)", .literal .null)]) :=
    @RelaxStep.optional _ [_] [] "b" _ (by decide +kernel) (by decide +kernel) (by decide +kernel)
  have hcatchAll : RelaxStep (fun _ _ => true)
      (object [("a", .array [.object [("*", .literal (.bool true)), ("(*x*)", .undefined)]]),
        ("(b)", .literal .null)])
      (object [("a", .array [.object [("*", .literal (.bool true)), ("(*x*)", .undefined)]]),
        ("(b)", .literal .null), ("(**)", .capability ⟨0⟩)]) :=
    @RelaxStep.catchAll _ [_, _] _ (by simp) (by simp) (isOk_iff.mp (by decide +kernel))
  have hrelaxed : Relaxed (fun _ _ => true) _ _ :=
    ((Relation.ReflTransGen.single hwildcard).tail hoptional).tail hcatchAll
  have hrun : ((compile (fun _ _ => true) (object
      [("a", .array [.object [("*", .literal (.bool true))]]), ("b", .literal .null)])).toOption.any
        (·.matchesAlone (.obj [("a", .arr [.obj [("k", .bool true)]]), ("b", .null)]))) = true := by
    decide +kernel
  obtain ⟨m, hm, haccepts⟩ := (Option.any_eq_true _ _).1 hrun
  rw [toOption_eq_some_iff] at hm
  obtain ⟨n, hn, halone, -⟩ := hrelaxed.compiles_and_accepts hm
  exact ⟨m, n, hm, hn, haccepts, halone _ haccepts⟩

end Schema

end ShapeMatch
