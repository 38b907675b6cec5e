import Mathlib.Logic.Relation
import ShapeMatch.Proofs.Schema.Compile

/-!
# Reordering schemas

The order in which an object schema lists its entries and an array schema its schemas, at any
depth, changes neither whether the schema can be compiled nor any verdict. It does change which
wildcards are grouped and every search, so this rests on what the verdicts mean.

## Main definitions

* `Schema.ReorderStep`: the parts of one node are permuted.
* `Schema.Reordered`: the parts of any nodes are permuted, one node after another.

## Main statements

* `Schema.Reordered.compiles_and_judge_eq`: reordering preserves compilation and verdicts.
-/

namespace ShapeMatch

namespace Schema

/-- The entries of one object node or the schemas of one array node are permuted. -/
inductive ReorderStep : Schema → Schema → Prop
  | entries {es fs : List (String × Schema)} (h : es.Perm fs) : ReorderStep (object es) (object fs)
  | items {as bs : List Schema} (h : as.Perm bs) : ReorderStep (array as) (array bs)
  | inEntry {before after : List (String × Schema)} {key : String} {s t : Schema}
      (h : ReorderStep s t) :
      ReorderStep (object (before ++ (key, s) :: after)) (object (before ++ (key, t) :: after))
  | inItem {before after : List Schema} {s t : Schema} (h : ReorderStep s t) :
      ReorderStep (array (before ++ s :: after)) (array (before ++ t :: after))

/-- The parts of object nodes and array nodes are permuted, one node after another. -/
def Reordered : Schema → Schema → Prop := Relation.ReflTransGen ReorderStep

variable {interp : Interpretation} {s t : Schema}

theorem ReorderStep.compiles_iff (h : ReorderStep s t) : s.Compiles interp ↔ t.Compiles interp := by
  induction h with
  | entries h =>
    have hkeys := ((h.map Prod.fst).filter fun key =>
      (KeyPattern.ofKey key).target = .catchAll).length_eq
    simp only [compiles_object_iff, catchAllKeys, hkeys, h.mem_iff]
  | items h => simp only [compiles_array_iff, h.mem_iff]
  | inEntry _ ih => simp [compiles_object_iff, catchAllKeys, or_imp, forall_and, ih]
  | inItem _ ih => simp [compiles_array_iff, or_imp, forall_and, ih]

/-- A step preserves what a schema asks if the order of demands plays no role. -/
theorem ReorderStep.asks_eq {node : List Demand → Object → Prop}
    (hnode : ∀ {ds ds' : List Demand} {o : Object}, ds.Perm ds' → (node ds o ↔ node ds' o))
    (h : ReorderStep s t) : s.Asks interp node = t.Asks interp node := by
  induction h with
  | @entries es fs h =>
    have hnil : es = [] ↔ fs = [] := by
      constructor <;> rintro rfl
      · exact h.nil_eq.symm
      · exact h.eq_nil
    refine asks_object_congr hnil fun o => hnode ?_
    rw [demands_eq_map, demands_eq_map]
    exact h.map _
  | items h => exact asks_array_congr fun x => by simp only [h.mem_iff]
  | inEntry _ ih =>
    apply asks_object_congr (by simp)
    intro o
    simp only [demands_eq_map, List.map_append, List.map_cons, ih]
  | inItem _ ih => exact asks_array_congr fun x => by simp [or_imp, forall_and, ih]

theorem Reordered.follows_eq (h : Reordered s t) : s.Follows interp = t.Follows interp := by
  induction h with
  | refl => rfl
  | tail _ hstep ih =>
    exact ih.trans (hstep.asks_eq fun h => and_congr (coversRequired_perm h) (accounts_perm h))

theorem Reordered.compiles_iff (h : Reordered s t) : s.Compiles interp ↔ t.Compiles interp := by
  induction h with
  | refl => exact Iff.rfl
  | tail _ hstep ih => exact ih.trans hstep.compiles_iff

/-- Reordering a schema at any depth changes neither whether it can be compiled nor any verdict,
alone or within an object. -/
theorem Reordered.compiles_and_judge_eq (h : Reordered s t) :
    ((∃ m, s.compile interp = .ok m) ↔ ∃ n, t.compile interp = .ok n) ∧
      ∀ m n, s.compile interp = .ok m → t.compile interp = .ok n →
        (∀ v, m.matchesAlone v = n.matchesAlone v) ∧
          ∀ parent v, m.matchesIn parent v = n.matchesIn parent v := by
  refine ⟨h.compiles_iff, ?_⟩
  intro m n hm hn
  have hjudge : ∀ parent v, m.judge parent v = n.judge parent v := by
    intro parent v
    rw [Bool.eq_iff_iff, judge_iff_follows hm, judge_iff_follows hn, h.follows_eq]
  exact ⟨fun v => hjudge none v, fun parent v => hjudge (some parent) v⟩

/-- Two wildcards that share a predicate up to order: swapping the entries under one makes them
the same predicate, and swapping the wildcards changes which comes first. -/
theorem judge_eq_of_nested_swap :
    ∃ m n,
      compile (fun _ _ => true) (object
        [("*", .object [("a", .literal .null), ("*", .literal (.bool true))]),
          ("(*)", .object [("*", .literal (.bool true)), ("a", .literal .null)])]) = .ok m ∧
      compile (fun _ _ => true) (object
        [("(*)", .object [("*", .literal (.bool true)), ("a", .literal .null)]),
          ("*", .object [("*", .literal (.bool true)), ("a", .literal .null)])]) = .ok n ∧
      ∀ parent v, m.matchesIn parent v = n.matchesIn parent v := by
  have hinner : ReorderStep
      (object [("*", .object [("a", .literal .null), ("*", .literal (.bool true))]),
        ("(*)", .object [("*", .literal (.bool true)), ("a", .literal .null)])])
      (object [("*", .object [("*", .literal (.bool true)), ("a", .literal .null)]),
        ("(*)", .object [("*", .literal (.bool true)), ("a", .literal .null)])]) :=
    @ReorderStep.inEntry [] _ _ _ _ (.entries (.swap ..))
  have hreordered := Relation.ReflTransGen.tail (.single hinner) (.entries (.swap ..))
  obtain ⟨hcompiles, hjudge⟩ := @Reordered.compiles_and_judge_eq (fun _ _ => true) _ _ hreordered
  obtain ⟨m, hm⟩ := hcompiles.2 (isOk_iff.mp (by decide +kernel))
  obtain ⟨n, hn⟩ := hcompiles.1 ⟨m, hm⟩
  exact ⟨m, n, hm, hn, (hjudge m n hm hn).2⟩

end Schema

end ShapeMatch
