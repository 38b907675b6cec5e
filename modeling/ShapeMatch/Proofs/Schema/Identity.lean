import ShapeMatch.Proofs.Schema.Fault

/-!
# What the identity of predicates decides

Wildcards are grouped by predicate, and capabilities count as one predicate when they are the same
one, not when they test alike. Grouping is sound: schemas of one predicate compile alike and have
the same verdicts. And it decides nothing: exchanging capabilities for others that test alike may
change every group, but neither verdicts nor what is claimed.

## Main definitions

* `Schema.SameShape`: schemas that differ only in which capabilities they hold.

## Main statements

* `Schema.verdicts_eq_of_samePredicate`: schemas of one predicate have the same verdicts.
* `Schema.SameShape.verdicts_eq`: exchanging capabilities for others that test alike changes no
  verdict.
-/

namespace ShapeMatch

variable {interp : Interpretation} {equal : Value → Value → Prop}
  {same : Capability → Capability → Prop}

/-! ## Faults -/

namespace Step

mutual

theorem Alike.any_isEmpty_eq : ∀ {s t : Step}, s.Alike same t →
    s.chains.any Chain.isEmpty = t.chains.any Chain.isEmpty
  | _, _, .capability _ => rfl
  | chain a as, chain b bs, .chain initial steps => by
    have hself : Chain.isEmpty ⟨a, as⟩ = Chain.isEmpty ⟨b, bs⟩ := by cases steps <;> rfl
    rw [chains, chains, List.any_cons, List.any_cons, List.any_append, List.any_append, hself,
      initial.any_isEmpty_eq, steps.any_isEmpty_eq]

theorem AllAlike.any_isEmpty_eq : ∀ {as bs : List (Glue × Step)}, AllAlike same as bs →
    (chainsOfAll as).any Chain.isEmpty = (chainsOfAll bs).any Chain.isEmpty
  | _, _, .nil => rfl
  | _, _, .cons step rest => by
    rw [chainsOfAll, chainsOfAll, List.any_append, List.any_append, step.any_isEmpty_eq,
      rest.any_isEmpty_eq]

end

end Step

namespace Schema

theorem EntriesAlike.keys_eq {es fs : List (String × Schema)} (h : EntriesAlike equal same es fs) :
    es.map Prod.fst = fs.map Prod.fst := by
  induction es generalizing fs with
  | nil => cases h; rfl
  | cons e es ih => cases h with | cons _ rest => rw [List.map_cons, List.map_cons, ih rest]

/-- Nodes that are alike have the same fault. -/
theorem Alike.fault?_eq {s t : Schema} (h : s.Alike equal same t) : s.fault? = t.fault? := by
  cases h with
  | chain h => rw [fault?, fault?, h.any_isEmpty_eq]
  | object h =>
    have hcount : ∀ entries : List (String × Schema), catchAllCount entries =
        (entries.map Prod.fst).countP fun key => key = "**" ∨ key = "(**)" := fun entries => by
      rw [catchAllCount, List.countP_map]
      rfl
    rw [fault?, fault?, hcount, hcount, h.keys_eq]
  | _ => rfl

mutual

/-- Schemas that are alike have the same first fault. -/
theorem Alike.firstFault?_eq : ∀ {s t : Schema}, s.Alike equal same t →
    s.firstFault? = t.firstFault?
  | _, _, .literal h => rfl
  | _, _, .capability h => rfl
  | _, _, .undefined => rfl
  | chain c, chain d, .chain h => by
    have hself : (chain c).Alike equal same (chain d) := .chain h
    rw [firstFault?_chain, firstFault?_chain, hself.fault?_eq]
  | object es, object fs, .object h => by
    have hself : (object es).Alike equal same (object fs) := .object h
    rw [firstFault?_object, firstFault?_object, h.firstFault?_eq, hself.fault?_eq]
  | _, _, .array h => by rw [firstFault?_array, firstFault?_array, h.firstFault?_eq]

theorem EntriesAlike.firstFault?_eq : ∀ {es fs : List (String × Schema)},
    EntriesAlike equal same es fs →
      (es.findSome? fun e => e.2.firstFault?) = fs.findSome? fun e => e.2.firstFault?
  | _, _, .nil => rfl
  | _, _, .cons head rest => by
    rw [findSome?_cons_eq_or, findSome?_cons_eq_or, head.firstFault?_eq, rest.firstFault?_eq]

theorem ItemsAlike.firstFault?_eq : ∀ {as bs : List Schema}, ItemsAlike equal same as bs →
    as.findSome? firstFault? = bs.findSome? firstFault?
  | _, _, .nil => rfl
  | _, _, .cons head rest => by
    rw [findSome?_cons_eq_or, findSome?_cons_eq_or, head.firstFault?_eq, rest.firstFault?_eq]

end

/-! ## Outcomes -/

/-- Schemas with the same first fault that ask the same both fail to compile, with the same error,
or compile to matchers with the same verdicts. -/
theorem compile_cases_of_follows_eq {s t : Schema} (hfault : s.firstFault? = t.firstFault?)
    (hfollows : s.Follows interp = t.Follows interp) :
    (∃ e, s.compile interp = .error e ∧ t.compile interp = .error e) ∨
      ∃ m n, s.compile interp = .ok m ∧ t.compile interp = .ok n ∧
        ∀ parent, m.judge parent = n.judge parent := by
  have herror : errorOf? (s.compile interp) = errorOf? (t.compile interp) := by
    rw [errorOf?_compile, errorOf?_compile, hfault]
  cases hs : s.compile interp with
  | error e =>
    rw [hs] at herror
    exact .inl ⟨e, rfl, errorOf?_eq_some_iff.mp herror.symm⟩
  | ok m =>
    rw [hs] at herror
    obtain ⟨n, hn⟩ := errorOf?_eq_none_iff.mp herror.symm
    exact .inr ⟨m, n, rfl, hn, judge_eq_of_follows_eq hs hn hfollows⟩

/-- Within an object, a wildcard of a group has the verdict of the group. -/
theorem judge_eq_of_mem_members {entries : List (String × Schema)} {rules : ObjectRules Matcher}
    (hrules : compileRules interp entries = .ok rules) {g : WildcardGroup Matcher}
    (hg : g ∈ rules.groups) {r : WildcardRule Matcher} (hr : r ∈ g.members) (o : Object) :
    r.value.judge (some o) = g.value.judge (some o) := by
  obtain ⟨compiled, hentries, hcompiled⟩ := bind_eq_ok.1 hrules
  obtain ⟨rfl, hvalues⟩ := compileEntries_eq_ok_iff.mp hentries
  obtain ⟨-, rfl⟩ := ObjectRules.ofEntries_eq_ok_iff.mp hcompiled
  refine (WildcardGroup.value_eq_of_mem_members (f := fun m => m.judge (some o)) ?_ hg hr).symm
  intro x hx y hy hsame
  obtain ⟨d, hd, hdx, hdx'⟩ := ObjectRules.exists_entry_of_mem_wildcards hx
  obtain ⟨e, he, hey, hey'⟩ := ObjectRules.exists_entry_of_mem_wildcards hy
  rw [← hdx', ← hey']
  exact judge_eq_of_samePredicate (hvalues d hd) (hvalues e he) (by rwa [hdx, hey]) _

/-- Schemas of one predicate fail to compile with the same error, or compile to matchers with the
same verdicts. Each wildcard of a group therefore accepts the fields that the group accepts. -/
theorem verdicts_eq_of_samePredicate (interp : Interpretation) :
    (∀ s t : Schema, s.samePredicate t = true →
      (∃ e, s.compile interp = .error e ∧ t.compile interp = .error e) ∨
        ∃ m n, s.compile interp = .ok m ∧ t.compile interp = .ok n ∧
          (∀ v, m.matchesAlone v = n.matchesAlone v) ∧
          ∀ parent v, m.matchesIn parent v = n.matchesIn parent v) ∧
      ∀ entries rules, compileRules interp entries = .ok rules →
        ∀ g ∈ rules.groups, ∀ r ∈ g.members, ∀ o key v,
          ((r.toTest (.finite 1)).key.accepts key && r.value.matchesIn o v) =
            g.value.matchesIn o v := by
  constructor
  · intro s t hsame
    have hfollows : s.Follows interp = t.Follows interp := asks_eq_of_samePredicate hsame
    rcases compile_cases_of_follows_eq (alike_of_samePredicate hsame).firstFault?_eq hfollows with
      herror | ⟨m, n, hm, hn, hjudge⟩
    · exact .inl herror
    · exact .inr ⟨m, n, hm, hn, congrFun (hjudge none),
        fun parent => congrFun (hjudge (some parent))⟩
  · intro entries rules hrules g hg r hr o key v
    exact congrFun (judge_eq_of_mem_members hrules hg hr o) v

/-- Zero and the double `-0.0` are one predicate, so two wildcards that ask for them form one group,
and each accepts what the group accepts. -/
theorem one_group_of_zeros :
    (∃ m n,
      compile (fun _ _ => true) (object [("*", .literal (.num (.int 0)))]) = .ok m ∧
      compile (fun _ _ => true)
        (object [("*", .literal (.num (.float ⟨true, ⟨0, by decide⟩⟩)))]) = .ok n ∧
      ∀ parent v, m.matchesIn parent v = n.matchesIn parent v) ∧
    ∃ rules,
      compileRules (fun _ _ => true) [("*", .literal (.num (.int 0))),
        ("(*x*)", .literal (.num (.float ⟨true, ⟨0, by decide⟩⟩)))] = .ok rules ∧
      rules.groups.map (·.members.length) = [2] ∧
      ∀ g ∈ rules.groups, ∀ r ∈ g.members, ∀ o key v,
        ((r.toTest (.finite 1)).key.accepts key && r.value.matchesIn o v) =
          g.value.matchesIn o v := by
  obtain ⟨hverdicts, hgroups⟩ := verdicts_eq_of_samePredicate fun _ _ => true
  constructor
  · rcases hverdicts (object [("*", .literal (.num (.int 0)))])
      (object [("*", .literal (.num (.float ⟨true, ⟨0, by decide⟩⟩)))])
      (by decide +kernel) with ⟨e, he, -⟩ | ⟨m, n, hm, hn, -, hin⟩
    · obtain ⟨m, hm⟩ := isOk_iff.mp (show (compile (fun _ _ => true)
        (object [("*", .literal (.num (.int 0)))])).isOk = true by decide +kernel)
      cases he.symm.trans hm
    · exact ⟨m, n, hm, hn, hin⟩
  · have hrun : ((compileRules (fun _ _ => true) [("*", .literal (.num (.int 0))),
        ("(*x*)", .literal (.num (.float ⟨true, ⟨0, by decide⟩⟩)))]).toOption.any fun rules =>
          decide (rules.groups.map (·.members.length) = [2])) = true := by
      decide +kernel
    obtain ⟨rules, hrules, hlengths⟩ := (Option.any_eq_true _ _).1 hrun
    rw [toOption_eq_some_iff] at hrules
    exact ⟨rules, hrules, of_decide_eq_true hlengths, hgroups _ rules hrules⟩

/-- Schemas that differ only in which capabilities they hold: those that correspond test alike. -/
def SameShape (interp : Interpretation) : Schema → Schema → Prop :=
  Alike Eq fun c d => ∀ v, interp c v = interp d v

variable {node : List Demand → Object → Prop} {s t : Schema} {es fs : List (String × Schema)}

theorem SameShape.asks_eq (h : s.SameShape interp t) : s.Asks interp node = t.Asks interp node :=
  Alike.asks_eq (fun _ _ hvw => by rw [hvw]) (fun _ _ hcd => funext hcd) h

theorem SameShape.demands_eq (h : (object es).SameShape interp (object fs)) :
    demands interp node es = demands interp node fs := by
  cases h with
  | object h => exact h.demands_eq (fun _ _ hvw => by rw [hvw]) fun _ _ hcd => funext hcd

/-- If rules can be made of entries, they can be made of entries that differ only in capabilities
that test alike, and these rules claim as many fields. -/
theorem SameShape.exists_rules (h : (object es).SameShape interp (object fs))
    {rules : ObjectRules Matcher} (hrules : compileRules interp es = .ok rules) :
    ∃ rules', compileRules interp fs = .ok rules' ∧
      ∀ o claimed, (rules.within o).reconcile o = .ok claimed ↔
        (rules'.within o).reconcile o = .ok claimed := by
  have hfault : errorOf? (compileRules interp fs) = errorOf? (compileRules interp es) := by
    rw [errorOf?_compileRules fun e _ => errorOf?_compile e.2,
      errorOf?_compileRules fun e _ => errorOf?_compile e.2, h.firstFault?_eq]
  obtain ⟨rules', hrules'⟩ := errorOf?_eq_none_iff.mp
    (hfault.trans (errorOf?_eq_none_iff.mpr ⟨rules, hrules⟩))
  refine ⟨rules', hrules', ?_⟩
  intro o claimed
  simp only [reconcile_compileRules_eq_ok_iff hrules, reconcile_compileRules_eq_ok_iff hrules',
    h.demands_eq]

/-- Exchanging capabilities for others that test alike changes neither whether a schema can be
compiled nor any verdict nor how many fields an object schema claims, although wildcards may be
grouped in another way. -/
theorem SameShape.verdicts_eq (h : s.SameShape interp t) :
    ((∃ m, s.compile interp = .ok m) ↔ ∃ n, t.compile interp = .ok n) ∧
      (∀ m n, s.compile interp = .ok m → t.compile interp = .ok n →
        (∀ v, m.matchesAlone v = n.matchesAlone v) ∧
          ∀ parent v, m.matchesIn parent v = n.matchesIn parent v) ∧
      ∀ es fs rules, s = object es → t = object fs → compileRules interp es = .ok rules →
        ∃ rules', compileRules interp fs = .ok rules' ∧
          ∀ o claimed, (rules.within o).reconcile o = .ok claimed ↔
            (rules'.within o).reconcile o = .ok claimed := by
  refine ⟨?_, ?_, ?_⟩
  · rw [← errorOf?_eq_none_iff, ← errorOf?_eq_none_iff, errorOf?_compile, errorOf?_compile,
      h.firstFault?_eq]
  · intro m n hm hn
    have hjudge := judge_eq_of_follows_eq hm hn h.asks_eq
    exact ⟨congrFun (hjudge none), fun parent => congrFun (hjudge (some parent))⟩
  · rintro es fs rules rfl rfl hrules
    exact h.exists_rules hrules

/-- Two wildcards with one capability form a group, and with two that test alike they form two
groups. The rules claim the same. -/
theorem reconcile_iff_of_shared_capability :
    ∃ rules rules',
      compileRules (fun _ => Value.isArray) [("*", .capability ⟨0⟩), ("(*x*)", .capability ⟨0⟩),
        ("(**)", .chain ⟨.capability ⟨0⟩, [(.or, .capability ⟨1⟩)]⟩)] = .ok rules ∧
      compileRules (fun _ => Value.isArray) [("*", .capability ⟨0⟩), ("(*x*)", .capability ⟨1⟩),
        ("(**)", .chain ⟨.capability ⟨2⟩, [(.or, .capability ⟨2⟩)]⟩)] = .ok rules' ∧
      rules.groups.length = 1 ∧ rules'.groups.length = 2 ∧
      ∀ o claimed, (rules.within o).reconcile o = .ok claimed ↔
        (rules'.within o).reconcile o = .ok claimed := by
  have hshape : SameShape (fun _ => Value.isArray)
      (object [("*", .capability ⟨0⟩), ("(*x*)", .capability ⟨0⟩),
        ("(**)", .chain ⟨.capability ⟨0⟩, [(.or, .capability ⟨1⟩)]⟩)])
      (object [("*", .capability ⟨0⟩), ("(*x*)", .capability ⟨1⟩),
        ("(**)", .chain ⟨.capability ⟨2⟩, [(.or, .capability ⟨2⟩)]⟩)]) := by
    refine .object (.cons ?_ (.cons ?_ (.cons ?_ .nil)))
    · exact .capability fun _ => rfl
    · exact .capability fun _ => rfl
    · exact .chain (.chain (.capability fun _ => rfl) (.cons (.capability fun _ => rfl) .nil))
  have hrun : ((compileRules (fun _ => Value.isArray) [("*", .capability ⟨0⟩),
      ("(*x*)", .capability ⟨0⟩),
      ("(**)", .chain ⟨.capability ⟨0⟩, [(.or, .capability ⟨1⟩)]⟩)]).toOption.any fun rules =>
        rules.groups.length == 1) = true := by
    decide +kernel
  have hrun' : ((compileRules (fun _ => Value.isArray) [("*", .capability ⟨0⟩),
      ("(*x*)", .capability ⟨1⟩),
      ("(**)", .chain ⟨.capability ⟨2⟩, [(.or, .capability ⟨2⟩)]⟩)]).toOption.any fun rules =>
        rules.groups.length == 2) = true := by
    decide +kernel
  obtain ⟨rules, hrules, hone⟩ := (Option.any_eq_true _ _).1 hrun
  obtain ⟨rules', hrules', htwo⟩ := (Option.any_eq_true _ _).1 hrun'
  rw [toOption_eq_some_iff] at hrules hrules'
  obtain ⟨rules'', hrules'', hiff⟩ := hshape.verdicts_eq.2.2 _ _ rules rfl rfl hrules
  obtain rfl : rules' = rules'' := by
    rw [← Except.ok.injEq, ← hrules', ← hrules'']
  exact ⟨rules, rules', hrules, hrules', by simpa using hone, by simpa using htwo, hiff⟩

end Schema

end ShapeMatch
