import ShapeMatch.Compile
import ShapeMatch.Proofs.Object.Grouping
import ShapeMatch.Proofs.Schema.Likeness

/-!
# Compiled schemas decide what schemas mean

## Main statements

* `Schema.judge_iff_follows`: the verdict of a compiled schema is its meaning with the bound on
  the number of fields.
* `Schema.reconcile_compileRules_eq_ok_iff`: when the rules of an object schema can be reconciled
  with an object.
* `Schema.compiles_object_iff`, `Schema.compiles_array_iff`: when a schema can be compiled.
-/

namespace ShapeMatch

namespace Schema

variable {interp : Interpretation}

/-! ## Parts -/

theorem compileItems_eq_ok_iff {items : List Schema} {matchers : List Matcher} :
    compileItems interp items = .ok matchers ↔
      List.Forall₂ (fun s m => s.compile interp = .ok m) items matchers := by
  induction items generalizing matchers with
  | nil => cases matchers <;> simp [compileItems]
  | cons s rest ih =>
    simp only [compileItems, bind_eq_ok, pure_eq_ok, List.forall₂_cons_left_iff, ih]
    grind

theorem compileEntries_eq_ok_iff {entries : List (String × Schema)}
    {compiled : List (Entry Matcher)} :
    compileEntries interp entries = .ok compiled ↔
      compiled.map (fun e => (e.key, e.schema)) = entries ∧
        ∀ e ∈ compiled, e.schema.compile interp = .ok e.value := by
  induction entries generalizing compiled with
  | nil => cases compiled <;> simp [compileEntries]
  | cons e rest ih =>
    simp only [compileEntries, bind_eq_ok, pure_eq_ok, ih]
    constructor
    · rintro ⟨m, hm, compiled, ⟨rfl, hcompiled⟩, rfl⟩
      exact ⟨rfl, List.forall_mem_cons.2 ⟨hm, hcompiled⟩⟩
    · rintro ⟨hmap, hcompiled⟩
      obtain ⟨⟨key, schema, m⟩, compiled, rfl, he, rfl⟩ := List.map_eq_cons_iff.mp hmap
      cases he
      obtain ⟨hm, hcompiled⟩ := List.forall_mem_cons.1 hcompiled
      exact ⟨m, hm, compiled, ⟨rfl, hcompiled⟩, rfl⟩

theorem joinCompiled_eq_ok_iff {glue : Glue} {matchers : List Matcher} {m : Matcher} :
    joinCompiled glue matchers = .ok m ↔
      ∃ first rest, matchers = first :: rest ∧ rest.foldl (.join glue) first = m := by
  cases matchers with
  | nil => simp [joinCompiled, Matcher.joinAll, Except.mapError]
  | cons first rest => simp [joinCompiled, Matcher.joinAll, Except.mapError]

@[simp] theorem matchesAlone_join (glue : Glue) (m n : Matcher) (v : Value) :
    (Matcher.join glue m n).matchesAlone v = glue.table (m.matchesAlone v) (n.matchesAlone v) := by
  rw [Matcher.join, Matcher.matchesAlone, Matcher.judge_plain, Glue.apply_eq_table]

/-- Matchers joined by conjunction match when all of them do. -/
theorem matchesAlone_foldl_and (rest : List Matcher) (first : Matcher) (v : Value) :
    (rest.foldl (.join .and) first).matchesAlone v = true ↔
      ∀ m ∈ first :: rest, m.matchesAlone v = true := by
  induction rest generalizing first with
  | nil => simp
  | cons m rest ih =>
    rw [List.foldl_cons, ih]
    simp [Glue.table, and_assoc]

/-- A schema that compiles without reading a string or compiling parts. -/
def isLeaf : Schema → Bool
  | literal (.str _) | array (_ :: _) | object (_ :: _) => false
  | _ => true

theorem compile_eq_compileLeaf {s : Schema} (hleaf : s.isLeaf = true) :
    s.compile interp = compileLeaf interp s := by
  rw [compile]
  · rintro t rfl
    cases hleaf
  · rintro x xs rfl
    cases hleaf
  · rintro e es rfl
    cases hleaf

theorem compileLeaf_eq_ok_iff {s : Schema} {m : Matcher} :
    compileLeaf interp s = .ok m ↔ ∃ test, s.shallowTest interp = .ok test ∧ .plain test = m := by
  unfold compileLeaf
  cases s.shallowTest interp <;> simp

/-! ## Verdicts -/

theorem compileString_eq (s : String) :
    compileString s =
      match leading? s with
      | some ⟨.sibling, name, _⟩ => .sibling name
      | some ⟨.wildcard, _, _⟩ => .plain Value.isAnything
      | _ => .plain fun v => v.deepEqual (.str s) := by
  unfold compileString siblingName?
  rcases leading? s with _ | ⟨kind, name, source⟩
  · rfl
  · cases kind <;> rfl

theorem judge_compileString_iff {s : String} {parent : Option Object} {v : Value} :
    (compileString s).judge parent v = true ↔ StringAsks s parent v := by
  rw [compileString_eq, StringAsks]
  rcases leading? s with _ | ⟨_ | _ | _ | _, name, source⟩
  case some.sibling =>
    simp only [Matcher.judge_sibling]
    cases parent with
    | none => simp
    | some o => cases h : o.get? name <;> simp [refersTo, h]
  case some.wildcard => simp [Matcher.judge_plain, Value.isAnything]
  all_goals simp only [Matcher.judge_plain]

theorem isObject_iff {v : Value} : v.isObject = true ↔ ∃ o, v = .obj o := by
  cases v <;> simp [Value.isObject, Value.kind]

theorem isArray_iff {v : Value} : v.isArray = true ↔ ∃ xs, v = .arr xs := by
  cases v <;> simp [Value.isArray, Value.kind]

/-- A schema without parts to compile decides its meaning. -/
theorem judge_iff_of_isLeaf {node : List Demand → Object → Prop} {s : Schema} {m : Matcher}
    (h : s.compile interp = .ok m) (hleaf : s.isLeaf = true) {parent : Option Object} {v : Value} :
    m.judge parent v = true ↔ s.Asks interp node parent v := by
  rw [compile_eq_compileLeaf hleaf] at h
  obtain ⟨test, htest, rfl⟩ := compileLeaf_eq_ok_iff.mp h
  rw [Matcher.judge_plain]
  cases s with
  | literal w =>
    cases w with
    | str t => cases hleaf
    | obj => cases htest; rw [isObject_iff, Asks]
    | arr => cases htest; rw [isArray_iff, Asks]
    | _ =>
      cases htest
      rw [Asks] <;> simp
  | capability c => cases htest; rw [Asks]
  | chain c => rw [Asks, Chain.build_eq_formula htest]
  | undefined => cases htest; simp [Asks]
  | object entries =>
    obtain rfl : entries = [] := by cases entries with | nil => rfl | cons => cases hleaf
    cases htest
    simp [isObject_iff, asks_object_iff]
  | array items =>
    obtain rfl : items = [] := by cases items with | nil => rfl | cons => cases hleaf
    cases htest
    simp [isArray_iff, asks_array_iff]

/-- Compiled schemas all match a value when the schemas, which their matchers decide, all ask for
it. -/
theorem forall_matchesAlone_iff {ask : Schema → Value → Prop} {items : List Schema}
    {matchers : List Matcher}
    (hmatchers : List.Forall₂ (fun s m => s.compile interp = .ok m) items matchers) {v : Value}
    (hask : ∀ s ∈ items, ∀ {m}, s.compile interp = .ok m → (m.matchesAlone v = true ↔ ask s v)) :
    (∀ m ∈ matchers, m.matchesAlone v = true) ↔ ∀ s ∈ items, ask s v := by
  induction hmatchers with
  | nil => simp
  | cons hm _ ih =>
    rw [List.forall_mem_cons, List.forall_mem_cons, hask _ (by simp) hm,
      ih fun s hs => hask s (by simp [hs])]

section

variable {node : List Demand → Object → Prop} {compiled : List (Entry Matcher)} {o : Object}

/-- Within an object, entries whose matchers decide their schemas ask what the schemas ask. -/
theorem map_demand_eq_demands
    (hjudge : ∀ e ∈ compiled, ∀ v,
      e.value.judge (some o) v = true ↔ e.schema.Asks interp node (some o) v) :
    compiled.map (Entry.demand fun m => m.judge (some o)) =
      demands interp node (compiled.map fun e => (e.key, e.schema)) o := by
  simp only [demands_eq_map, List.map_map]
  apply List.map_congr_left
  intro e he
  have haccepts : (e.value.judge (some o) · = true) = e.schema.Asks interp node (some o) :=
    funext fun v => propext (hjudge e he v)
  rw [Entry.demand, haccepts]
  rfl

/-- Matchers that decide schemas of one predicate judge alike. -/
theorem judge_eq_of_asks_samePredicate
    (hjudge : ∀ e ∈ compiled, ∀ v,
      e.value.judge (some o) v = true ↔ e.schema.Asks interp node (some o) v) :
    ∀ d ∈ compiled, ∀ e ∈ compiled, d.schema.samePredicate e.schema = true →
      d.value.judge (some o) = e.value.judge (some o) := by
  intro d hd e he hsame
  funext v
  rw [Bool.eq_iff_iff, hjudge d hd, hjudge e he, asks_eq_of_samePredicate hsame]

/-- The rules of compiled entries, whose matchers decide their schemas, can be reconciled with an
object that accounts for what the entries ask. -/
theorem reconcile_within_eq_ok_iff {rules : ObjectRules Matcher}
    (hrules : ObjectRules.ofEntries compiled = .ok rules)
    (hjudge : ∀ e ∈ compiled, ∀ v,
      e.value.judge (some o) v = true ↔ e.schema.Asks interp node (some o) v) {claimed : Claimed} :
    let ds := demands interp node (compiled.map fun e => (e.key, e.schema)) o
    (rules.within o).reconcile o = .ok claimed ↔
      CoversRequired ds o ∧ Accounts ds o ∧ claimed = claimedBy ds o := by
  intro ds
  have hdemands : compiled.map (Entry.demand fun m => m.judge (some o)) = ds :=
    map_demand_eq_demands hjudge
  rw [← hdemands]
  exact ObjectRules.reconcile_ofEntries_eq_ok_iff hrules (judge_eq_of_asks_samePredicate hjudge)

/-- An object is accepted when it accounts for what the entries ask. -/
theorem acceptsObject_within_iff {rules : ObjectRules Matcher}
    (hrules : ObjectRules.ofEntries compiled = .ok rules)
    (hjudge : ∀ e ∈ compiled, ∀ v,
      e.value.judge (some o) v = true ↔ e.schema.Asks interp node (some o) v) :
    let ds := demands interp node (compiled.map fun e => (e.key, e.schema)) o
    (rules.within o).acceptsObject o = true ↔ CoversRequired ds o ∧ Accounts ds o := by
  simp only [ObjectRules.acceptsObject_eq_isOk, isOk_iff, reconcile_within_eq_ok_iff hrules hjudge]
  exact ⟨fun ⟨_, hcovers, haccounts, _⟩ => ⟨hcovers, haccounts⟩,
    fun ⟨hcovers, haccounts⟩ => ⟨_, hcovers, haccounts, rfl⟩⟩

end

/-- The verdict of a compiled schema is its meaning with the bound on the number of fields. -/
theorem judge_iff_follows {s : Schema} {m : Matcher} (h : s.compile interp = .ok m)
    {parent : Option Object} {v : Value} :
    m.judge parent v = true ↔ s.Follows interp parent v := by
  induction s using inductOn generalizing m parent v with
  | literal w =>
    cases w with
    | str s =>
      rw [compile] at h
      cases h
      rw [judge_compileString_iff, Follows, Asks]
    | _ => exact judge_iff_of_isLeaf h rfl
  | capability | chain | undefined => exact judge_iff_of_isLeaf h rfl
  | object entries ih =>
    cases entries with
    | nil => exact judge_iff_of_isLeaf h rfl
    | cons e entries =>
      rw [compile] at h
      obtain ⟨compiled, hcompiled, h⟩ := bind_eq_ok.1 h
      obtain ⟨rules, hrules, h⟩ := bind_eq_ok.1 h
      cases h
      obtain ⟨hentries, hcompiled⟩ := compileEntries_eq_ok_iff.mp hcompiled
      have hne : compiled ≠ [] := by
        rintro rfl
        cases hentries
      rw [Matcher.judge_object, Follows, asks_object_iff, ← hentries]
      cases v with
      | obj o =>
        rw [← hentries] at ih
        have hjudge := acceptsObject_within_iff hrules (o := o) fun e he v =>
          ih (e.key, e.schema) (List.mem_map_of_mem he) (hcompiled e he)
        simpa [hne] using hjudge
      | _ => simp
  | array items ih =>
    cases items with
    | nil => exact judge_iff_of_isLeaf h rfl
    | cons item items =>
      rw [compile] at h
      obtain ⟨matchers, hmatchers, h⟩ := bind_eq_ok.1 h
      obtain ⟨element, helement, h⟩ := bind_eq_ok.1 h
      cases h
      obtain ⟨first, rest, rfl, rfl⟩ := joinCompiled_eq_ok_iff.mp helement
      rw [compileItems_eq_ok_iff] at hmatchers
      rw [Matcher.judge_array, Follows, asks_array_iff]
      cases v with
      | arr xs =>
        simp only [List.all_eq_true, matchesAlone_foldl_and, Value.arr.injEq, exists_eq_left']
        exact forall₂_congr fun x _ => forall_matchesAlone_iff hmatchers fun s hs m hm => ih s hs hm
      | _ => simp

/-! ## Rules -/

section

variable {entries : List (String × Schema)} {rules : ObjectRules Matcher}

/-- Within an object, the compiled entries behind rules ask what the schemas ask, and schemas of one
predicate are tested alike. -/
theorem exists_compiled_of_compileRules (h : compileRules interp entries = .ok rules) (o : Object) :
    ∃ compiled : List (Entry Matcher), ObjectRules.ofEntries compiled = .ok rules ∧
      compiled.map (Entry.demand fun m => m.judge (some o)) =
        demands interp (fun ds o => CoversRequired ds o ∧ Accounts ds o) entries o ∧
      ∀ d ∈ compiled, ∀ e ∈ compiled, d.schema.samePredicate e.schema = true →
        d.value.judge (some o) = e.value.judge (some o) := by
  obtain ⟨compiled, hcompiled, hrules⟩ := bind_eq_ok.1 h
  obtain ⟨rfl, hvalues⟩ := compileEntries_eq_ok_iff.mp hcompiled
  have hjudge : ∀ e ∈ compiled, ∀ v,
      e.value.judge (some o) v = true ↔ e.schema.Follows interp (some o) v :=
    fun e he v => judge_iff_follows (hvalues e he)
  exact ⟨compiled, hrules, map_demand_eq_demands hjudge, judge_eq_of_asks_samePredicate hjudge⟩

/-- The rules of an object schema can be reconciled with an object that accounts for what the
entries ask. -/
theorem reconcile_compileRules_eq_ok_iff {entries : List (String × Schema)}
    {rules : ObjectRules Matcher} (h : compileRules interp entries = .ok rules) {o : Object}
    {claimed : Claimed} :
    let ds := demands interp (fun ds o => CoversRequired ds o ∧ Accounts ds o) entries o
    (rules.within o).reconcile o = .ok claimed ↔
      CoversRequired ds o ∧ Accounts ds o ∧ claimed = claimedBy ds o := by
  obtain ⟨compiled, hrules, hdemands, htest⟩ := exists_compiled_of_compileRules h o
  rw [← hdemands]
  exact ObjectRules.reconcile_ofEntries_eq_ok_iff hrules htest

/-- The rules on named fields claim their fields when these meet what the entries ask. -/
theorem claimFields_compileRules_eq_ok_iff (h : compileRules interp entries = .ok rules)
    {o left : Object} :
    let ds := demands interp (fun ds o => CoversRequired ds o ∧ Accounts ds o) entries o
    (rules.within o).claimFields o = .ok left ↔
      CoversRequired ds o ∧ (∀ d ∈ ds, d.MetBy o) ∧ unnamedFields ds o = left := by
  obtain ⟨compiled, hrules, hdemands, -⟩ := exists_compiled_of_compileRules h o
  rw [← hdemands]
  exact ObjectRules.claimFields_ofEntries_eq_ok_iff hrules

/-- The wildcards and the catch-all of rules claim what the entries ask. -/
theorem claimants_compileRules_perm (h : compileRules interp entries = .ok rules) (o : Object) :
    let ds := demands interp (fun ds o => CoversRequired ds o ∧ Accounts ds o) entries o
    (rules.within o).claimants.Perm (ds.filterMap Demand.claimant?) := by
  obtain ⟨compiled, hrules, hdemands, htest⟩ := exists_compiled_of_compileRules h o
  rw [← hdemands]
  exact ObjectRules.claimants_ofEntries_perm hrules htest

end

/-- Schemas that follow the same compile to matchers with the same verdicts. -/
theorem judge_eq_of_follows_eq {s t : Schema} {m n : Matcher} (hm : s.compile interp = .ok m)
    (hn : t.compile interp = .ok n) (h : s.Follows interp = t.Follows interp)
    (parent : Option Object) : m.judge parent = n.judge parent := by
  funext v
  rw [Bool.eq_iff_iff, judge_iff_follows hm, judge_iff_follows hn, h]

/-- Schemas of one predicate compile to matchers with the same verdicts. -/
theorem judge_eq_of_samePredicate {s t : Schema} {m n : Matcher} (hm : s.compile interp = .ok m)
    (hn : t.compile interp = .ok n) (h : s.samePredicate t = true) (parent : Option Object) :
    m.judge parent = n.judge parent :=
  judge_eq_of_follows_eq hm hn (asks_eq_of_samePredicate h) parent

/-! ## When a schema can be compiled -/

/-- A schema can be compiled. -/
def Compiles (interp : Interpretation) (s : Schema) : Prop := ∃ m, s.compile interp = .ok m

theorem exists_compileItems_iff {items : List Schema} :
    (∃ matchers, compileItems interp items = .ok matchers) ↔ ∀ s ∈ items, s.Compiles interp := by
  induction items with
  | nil => simp [compileItems]
  | cons s rest ih =>
    rw [List.forall_mem_cons, ← ih]
    simp only [compileItems, bind_eq_ok, pure_eq_ok]
    constructor
    · rintro ⟨-, m, hm, matchers, hmatchers, -⟩
      exact ⟨⟨m, hm⟩, matchers, hmatchers⟩
    · rintro ⟨⟨m, hm⟩, matchers, hmatchers⟩
      exact ⟨_, m, hm, matchers, hmatchers, rfl⟩

theorem exists_compileEntries_iff {entries : List (String × Schema)} :
    (∃ compiled, compileEntries interp entries = .ok compiled) ↔
      ∀ e ∈ entries, e.2.Compiles interp := by
  induction entries with
  | nil => simp [compileEntries]
  | cons e rest ih =>
    rw [List.forall_mem_cons, ← ih]
    simp only [compileEntries, bind_eq_ok, pure_eq_ok]
    constructor
    · rintro ⟨-, m, hm, compiled, hcompiled, -⟩
      exact ⟨⟨m, hm⟩, compiled, hcompiled⟩
    · rintro ⟨⟨m, hm⟩, compiled, hcompiled⟩
      exact ⟨_, m, hm, compiled, hcompiled, rfl⟩

/-- An array schema compiles when its schemas do. -/
theorem compiles_array_iff {items : List Schema} :
    (array items).Compiles interp ↔ ∀ s ∈ items, s.Compiles interp := by
  cases items with
  | nil => exact iff_of_true ⟨.plain Value.isArray, compile_eq_compileLeaf rfl⟩ (by simp)
  | cons s rest =>
    rw [← exists_compileItems_iff]
    simp only [Compiles, compile, bind_eq_ok, pure_eq_ok]
    constructor
    · rintro ⟨-, matchers, hmatchers, -⟩
      exact ⟨matchers, hmatchers⟩
    · rintro ⟨matchers, hmatchers⟩
      obtain ⟨first, others, -, -, rfl⟩ :=
        List.forall₂_cons_left_iff.mp (compileItems_eq_ok_iff.mp hmatchers)
      exact ⟨_, _, hmatchers, _, joinCompiled_eq_ok_iff.mpr ⟨first, others, rfl, rfl⟩, rfl⟩

/-- The keys of the catch-alls of an object schema. -/
def catchAllKeys (entries : List (String × Schema)) : List String :=
  (entries.map Prod.fst).filter fun key => (KeyPattern.ofKey key).target = .catchAll

theorem length_catchAlls {α : Type} (compiled : List (Entry α)) :
    (compiled.filterMap Entry.catchAll?).length =
      (catchAllKeys (compiled.map fun e => (e.key, e.schema))).length := by
  simp only [catchAllKeys, List.map_map, List.length_filterMap_eq_countP,
    ← List.countP_eq_length_filter, List.countP_map]
  apply List.countP_congr
  intro e _
  obtain ⟨key, schema, value⟩ := e
  rcases hkey : KeyPattern.ofKey key with ⟨optional, target⟩
  cases target <;> simp [Entry.catchAll?, Entry.pattern, hkey]

/-- The entries of an object schema make rules when their schemas compile and there is at most one
catch-all. -/
theorem exists_compileRules_iff {entries : List (String × Schema)} :
    (∃ rules, compileRules interp entries = .ok rules) ↔
      (∀ e ∈ entries, e.2.Compiles interp) ∧ (catchAllKeys entries).length ≤ 1 := by
  rw [← exists_compileEntries_iff]
  simp only [compileRules, bind_eq_ok, ObjectRules.ofEntries_eq_ok_iff]
  constructor
  · rintro ⟨-, compiled, hcompiled, hle, -⟩
    rw [length_catchAlls, (compileEntries_eq_ok_iff.mp hcompiled).1] at hle
    exact ⟨⟨compiled, hcompiled⟩, hle⟩
  · rintro ⟨⟨compiled, hcompiled⟩, hle⟩
    rw [← (compileEntries_eq_ok_iff.mp hcompiled).1, ← length_catchAlls] at hle
    exact ⟨_, compiled, hcompiled, hle, rfl⟩

/-- The order of entries plays no role for whether they make rules. -/
theorem exists_compileRules_perm {entries entries' : List (String × Schema)}
    (h : entries.Perm entries') :
    (∃ rules, compileRules interp entries = .ok rules) ↔
      ∃ rules, compileRules interp entries' = .ok rules := by
  have hkeys := ((h.map Prod.fst).filter fun key =>
    (KeyPattern.ofKey key).target = .catchAll).length_eq
  simp only [exists_compileRules_iff, catchAllKeys, hkeys, h.mem_iff]

theorem compile_array_cons (s : Schema) (rest : List Schema) :
    (array (s :: rest)).compile interp =
      compileElements interp (s :: rest) >>= fun element => pure (.array element) := by
  rw [compile, compileElements, compileAll, bind_assoc]

theorem compile_object_cons (e : String × Schema) (rest : List (String × Schema)) :
    (object (e :: rest)).compile interp =
      compileRules interp (e :: rest) >>= fun rules => pure (.object rules) := by
  rw [compile, compileRules, bind_assoc]

/-- An object schema compiles when its schemas do and there is at most one catch-all. -/
theorem compiles_object_iff {entries : List (String × Schema)} :
    (object entries).Compiles interp ↔
      (∀ e ∈ entries, e.2.Compiles interp) ∧ (catchAllKeys entries).length ≤ 1 := by
  cases entries with
  | nil =>
    exact iff_of_true ⟨.plain Value.isObject, compile_eq_compileLeaf rfl⟩ (by simp [catchAllKeys])
  | cons e rest =>
    rw [← @exists_compileRules_iff interp]
    simp only [Compiles, compile_object_cons, bind_eq_ok, pure_eq_ok]
    exact ⟨fun ⟨_, rules, hrules, _⟩ => ⟨rules, hrules⟩,
      fun ⟨rules, hrules⟩ => ⟨_, rules, hrules, rfl⟩⟩

end Schema

end ShapeMatch
