import Mathlib.Algebra.GroupWithZero.Nat
import ShapeMatch.Proofs.Assignment.Description
import ShapeMatch.Proofs.Object.Discrepancy
import ShapeMatch.Proofs.Object.Table

/-!
# Reconciling by numbers

A table of tests is reconciled with an object in lists: groups, fields and slots are known by their
numbers, every access is checked, and so is the difference by which claimed fields are counted. All
of it is in range, and an object is reconciled with the table as it is with the rules.

## Main definitions

* `TestTable.ledger?`: the ledger of the fields that rules on names leave.
* `TestTable.claimNamed?`, `TestTable.claimRest?`, `TestTable.reconcile?`: reconciling in lists.
* `TestTable.Owns`: the owners of slots that a table has.

## Main statements

* `TestTable.reconcile?_ofRules`: reconciling in lists has the result of reconciling.
* `TestTable.reconcile?_of_compileRules`: all accesses are in range.
-/

namespace ShapeMatch

variable {α : Type}

/-- The difference of numbers, if it is not negative. -/
def sub? (m n : Nat) : Option Nat := if n ≤ m then some (m - n) else none

namespace WildcardGroup

variable {β : Type}

theorem members_map (f : α → β) (g : WildcardGroup α) :
    (g.map f).members = g.members.map (·.map f) :=
  rfl

@[simp] theorem required_map (f : α → β) (g : WildcardGroup α) :
    (g.map f).required = g.required := by
  rw [required, members_map, List.countP_map]
  rfl

@[simp] theorem label_map (f : α → β) (g : WildcardGroup α) : (g.map f).label = g.label := by
  rw [label, members_map, List.map_map]
  rfl

end WildcardGroup

namespace TestTable

/-- How many fields tests must claim. -/
def totalCost (tests : List (Test α)) : Nat := (tests.map Test.cost).sum

section

variable (judge : α → Value → Bool)

/-! ## Named fields -/

/-- Lets tests of named fields claim their fields, one test after another, and counts these. -/
def claimEach? (o : Object) :
    List (Test α) → (pending : Object) → (claimed : Nat) →
      Option (Except Discrepancy (Object × Nat))
  | [], pending, claimed => some (.ok (pending, claimed))
  | t :: rest, pending, claimed =>
    match t.key.lookup? o with
    | some (key, v) =>
      if judge t.value v then do
        let left := pending.filter (·.1 != key)
        let removed ← sub? pending.length left.length
        claimEach? o rest left (claimed + removed)
      else some (.error (.rejected t.source key))
    | none =>
      if t.isRequired then some (.error (.unsatisfied t.source t.cost 0))
      else claimEach? o rest pending claimed

/-- The fields left after the tests of named fields, with the number of those they claim. -/
def claimNamed? (table : TestTable α) (o : Object) : Option (Except Discrepancy (Object × Nat)) :=
  let required := totalCost table.bound
  if o.length < required then some (.error (.notEnoughPairs .bound required o.length))
  else claimEach? judge o table.bound o 0

/-! ## Other fields -/

variable (table : TestTable α)

/-- The records of the slots of all groups and of the catch-all. -/
def slotRecords : List SlotRecord :=
  (table.groups.zipIdx.flatMap fun g => g.1.map fun t => ⟨.group g.2, t.isRequired, false⟩) ++
    table.catchAll.elim [] fun t =>
      (if t.isRequired then [⟨.catchAll, true, false⟩] else []) ++ [⟨.catchAll, false, true⟩]

/-- What the first test of a group asks. -/
def groupValue? (group : List (Test α)) : Option α := do
  let first ← group[0]?
  return first.value

/-- Which groups accept a field, and whether the catch-all does. -/
def row? (field : String × Value) : Option (List Bool) := do
  let values ← table.groups.mapM groupValue?
  let last := table.catchAll.map fun t => t.key.accepts field.1 && judge t.value field.2
  return values.map (judge · field.2) ++ last.toList

/-- The ledger of pending fields, none of which is placed. -/
def ledger? (pending : Object) : Option Ledger := do
  let rows ← pending.mapM (table.row? judge)
  let slots := table.slotRecords
  return ⟨table.groups.length, slots, rows, List.replicate pending.length none,
    List.replicate slots.length none⟩

/-- What is wrong when a slot of the given owner stays empty. -/
def shortage? (owner : Owner) (claimed : Nat) : Option Discrepancy :=
  match owner with
  | .group i => do
    let group ← table.groups[i]?
    let label := ", ".intercalate (group.map (·.source))
    return .unsatisfied label (totalCost group) claimed
  | .catchAll => some (.unsatisfied (table.catchAll.elim "" (·.source)) 1 claimed)

/-- The fields that are not placed. A running number tells their places. -/
def unplaced? (slotOf : List (Option Nat)) : Object → (index : Nat) → Option Object
  | [], _ => some []
  | field :: rest, index => do
    let place ← slotOf[index]?
    let left ← unplaced? slotOf rest (index + 1)
    return if place.isNone then field :: left else left

/-- The fields left after the wildcards and the catch-all, with the number of those they claim. -/
def claimRest? (pending : Object) : Option (Except Discrepancy (Object × Nat)) :=
  let required := (table.groups.map totalCost).sum + table.catchAll.elim 0 (·.cost)
  if pending.length < required then
    some (.error (.notEnoughPairs .free required pending.length))
  else do
    let a ← table.ledger? judge pending
    match ← a.settle? pending.length with
    | .ok a' =>
      let left ← unplaced? a'.slotOf pending 0
      return .ok (left, a'.slotOf.countP Option.isSome)
    | .error (slot, a') =>
      let record ← a'.slots[slot]?
      let discrepancy ← table.shortage? record.owner (a'.filled record.owner)
      return .error discrepancy

/-- Reconciles an object with a table. -/
def reconcile? (o : Object) : Option (Except Discrepancy Claimed) := do
  match ← claimNamed? judge table o with
  | .error d => return .error d
  | .ok (pending, bound) =>
    match ← table.claimRest? judge pending with
    | .error d => return .error d
    | .ok (left, free) =>
      return if left.isEmpty then .ok ⟨bound, free⟩ else .error (.unclaimed (left.map (·.1)))

/-! ## Named fields are counted without underflow -/

theorem isRequired_toTest_field (r : FieldRule α) : r.toTest.isRequired = !r.optional := by
  cases h : r.optional <;> simp [Test.isRequired, FieldRule.toTest, FieldRule.cost, costOf, h]

theorem isRequired_toTest (freedom : Freedom) (r : WildcardRule α) :
    (r.toTest freedom).isRequired = !r.optional := by
  cases h : r.optional <;> simp [Test.isRequired, WildcardRule.toTest, WildcardRule.cost, costOf, h]

/-- What is claimed and what is pending are all fields, so counting does not fall below zero. -/
theorem claimEach?_eq (o : Object) (fields : List (FieldRule α)) (pending : Object)
    (claimed : Nat) :
    claimEach? judge o (fields.map FieldRule.toTest) pending claimed =
      some ((ObjectRules.claimEach o (fields.map (·.map judge)) pending).map fun left =>
        (left, claimed + pending.length - left.length)) := by
  induction fields generalizing pending claimed with
  | nil => simp [claimEach?, ObjectRules.claimEach, Except.map]
  | cons r rest ih =>
    obtain ⟨name, optional, source, value⟩ := r
    rw [List.map_cons, List.map_cons, claimEach?, ObjectRules.claimEach, isRequired_toTest_field]
    simp only [FieldRule.toTest, FieldRule.map, KeyRule.lookup?] at ih ⊢
    cases hfield : o.get? name with
    | some v =>
      cases hv : judge value v with
      | false => simp [hv, Except.map]
      | true =>
        have hle := List.length_filter_le (·.1 != name) pending
        have hcount : claimed + (pending.length - (pending.filter (·.1 != name)).length) +
            (pending.filter (·.1 != name)).length = claimed + pending.length := by omega
        simp [hv, sub?, hle, ih, hcount]
    | none => cases optional <;> simp [Except.map, FieldRule.cost, ih]

theorem claimNamed?_eq (rules : ObjectRules α) (o : Object) :
    (ofRules rules).claimNamed? judge o =
      some (((rules.map judge).claimFields o).map fun left => (left, o.length - left.length)) := by
  have hcost : totalCost (ofRules rules).bound = (rules.map judge).boundCost := by
    rw [totalCost, ofRules, List.map_map, ObjectRules.boundCost_map]
    exact ObjectRules.sum_map_costOf _ _
  rw [claimNamed?, ObjectRules.claimFields, hcost]
  by_cases h : o.length < (rules.map judge).boundCost
  · simp only [if_pos h]
    rfl
  · have heach := claimEach?_eq judge o rules.fields o 0
    rw [Nat.zero_add] at heach
    simp only [if_neg h]
    exact heach

/-! ## The ledger of a board -/

/-- A slot belongs to a rule of the table. -/
def Owns (table : TestTable α) : Owner → Prop
  | .group i => i < table.groups.length
  | .catchAll => table.catchAll.isSome

/-- How many columns a row has: one for each group and one for a catch-all. -/
def columns (table : TestTable α) : Nat := table.groups.length + table.catchAll.toList.length

/-- A rule that owns a slot has a column. -/
theorem Owns.column_lt {table : TestTable α} {owner : Owner} (h : table.Owns owner) :
    owner.column table.groups.length < table.columns := by
  cases owner with
  | group i => exact Nat.lt_add_right _ h
  | catchAll =>
    obtain ⟨t, ht⟩ := Option.isSome_iff_exists.mp h
    simp [columns, Owner.column, ht]

/-- Slots belong to rules of the table. -/
theorem owns_of_mem_slotRecords {table : TestTable α} {r : SlotRecord}
    (h : r ∈ table.slotRecords) : table.Owns r.owner := by
  rcases List.mem_append.mp h with h | h
  · obtain ⟨g, hg, h⟩ := List.mem_flatMap.mp h
    obtain ⟨t, -, rfl⟩ := List.mem_map.mp h
    exact List.snd_lt_of_mem_zipIdx hg
  · cases hcatchAll : table.catchAll with
    | none => simp [hcatchAll] at h
    | some t =>
      have howner : r.owner = .catchAll := by grind
      rw [howner, Owns, hcatchAll]
      rfl

/-- What the first test of each group asks and then what the catch-all asks. -/
def asked (rules : ObjectRules α) : List α :=
  rules.groups.map (·.value) ++ (rules.catchAll.map (·.value)).toList

/-- The row of a field tells what the groups and the catch-all say of it. -/
theorem row?_eq (rules : ObjectRules α) (field : String × Value) :
    (ofRules rules).row? judge field = some ((asked (rules.map judge)).map (· field.2)) := by
  have hvalues : (ofRules rules).groups.mapM groupValue? = some (rules.groups.map (·.value)) := by
    rw [ofRules, List.mapM_map]
    exact mapM_some _ _
  rw [row?, hvalues, Option.bind_eq_bind, Option.bind_some]
  cases h : rules.catchAll <;>
    simp [ofRules, asked, ObjectRules.map, h, WildcardGroup.map, WildcardGroup.value,
      WildcardRule.map, WildcardRule.toTest, KeyRule.accepts]

/-- A slot has the column of what its rule asks. -/
theorem getElem?_asked {rules : ObjectRules (Value → Bool)} {p : Post (Value → Bool)}
    (h : p ∈ rules.posts) : (asked rules)[p.owner]? = some p.value := by
  rcases List.mem_append.mp h with h | h
  · obtain ⟨⟨g, i⟩, hg, h⟩ := List.mem_flatMap.mp h
    obtain ⟨r, -, rfl⟩ := List.mem_map.mp h
    have hg := List.mk_mem_zipIdx_iff_getElem?.mp hg
    obtain ⟨hi, rfl⟩ := List.getElem?_eq_some_iff.mp hg
    simp [asked, Post.ofWildcard, List.getElem?_append_left, hi]
  · cases hcatchAll : rules.catchAll with
    | none => simp [hcatchAll] at h
    | some r =>
      have hpost : p.owner = rules.groups.length ∧ p.value = r.value := by
        grind [Post.ofCatchAll]
      simp [asked, hcatchAll, hpost]

/-- The ledger of pending fields, with as many columns as rules ask for. -/
def ledgerOf (rules : ObjectRules α) (pending : Object) : Ledger :=
  ⟨rules.groups.length, (ofRules rules).slotRecords,
    pending.map fun field => (asked (rules.map judge)).map (· field.2),
    List.replicate pending.length none,
    List.replicate (ofRules rules).slotRecords.length none⟩

theorem ledger?_eq (rules : ObjectRules α) (pending : Object) :
    (ofRules rules).ledger? judge pending = some (ledgerOf judge rules pending) := by
  rw [ledger?, funext (row?_eq judge rules), mapM_some]
  simp [ledgerOf, ofRules]

theorem outline_slotRecords (rules : ObjectRules α) (pending : Object) :
    (ofRules rules).slotRecords.map (SlotRecord.outline rules.groups.length) =
      ((rules.map judge).slots pending).map Slot.outline := by
  rw [slotRecords, ObjectRules.slots, List.map_append, List.map_append]
  congr 1
  · simp [ofRules, testsOf, ObjectRules.map, List.map_flatMap, List.zipIdx_map, List.flatMap_map,
      Function.comp_def, SlotRecord.outline, Owner.column, Slot.outline, isRequired_toTest,
      WildcardGroup.map, WildcardGroup.members, WildcardRule.map]
  · cases h : rules.catchAll with
    | none => simp [ofRules, ObjectRules.map, h]
    | some r =>
      cases hr : r.optional <;>
        simp [ofRules, ObjectRules.map, h, hr, isRequired_toTest, WildcardRule.map,
          SlotRecord.outline, Owner.column, Slot.outline]

/-- The ledger of pending fields is about the board of the rules. -/
theorem describes_ledgerOf (rules : ObjectRules α) (pending : Object) :
    (ledgerOf judge rules pending).Describes ((rules.map judge).board pending) where
  slots_eq := outline_slotRecords judge rules pending
  length_rows := List.length_map _
  row_eq pair slot := by
    refine ⟨(asked (rules.map judge)).map (· (pending.get pair).2), by simp [ledgerOf], ?_⟩
    rw [ObjectRules.fits_board, ObjectRules.get_slot_board, List.getElem?_map, Post.slot,
      getElem?_asked (List.get_mem _ _), Option.map_some]
  group_lt r hr i hi := by
    have howns := owns_of_mem_slotRecords hr
    rw [hi] at howns
    simpa [Owns, ofRules, ledgerOf] using howns

/-- No field is placed at first. -/
theorem holding_empty (rules : ObjectRules α) (pending : Object) :
    let p : Placement pending.length (rules.map judge).slotCount := .empty
    (ledgerOf judge rules pending).holding p = ledgerOf judge rules pending := by
  have hslots : (ofRules rules).slotRecords.length = (rules.map judge).slotCount :=
    (describes_ledgerOf judge rules pending).length_slots
  simp [Ledger.holding, Placement.empty, ledgerOf, hslots]

/-! ## Other fields -/

theorem totalCost_testsOf (g : WildcardGroup α) : totalCost (testsOf g) = g.required := by
  rw [totalCost, testsOf, List.map_map]
  exact ObjectRules.sum_map_costOf _ _

theorem map_source_testsOf (g : WildcardGroup α) :
    ", ".intercalate ((testsOf g).map (·.source)) = g.label := by
  rw [testsOf, List.map_map]
  rfl

theorem shortage?_eq (rules : ObjectRules α) {owner : Owner} (h : (ofRules rules).Owns owner)
    (claimed : Nat) :
    (ofRules rules).shortage? owner claimed =
      some ((rules.map judge).shortage (owner.column rules.groups.length) claimed) := by
  cases owner with
  | group i =>
    have hi : i < rules.groups.length := by simpa [Owns, ofRules] using h
    simp [shortage?, ofRules, Owner.column, ObjectRules.shortage, ObjectRules.map, hi,
      totalCost_testsOf, map_source_testsOf]
  | catchAll =>
    simp only [shortage?, ofRules, Owner.column, ObjectRules.shortage, ObjectRules.map]
    cases rules.catchAll <;> simp [WildcardRule.toTest, WildcardRule.map]

theorem unplaced?_eq (slotOf : List (Option Nat)) (pending : Object) (index : Nat)
    (h : slotOf.length = index + pending.length) :
    unplaced? slotOf pending index =
      some (((pending.zip (slotOf.drop index)).filter (·.2.isNone)).map (·.1)) := by
  induction pending generalizing index with
  | nil => simp [unplaced?]
  | cons field rest ih =>
    have hindex : index < slotOf.length := by simp [h]
    have hrest : slotOf.length = index + 1 + rest.length := by simp [h]; omega
    rw [unplaced?, ih (index + 1) hrest, List.drop_eq_getElem_cons hindex, List.zip_cons_cons,
      List.filter_cons, List.getElem?_eq_getElem hindex]
    cases slotOf[index] <;> simp

/-- The running number tells the fields that a placement leaves out, and all others are counted. -/
theorem unplaced?_holding (a : Ledger) {slots : Nat} (pending : Object)
    (p : Placement pending.length slots) :
    unplaced? (a.holding p).slotOf pending 0 = some (p.unplaced.map pending.get) ∧
      (a.holding p).slotOf.countP Option.isSome = p.placed.length := by
  have hslotOf : (a.holding p).slotOf =
      (List.finRange pending.length).map fun i => (p.slotOf.get i).map Fin.val := by
    rw [Ledger.holding, toList_eq_map_get, List.map_map]
    rfl
  have hzip : pending.zip (a.holding p).slotOf =
      (List.finRange pending.length).map fun i =>
        (pending.get i, (p.slotOf.get i).map Fin.val) := by
    rw [← List.zip_map', List.map_get_finRange, hslotOf]
  constructor
  · rw [unplaced?_eq _ _ _ (by simp [hslotOf]), List.drop_zero, hzip, List.filter_map, List.map_map]
    simp [Placement.unplaced, Function.comp_def, Vector.get]
  · rw [hslotOf, List.countP_map, List.countP_eq_length_filter]
    simp [Placement.placed, Function.comp_def, Vector.get]

theorem freeCost_eq (rules : ObjectRules α) :
    ((ofRules rules).groups.map totalCost).sum + (ofRules rules).catchAll.elim 0 (·.cost) =
      rules.freeCost := by
  rw [ObjectRules.freeCost, List.countP_flatMap]
  congr 1
  · simp [ofRules, Function.comp_def, totalCost_testsOf, WildcardGroup.required]
  · cases h : rules.catchAll <;> simp [ofRules, h, WildcardRule.toTest]

/-- The slot that cannot be filled has an owner, whose shortage is told. -/
theorem shortage?_filled (rules : ObjectRules α) (pending : Object)
    (short : Board.Shortage pending.length (rules.map judge).slotCount) :
    let b := (rules.map judge).board pending
    let a := (ledgerOf judge rules pending).holding short.placement
    let owner := (b.slot.get short.slot).owner
    ∃ r, a.slots[short.slot.val]? = some r ∧
      (ofRules rules).shortage? r.owner (a.filled r.owner) =
        some ((rules.map judge).shortage owner (b.filled short.placement owner)) := by
  intro b a owner
  have hdescribes := describes_ledgerOf judge rules pending
  obtain ⟨r, hr, houtline⟩ := hdescribes.getElem?_slots short.slot
  have howner : r.owner.column rules.groups.length = owner := congrArg (·.1) houtline
  have howns := owns_of_mem_slotRecords (List.mem_of_getElem? hr)
  refine ⟨r, hr, ?_⟩
  rw [shortage?_eq judge rules howns, howner, hdescribes.filled_eq short.placement hr]

theorem claimRest?_eq (rules : ObjectRules α) (pending : Object) :
    (ofRules rules).claimRest? judge pending =
      some (((rules.map judge).claimRest pending).map fun p =>
        (p.unplaced.map pending.get, p.placed.length)) := by
  have hsettle := (describes_ledgerOf judge rules pending).settle?_eq
  rw [holding_empty] at hsettle
  rw [claimRest?, ObjectRules.claimRest, freeCost_eq, ← ObjectRules.freeCost_map judge]
  by_cases h : pending.length < (rules.map judge).freeCost
  · simp only [if_pos h]
    rfl
  · simp only [if_neg h, ledger?_eq, Option.bind_eq_bind, Option.bind_some, hsettle]
    cases ((rules.map judge).board pending).settle with
    | ok p =>
      obtain ⟨hleft, hcount⟩ := unplaced?_holding (ledgerOf judge rules pending) pending p
      simp [Ledger.settled, hleft, hcount, Except.map]
    | error short =>
      obtain ⟨r, hr, hshortage⟩ := shortage?_filled judge rules pending short
      simp only [Ledger.settled, Option.bind_some, hr, hshortage]
      rfl

/-- Reconciling in lists has the result of reconciling. No access is out of range, and no difference
is negative. -/
theorem reconcile?_ofRules (rules : ObjectRules α) (o : Object) :
    (ofRules rules).reconcile? judge o = some ((rules.map judge).reconcile o) := by
  rw [reconcile?, claimNamed?_eq]
  cases hfields : (rules.map judge).claimFields o with
  | error d =>
    rw [ObjectRules.reconcile_eq_error_of_claimFields hfields]
    rfl
  | ok pending =>
    simp only [Except.map, Option.bind_eq_bind, Option.bind_some, claimRest?_eq]
    cases hrest : (rules.map judge).claimRest pending with
    | error d =>
      rw [ObjectRules.reconcile_eq_error_of_claimRest hfields hrest]
      rfl
    | ok p =>
      rw [ObjectRules.reconcile_eq_of_claimRest hfields hrest]
      simp only [List.isEmpty_map, List.map_map, List.isEmpty_iff, List.length_eq_zero_iff]
      rfl

/-- The ledger of pending fields is in range. -/
theorem inRange_ledgerOf (rules : ObjectRules α) (pending : Object) :
    (ledgerOf judge rules pending).InRange pending.length (ofRules rules).columns where
  length_rows := List.length_map _
  length_row row hrow := by
    obtain ⟨field, -, rfl⟩ := List.mem_map.mp hrow
    cases h : rules.catchAll <;> simp [asked, columns, ofRules, ObjectRules.map, h]
  column_lt r hr := by
    have hlt := (owns_of_mem_slotRecords hr).column_lt
    simpa [ofRules, ledgerOf] using hlt
  length_slotOf := List.length_replicate
  length_holder := List.length_replicate
  slot_lt slot hslot := by simp [ledgerOf] at hslot
  pair_lt pair hpair := by simp [ledgerOf] at hpair

end

/-- The table of an object schema that compiles is reconciled with every object as its rules are, by
checked accesses and checked differences alone. Its groups have a first test. A catch-all owns slots
only if there is one, and then rows have a column for it besides those of the groups. Before the
search and after it all numbers of pairs and slots are in range. -/
theorem reconcile?_of_compileRules {interp : Interpretation} {entries : List (String × Schema)}
    {rules : ObjectRules Matcher} (hrules : Schema.compileRules interp entries = .ok rules) :
    ∃ table, compile? interp entries = some (.ok table) ∧
      (∀ group ∈ table.groups, group ≠ []) ∧ (∀ r ∈ table.slotRecords, table.Owns r.owner) ∧
      ∀ o : Object,
        table.reconcile? (·.matchesIn o) o = some ((rules.within o).reconcile o) ∧
        ∀ pending : Object, ∃ a outcome,
          table.ledger? (·.matchesIn o) pending = some a ∧
          a.settle? pending.length = some outcome ∧
          a.InRange pending.length table.columns ∧
          (Ledger.final outcome).InRange pending.length table.columns := by
  refine ⟨ofRules rules, by rw [compile?_eq, hrules]; rfl, fun _ => ne_nil_of_mem_groups,
    fun _ => owns_of_mem_slotRecords, fun o => ⟨reconcile?_ofRules _ rules o, fun pending => ?_⟩⟩
  have hstart := inRange_ledgerOf (·.matchesIn o) rules pending
  obtain ⟨outcome, hsettle, hfinal⟩ := hstart.exists_settle?
  exact ⟨_, outcome, ledger?_eq _ rules pending, hsettle, hstart, hfinal⟩

/-- One table meets an object whose second field moves from one wildcard on to the other and whose
last is swept up, and one in which no field is there for the second wildcard. -/
theorem reconcile?_of_two_objects :
    let one : Value := .num (.int 1)
    let entries : List (String × Schema) := [("a", .literal .null), ("*", .literal (.str "*")),
      ("*x*", .literal one), ("(**)", .literal (.str "*x*"))]
    let runs : List (Object × Except Discrepancy Claimed) :=
      [([("a", .null), ("b", one), ("c", .null), ("d", .null)], .ok ⟨1, 3⟩),
        ([("a", .null), ("b", .null), ("c", .null)], .error (.unsatisfied "*x*" 1 0))]
    ∃ rules table, Schema.compileRules (fun _ _ => true) entries = .ok rules ∧
      compile? (fun _ _ => true) entries = some (.ok table) ∧
      (∀ group ∈ table.groups, group ≠ []) ∧
      ∀ run ∈ runs, table.reconcile? (·.matchesIn run.1) run.1 = some run.2 := by
  intro one entries runs
  have hruns : ((Schema.compileRules (fun _ _ => true) entries).toOption.any fun rules =>
      runs.all fun run => (rules.within run.1).reconcile run.1 == run.2) = true := by
    decide +kernel
  obtain ⟨rules, hrules, hruns⟩ := (Option.any_eq_true _ _).1 hruns
  rw [toOption_eq_some_iff] at hrules
  obtain ⟨table, htable, hgroups, -, hreconcile⟩ := reconcile?_of_compileRules hrules
  refine ⟨rules, table, hrules, htable, hgroups, fun run hrun => ?_⟩
  rw [(hreconcile run.1).1]
  simpa using List.all_eq_true.mp hruns run hrun

end TestTable

end ShapeMatch
