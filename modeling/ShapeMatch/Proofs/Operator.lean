import Mathlib.Data.List.Perm.Basic
import ShapeMatch.Proofs.KeyPattern

/-!
# The grammar of operators

Which texts are operators, by five rules that are said without the table of forms. No text
follows two of the rules, so what is recognized depends on the rules and not on their order. The
operators of a text form a chain that ends where no rule applies any more.

## Main definitions

* `OperatorRule`, `OperatorRule.Captures`: the rules, and what each captures from a text.
* `OperatorChain`: the operators of a text from the outside in.
* `Operator.around`: the text of an operator around what it captures.

## Main statements

* `OperatorRule.Captures.unique`: at most one rule applies to a text, with one capture.
* `recognize_eq_iff_operatorChain`: what is recognized is the chain of operators.
-/

namespace ShapeMatch

/-! ## Rules -/

theorem recognizeOnce_sibling {name : List Char} (hne : name ≠ []) (hline : '\n' ∉ name) :
    recognizeOnce ('$' :: (name ++ ['$'])) = some (.sibling, name) := by
  have hcapture : (OperatorForm.around '$' '$' (· != '\n')).capture? ('$' :: (name ++ ['$'])) =
      some name := by
    rw [OperatorForm.capture?_around_eq_some_iff]
    exact ⟨rfl, hne, by grind⟩
  have hstar : (OperatorForm.around '*' '*' (· != '*')).capture? ('$' :: (name ++ ['$'])) =
      none := by
    simp [OperatorForm.capture?]
  have hexactly : ∀ text, (OperatorForm.exactly ('*' :: text)).capture? ('$' :: (name ++ ['$'])) =
      none := by
    simp [OperatorForm.capture?]
  simp only [recognizeOnce, operatorForms, List.findSome?_cons, hexactly, hstar, hcapture,
    Option.map_none, Option.map_some]

/-- A rule of the grammar, named for the characters it is written with. -/
inductive OperatorRule where
  /-- One asterisk. -/
  | star
  /-- A name between asterisks. -/
  | stars
  /-- Two asterisks. -/
  | doubleStar
  /-- A name between dollar signs. -/
  | dollars
  /-- A name in parentheses. -/
  | parentheses
deriving DecidableEq, Repr

namespace OperatorRule

/-- The operator that a rule is about. -/
def kind : OperatorRule → Operator
  | star | stars => .wildcard
  | doubleStar => .catchAll
  | dollars => .sibling
  | parentheses => .optional

/-- A rule applies to a text and captures a name. -/
def Captures (text name : String) : OperatorRule → Prop
  | star => text = "*" ∧ name = ""
  | stars => text = "*" ++ name ++ "*" ∧ name ≠ "" ∧ '*' ∉ name.toList
  | doubleStar => text = "**" ∧ name = ""
  | dollars => text = "$" ++ name ++ "$" ∧ name ≠ "" ∧ '\n' ∉ name.toList
  | parentheses => text = "(" ++ name ++ ")" ∧ name ≠ "" ∧ '\n' ∉ name.toList

/-- The form in which a rule is looked for. -/
def form : OperatorRule → OperatorForm
  | star => .exactly ['*']
  | stars => .around '*' '*' (· != '*')
  | doubleStar => .exactly ['*', '*']
  | dollars => .around '$' '$' (· != '\n')
  | parentheses => .around '(' ')' (· != '\n')

variable {r r' : OperatorRule} {s name name' : String} {op : Operator}

theorem capture?_form_eq_some_iff :
    r.form.capture? s.toList = some name.toList ↔ r.Captures s name := by
  cases r <;>
    simp [form, Captures, OperatorForm.capture?_exactly_eq_some_iff,
      OperatorForm.capture?_around_eq_some_iff, ← String.toList_inj, -String.toList_eq_nil_iff,
      List.forall_mem_ne']

/-- The table of forms has the rules as its entries. -/
theorem mem_operatorForms_iff {form : OperatorForm} :
    (op, form) ∈ operatorForms ↔ ∃ r : OperatorRule, r.kind = op ∧ r.form = form := by
  constructor
  · intro h
    simp only [operatorForms, List.mem_cons, List.not_mem_nil, Prod.mk.injEq, or_false] at h
    rcases h with ⟨rfl, rfl⟩ | ⟨rfl, rfl⟩ | ⟨rfl, rfl⟩ | ⟨rfl, rfl⟩ | ⟨rfl, rfl⟩
    · exact ⟨star, rfl, rfl⟩
    · exact ⟨stars, rfl, rfl⟩
    · exact ⟨doubleStar, rfl, rfl⟩
    · exact ⟨dollars, rfl, rfl⟩
    · exact ⟨parentheses, rfl, rfl⟩
  · rintro ⟨r, rfl, rfl⟩
    cases r <;> simp [operatorForms, kind, form]

/-- The rule that applies is the one that is found, whatever rules stand before it. -/
theorem Captures.recognizeOnce_eq (h : r.Captures s name) :
    recognizeOnce s.toList = some (r.kind, name.toList) := by
  cases r with
  | star =>
    obtain ⟨rfl, rfl⟩ := h
    rfl
  | stars =>
    obtain ⟨rfl, hne, hstar⟩ := h
    have hname : name.toList ≠ [] := by simpa using hne
    simpa [kind] using recognizeOnce_wildcard hname hstar
  | doubleStar =>
    obtain ⟨rfl, rfl⟩ := h
    rfl
  | dollars =>
    obtain ⟨rfl, hne, hline⟩ := h
    have hname : name.toList ≠ [] := by simpa using hne
    simpa [kind] using recognizeOnce_sibling hname hline
  | parentheses =>
    obtain ⟨rfl, hne, hline⟩ := h
    exact recognizeOnce_eq_optional_iff.mpr ⟨by simp, by simpa using hne, hline⟩

/-- At most one rule applies to a text, and it captures one name. -/
theorem Captures.unique (h : r.Captures s name) (h' : r'.Captures s name') :
    r = r' ∧ name = name' := by
  have hsame := h.recognizeOnce_eq.symm.trans h'.recognizeOnce_eq
  simp only [Option.some.injEq, Prod.mk.injEq, String.toList_inj] at hsame
  obtain ⟨hkind, rfl⟩ := hsame
  refine ⟨?_, rfl⟩
  -- two rules are about wildcards, one of names and one of no name
  cases r <;> cases r' <;> simp_all [kind, Captures]

theorem recognizeOnce_eq_some_iff :
    recognizeOnce s.toList = some (op, name.toList) ↔
      ∃ r : OperatorRule, r.kind = op ∧ r.Captures s name := by
  constructor
  · intro h
    obtain ⟨form, hform, hcapture⟩ := exists_form_of_recognizeOnce h
    obtain ⟨r, rfl, rfl⟩ := mem_operatorForms_iff.mp hform
    exact ⟨r, rfl, capture?_form_eq_some_iff.mp hcapture⟩
  · rintro ⟨r, rfl, h⟩
    exact h.recognizeOnce_eq

/-- No rule applies where nothing is found. -/
theorem recognizeOnce_eq_none_iff :
    recognizeOnce s.toList = none ↔ ∀ (r : OperatorRule) (name : String), ¬ r.Captures s name := by
  rw [Option.eq_none_iff_forall_ne_some]
  constructor
  · intro h r name hr
    exact h _ hr.recognizeOnce_eq
  · rintro h ⟨op, name⟩ honce
    rw [← String.toList_ofList (l := name), recognizeOnce_eq_some_iff] at honce
    obtain ⟨r, -, hr⟩ := honce
    exact h r _ hr

/-- In whatever order the forms are tried, the same one is found. -/
theorem findSome?_eq_recognizeOnce {forms : List (Operator × OperatorForm)}
    (h : forms.Perm operatorForms) (s : String) :
    (forms.findSome? fun form => (form.2.capture? s.toList).map (form.1, ·)) =
      recognizeOnce s.toList := by
  cases hforms : forms.findSome? fun form => (form.2.capture? s.toList).map (form.1, ·) with
  | none =>
    rw [List.findSome?_eq_none_iff] at hforms
    symm
    rw [recognizeOnce, List.findSome?_eq_none_iff]
    exact fun form hform => hforms form (h.mem_iff.mpr hform)
  | some found =>
    obtain ⟨⟨op, form⟩, hmem, hfound⟩ := List.exists_of_findSome?_eq_some hforms
    obtain ⟨name, hcapture, rfl⟩ := Option.map_eq_some_iff.mp hfound
    obtain ⟨r, rfl, rfl⟩ := mem_operatorForms_iff.mp (h.mem_iff.mp hmem)
    rw [← String.toList_ofList (l := name)] at hcapture ⊢
    exact (capture?_form_eq_some_iff.mp hcapture).recognizeOnce_eq.symm

/-- A rule takes two characters off a text, or leaves nothing of it. -/
theorem Captures.length_cases (h : r.Captures s name) :
    s.length = name.length + 2 ∨ name = "" ∧ 0 < s.length := by
  cases r with
  | star =>
    obtain ⟨rfl, rfl⟩ := h
    exact .inr ⟨rfl, by decide⟩
  | doubleStar =>
    obtain ⟨rfl, rfl⟩ := h
    exact .inl rfl
  | stars | dollars | parentheses =>
    obtain ⟨rfl, -⟩ := h
    left
    simp [← String.length_toList, Nat.add_assoc]

theorem Captures.length_lt (h : r.Captures s name) : name.length < s.length := by
  rcases h.length_cases with hlength | ⟨rfl, hpos⟩
  · omega
  · simpa using hpos

theorem Captures.ne_empty (h : r.Captures s name) : s ≠ "" := by
  rintro rfl
  simpa using h.length_lt

theorem Captures.leading?_eq (h : r.Captures s name) : leading? s = some ⟨r.kind, name, s⟩ :=
  leading?_eq_some_iff.mpr ⟨h.ne_empty, h.recognizeOnce_eq, rfl⟩

end OperatorRule

/-! ## Chains -/

/-- The operators of a text from the outside in. The first is found in the text and each further
one in the capture of the one before, until there is nothing left or no rule applies. -/
inductive OperatorChain : String → List OperatorToken → Prop
  | done {s : String} (h : s = "" ∨ ∀ (r : OperatorRule) (name : String), ¬ r.Captures s name) :
      OperatorChain s []
  | token {s name : String} {inner : List OperatorToken} (r : OperatorRule)
      (h : r.Captures s name) (rest : OperatorChain name inner) :
      OperatorChain s (⟨r.kind, name, s⟩ :: inner)

variable {s : String} {tokens : List OperatorToken}

theorem recognize_eq_nil_iff : recognize s = [] ↔ s = "" ∨ recognizeOnce s.toList = none := by
  rw [recognize, recognizeIn]
  by_cases hs : s = ""
  · simp [hs]
  · rw [dif_neg (by simpa using hs)]
    split
    next h => simp [h]
    next h => simp [h, hs]

/-- What is recognized is the chain of operators. -/
theorem recognize_eq_iff_operatorChain : recognize s = tokens ↔ OperatorChain s tokens := by
  constructor
  · intro h
    induction tokens generalizing s with
    | nil =>
      rw [recognize_eq_nil_iff, OperatorRule.recognizeOnce_eq_none_iff] at h
      exact .done h
    | cons t inner ih =>
      obtain ⟨kind, name, source⟩ := t
      obtain ⟨-, honce, rfl, hinner⟩ := recognize_eq_cons_iff.mp h
      obtain ⟨r, rfl, hr⟩ := OperatorRule.recognizeOnce_eq_some_iff.mp honce
      exact .token r hr (ih hinner.symm)
  · intro h
    induction h with
    | done h =>
      rw [recognize_eq_nil_iff, OperatorRule.recognizeOnce_eq_none_iff]
      exact h
    | token r h _ ih =>
      rw [recognize_eq_cons_iff]
      exact ⟨h.ne_empty, h.recognizeOnce_eq, rfl, ih.symm⟩

namespace OperatorChain

/-- Every operator but the last takes two characters off. -/
theorem length_le (h : OperatorChain s tokens) : 2 * tokens.length ≤ s.length + 1 := by
  induction h with
  | done => simp
  | token r h rest ih =>
    rw [List.length_cons]
    rcases h.length_cases with hlength | ⟨rfl, hpos⟩
    · omega
    · cases rest with
      | done =>
        rw [List.length_nil]
        omega
      | token r' h' => exact absurd rfl h'.ne_empty

theorem length_capture_lt (h : OperatorChain s tokens) {t : OperatorToken} (ht : t ∈ tokens) :
    t.capture.length < t.source.length := by
  induction h with
  | done => cases ht
  | token r h _ ih =>
    rcases List.mem_cons.mp ht with rfl | ht
    · exact h.length_lt
    · exact ih ht

end OperatorChain

/-- The text of an operator around what it captures. A wildcard without a name is one asterisk. -/
def Operator.around : Operator → String → String
  | wildcard, name => if name = "" then "*" else "*" ++ name ++ "*"
  | catchAll, _ => "**"
  | sibling, name => "$" ++ name ++ "$"
  | optional, name => "(" ++ name ++ ")"

theorem OperatorRule.Captures.eq_around {r : OperatorRule} {name : String}
    (h : r.Captures s name) : s = r.kind.around name := by
  cases r <;> simp_all [Captures, kind, Operator.around]

/-- A text is its operators around what the last of them captures. -/
theorem OperatorChain.eq_foldr_around (h : OperatorChain s tokens) {last : OperatorToken}
    (hlast : last ∈ tokens.getLast?) :
    s = (tokens.map (·.kind)).foldr Operator.around last.capture := by
  induction h with
  | done => cases hlast
  | @token s name inner r h rest ih =>
    rw [List.map_cons, List.foldr_cons, h.eq_around]
    congr 1
    cases inner with
    | nil =>
      cases hlast
      rfl
    | cons t inner => exact ih (by simpa using hlast)

/-- At most one rule applies to a text, so the order in which the forms are tried plays no role.
What is recognized in a text is the one chain of its operators. Captures get shorter, a text has
about half as many operators as characters at most, and the operators and the last capture
determine the text. -/
theorem recognize_follows_grammar (s : String) :
    (∀ (r r' : OperatorRule) (name name' : String),
      r.Captures s name → r'.Captures s name' → r = r' ∧ name = name') ∧
    (∀ forms : List (Operator × OperatorForm), forms.Perm operatorForms →
      (forms.findSome? fun form => (form.2.capture? s.toList).map (form.1, ·)) =
        recognizeOnce s.toList) ∧
    (∀ tokens, recognize s = tokens ↔ OperatorChain s tokens) ∧
    (∀ t ∈ recognize s, t.capture.length < t.source.length) ∧
    (recognize s).length ≤ (s.length + 1) / 2 ∧
    ∀ last ∈ (recognize s).getLast?,
      s = ((recognize s).map (·.kind)).foldr Operator.around last.capture := by
  have hchain : OperatorChain s (recognize s) := recognize_eq_iff_operatorChain.mp rfl
  refine ⟨fun _ _ _ _ h h' => h.unique h', fun _ h => OperatorRule.findSome?_eq_recognizeOnce h s,
    fun _ => recognize_eq_iff_operatorChain, fun _ => hchain.length_capture_lt, ?_,
    fun _ => hchain.eq_foldr_around⟩
  have hlength := hchain.length_le
  omega

/-- A text with as many operators as seven characters can have: two optionals, a reference and a
wildcard. -/
theorem recognize_four_operators :
    OperatorRule.parentheses.Captures "(($*$))" "($*$)" ∧
      OperatorChain "(($*$))" [⟨.optional, "($*$)", "(($*$))"⟩, ⟨.optional, "$*$", "($*$)"⟩,
        ⟨.sibling, "*", "$*$"⟩, ⟨.wildcard, "", "*"⟩] ∧
      (∀ (r : OperatorRule) (name : String), r.Captures "(($*$))" name →
        r = .parentheses ∧ name = "($*$)") ∧
      "(($*$))" = [.optional, .optional, .sibling, .wildcard].foldr Operator.around "" := by
  obtain ⟨hunique, -, hchain, -, -, hsource⟩ := recognize_follows_grammar "(($*$))"
  have hrecognize : recognize "(($*$))" = [⟨.optional, "($*$)", "(($*$))"⟩,
      ⟨.optional, "$*$", "($*$)"⟩, ⟨.sibling, "*", "$*$"⟩, ⟨.wildcard, "", "*"⟩] := by
    decide +kernel
  have hcaptures : OperatorRule.parentheses.Captures "(($*$))" "($*$)" :=
    ⟨rfl, by decide, by decide⟩
  refine ⟨hcaptures, (hchain _).mp hrecognize, ?_, ?_⟩
  · intro r name h
    exact hunique r .parentheses name "($*$)" h hcaptures
  · rw [hrecognize] at hsource
    exact hsource ⟨.wildcard, "", "*"⟩ rfl

end ShapeMatch
