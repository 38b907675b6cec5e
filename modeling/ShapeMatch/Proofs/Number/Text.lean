import Mathlib.Data.List.TakeDrop
import ShapeMatch.Number.Literal
import ShapeMatch.Proofs.Number.Shortest

/-!
# Texts of numbers

What is written for a decimal reads as a decimal of the same value, with or without an exponent.
Therefore no two doubles have the same text.

## Main definitions

* `AllDigits`: a text of decimal digits.
* `signedDecimal?`: a decimal after a minus sign or without one.

## Main statements

* `decimal?_render`: the text of a decimal reads as a decimal of the same value.
* `FiniteDouble.text_injective`: different doubles have different texts.
-/

namespace ShapeMatch

/-! ## Digits -/

/-- There are decimal digits only. -/
def AllDigits (cs : List Char) : Prop := ∀ c ∈ cs, c.isDigit = true

namespace AllDigits

variable {cs ds : List Char}

theorem append (hc : AllDigits cs) (hd : AllDigits ds) : AllDigits (cs ++ ds) :=
  List.forall_mem_append.mpr ⟨hc, hd⟩

theorem take (h : AllDigits cs) (n : Nat) : AllDigits (cs.take n) :=
  fun c hc => h c (List.mem_of_mem_take hc)

theorem drop (h : AllDigits cs) (n : Nat) : AllDigits (cs.drop n) :=
  fun c hc => h c (List.mem_of_mem_drop hc)

theorem replicate_zero (n : Nat) : AllDigits (List.replicate n '0') := by
  intro c hc
  rw [List.eq_of_mem_replicate hc]
  rfl

theorem zero : AllDigits ['0'] := replicate_zero 1

theorem digits (n : Nat) : AllDigits (Decimal.digits n) :=
  fun _ => Nat.isDigit_of_mem_toDigits (by decide) (by decide)

end AllDigits

variable {ds whole fraction rest : List Char}

theorem digits_ne_nil (n : Nat) : Decimal.digits n ≠ [] := Nat.toDigits_ne_nil

theorem natOfDigits_digits (n : Nat) : natOfDigits (Decimal.digits n) = n :=
  Nat.ofDigitChars_toDigits (by decide) (by decide)

theorem natOfDigits_zeros_append (n : Nat) (ds : List Char) :
    natOfDigits (List.replicate n '0' ++ ds) = natOfDigits ds := by
  have happend := Nat.ofDigitChars_append (b := 10) (l := List.replicate n '0') (m := ds) 0
  rw [Nat.ofDigitChars_replicate_zero, Nat.mul_zero] at happend
  exact happend

theorem natOfDigits_append_zeros (ds : List Char) (n : Nat) :
    natOfDigits (ds ++ List.replicate n '0') = natOfDigits ds * Nat.pow 10 n := by
  have happend := Nat.ofDigitChars_append (b := 10) (l := ds) (m := List.replicate n '0') 0
  rw [Nat.ofDigitChars_replicate_zero, Nat.mul_comm] at happend
  exact happend

theorem toNat_sub_lt_ten {c : Char} (h : c.isDigit = true) : c.toNat - '0'.toNat < 10 := by
  have hrange : '0'.val ≤ c.val ∧ c.val ≤ '9'.val := by simpa [Char.isDigit] using h
  have hle : c.toNat ≤ '9'.toNat := UInt32.le_iff_toNat_le.mp hrange.2
  have hnine : '9'.toNat = '0'.toNat + 9 := rfl
  omega

theorem natOfRadix?_ten (hne : ds ≠ []) (hds : AllDigits ds) :
    natOfRadix? 10 ds = some (natOfDigits ds) := by
  have hfold : ∀ (ds : List Char) (n : Nat), AllDigits ds →
      ds.foldlM (fun n c => ((hexDigit? c).filter (· < 10)).map (10 * n + ·)) n =
        some (ds.foldl (fun n c => 10 * n + (c.toNat - '0'.toNat)) n) := by
    intro ds
    induction ds with
    | nil => exact fun _ _ => rfl
    | cons c rest ih =>
      intro n hds
      obtain ⟨hc, hrest⟩ := List.forall_mem_cons.mp hds
      have hlt := toNat_sub_lt_ten hc
      rw [List.foldlM_cons, hexDigit?, if_pos hc]
      simp only [Option.filter_some, hlt, decide_true, if_true, Option.map_some]
      exact ih _ hrest
  rw [natOfRadix?, if_neg (by simpa using hne)]
  exact hfold ds 0 hds

/-- A run of digits ends where another character or nothing follows. -/
theorem spanDigits_append (hds : AllDigits ds) (hrest : ∀ c ∈ rest.head?, c.isDigit = false) :
    spanDigits (ds ++ rest) = (ds, rest) := by
  rw [spanDigits, List.span_eq_takeWhile_dropWhile, List.takeWhile_append_of_pos hds,
    List.dropWhile_append_of_pos hds]
  cases rest with
  | nil => simp
  | cons c rest => simp [hrest c rfl]

/-! ## Exponents -/

theorem exponent?_digits (n : Nat) : exponent? ('e' :: Decimal.digits n) = some (n : Int) := by
  have hradix := natOfRadix?_ten (digits_ne_nil n) (.digits n)
  rw [natOfDigits_digits] at hradix
  have hdigits := AllDigits.digits n
  cases hcons : Decimal.digits n with
  | nil => exact absurd hcons (digits_ne_nil n)
  | cons c rest =>
    rw [hcons] at hradix hdigits
    have hc : c.isDigit = true := hdigits c List.mem_cons_self
    have hplus : c ≠ '+' := by rintro rfl; contradiction
    have hminus : c ≠ '-' := by rintro rfl; contradiction
    simp [exponent?, hplus, hminus, hradix]

theorem exponent?_signed_digits (n : Nat) :
    exponent? ('e' :: '+' :: Decimal.digits n) = some (n : Int) ∧
      exponent? ('e' :: '-' :: Decimal.digits n) = some (-n : Int) := by
  have hradix := natOfRadix?_ten (digits_ne_nil n) (.digits n)
  rw [natOfDigits_digits] at hradix
  exact ⟨by rw [exponent?, if_pos (.inl rfl), hradix]; rfl,
    by rw [exponent?, if_pos (.inl rfl), hradix]; rfl⟩

theorem toList_toString_int (i : Int) :
    (toString i).toList =
      if i < 0 then '-' :: Decimal.digits i.natAbs else Decimal.digits i.natAbs := by
  rw [Int.toString_eq_repr, Int.repr_eq_if]
  by_cases hneg : i < 0
  · have habs : (-i).toNat = i.natAbs := by omega
    rw [if_neg (by omega), if_pos hneg, habs, String.toList_append, Nat.toList_repr]
    rfl
  · have habs : i.toNat = i.natAbs := by omega
    rw [if_pos (by omega), if_neg hneg, habs, Nat.toList_repr]
    rfl

/-- An exponent reads as itself. A plus sign may stand before one that is not negative. -/
theorem exponent?_toString {i : Int} {sign : List Char}
    (hsign : sign = [] ∨ sign = ['+'] ∧ 0 ≤ i) :
    exponent? ('e' :: sign ++ (toString i).toList) = some i := by
  obtain ⟨hplus, hminus⟩ := exponent?_signed_digits i.natAbs
  rw [toList_toString_int]
  split
  next hneg =>
    obtain rfl : sign = [] := hsign.resolve_right fun h => by omega
    rw [List.singleton_append, hminus]
    exact congrArg some (by omega)
  next hge =>
    have hi : (i.natAbs : Int) = i := by omega
    rcases hsign with rfl | ⟨rfl, -⟩
    · rw [List.singleton_append, exponent?_digits, hi]
    · exact hplus.trans (congrArg some hi)

/-! ## Decimals -/

/-- Digits alone read as an integer. -/
theorem decimal?_digits (hne : ds ≠ []) (hds : AllDigits ds) :
    decimal? ds = some ⟨natOfDigits ds, 0⟩ := by
  have hspan : spanDigits (ds ++ []) = (ds, []) := spanDigits_append hds (by simp)
  rw [List.append_nil] at hspan
  simp [decimal?, hspan, hne, exponent?]

/-- Digits, a point and digits read as the decimal of all the digits. -/
theorem decimal?_point (hwhole : AllDigits whole) (hne : whole ≠ [])
    (hfraction : AllDigits fraction) (rest : List Char)
    (hrest : ∀ c ∈ rest.head?, c.isDigit = false) :
    decimal? (whole ++ '.' :: (fraction ++ rest)) =
      (exponent? rest).map fun e => ⟨natOfDigits (whole ++ fraction), e - fraction.length⟩ := by
  have hspan : spanDigits (whole ++ '.' :: (fraction ++ rest)) =
      (whole, '.' :: (fraction ++ rest)) := spanDigits_append hwhole (by simp)
  simp [decimal?, hspan, spanDigits_append hfraction hrest, hne]

/-- Digits before an exponent read as a whole number of its powers. -/
theorem decimal?_exponent (hwhole : AllDigits whole) (hne : whole ≠ []) :
    decimal? (whole ++ 'e' :: rest) =
      (exponent? ('e' :: rest)).map fun e => ⟨natOfDigits whole, e⟩ := by
  have hspan : spanDigits (whole ++ 'e' :: rest) = (whole, 'e' :: rest) :=
    spanDigits_append hwhole (by simp)
  simp [decimal?, hspan, hne]

/-- Without an exponent, the decimal has as many places as there are digits after the point. -/
theorem decimal?_positional (hwhole : AllDigits whole) (hne : whole ≠ [])
    (hfraction : AllDigits fraction) :
    decimal? (whole ++ '.' :: fraction) =
      some ⟨natOfDigits (whole ++ fraction), -fraction.length⟩ := by
  have hread := decimal?_point hwhole hne hfraction [] (by simp)
  rw [List.append_nil] at hread
  rw [hread, exponent?, Option.map_some, Int.zero_sub]

/-- One more digit after the point is a zero. -/
theorem Decimal.value_places_succ (c k : Nat) :
    (⟨c * Nat.pow 10 (k + 1), -1⟩ : Decimal).value = (⟨c, k⟩ : Decimal).value := by
  have hnum : (⟨c * Nat.pow 10 (k + 1), -1⟩ : Decimal).numerator =
      (⟨c, k⟩ : Decimal).numerator * 10 := by
    simp only [numerator, Int.toNat_natCast]
    calc c * Nat.pow 10 (k + 1) * Nat.pow 10 0 = c * (Nat.pow 10 k * 10) * 1 := rfl
      _ = c * Nat.pow 10 k * 10 := by rw [Nat.mul_one, Nat.mul_assoc]
  have hden : (⟨c, k⟩ : Decimal).denominator = 1 := by
    rw [denominator, Int.toNat_neg_natCast]
  have hten : (⟨c * Nat.pow 10 (k + 1), -1⟩ : Decimal).denominator = 10 := rfl
  rw [value, value, hnum, hden, hten, Nat.cast_mul, Nat.cast_one, div_one]
  exact mul_div_cancel_right₀ _ (by norm_num)

/-- A whole number is written with its zeros and one more after the point. -/
theorem decimal?_whole (d : Decimal) (hwhole : 0 ≤ d.exponent) :
    ∃ e, decimal? (Decimal.digits d.coefficient ++ List.replicate d.exponent.toNat '0' ++
      ['.', '0']) = some e ∧ e.value = d.value := by
  obtain ⟨k, hk⟩ := Int.eq_ofNat_of_zero_le hwhole
  have hdigits := AllDigits.digits d.coefficient
  have hread := decimal?_positional (hdigits.append (.replicate_zero k))
    (by simp [digits_ne_nil]) .zero
  have hzeros : Decimal.digits d.coefficient ++ List.replicate k '0' ++ ['0'] =
      Decimal.digits d.coefficient ++ List.replicate (k + 1) '0' := by
    rw [List.append_assoc, List.replicate_succ']
  rw [hzeros, natOfDigits_append_zeros, natOfDigits_digits] at hread
  have hd : d = ⟨d.coefficient, k⟩ := by rw [← hk]
  have hcount : d.exponent.toNat = k := by omega
  rw [hcount]
  exact ⟨_, hread, hd ▸ Decimal.value_places_succ _ _⟩

/-- The point may stand between two digits. -/
theorem decimal?_between (d : Decimal) (hexponent : d.exponent < 0) {p : Nat}
    (hp : ((Decimal.digits d.coefficient).length : Int) + d.exponent = p) (hpos : 0 < p) :
    decimal? ((Decimal.digits d.coefficient).take p ++
      '.' :: (Decimal.digits d.coefficient).drop p) = some d := by
  have hdigits := AllDigits.digits d.coefficient
  have hne := digits_ne_nil d.coefficient
  have hread := decimal?_positional (hdigits.take p) (by simp [hne]; omega) (hdigits.drop p)
  have hfraction : -(((Decimal.digits d.coefficient).drop p).length : Int) = d.exponent := by
    rw [List.length_drop]
    omega
  rw [List.take_append_drop, natOfDigits_digits, hfraction] at hread
  exact hread

/-- The point may stand before zeros and the digits. -/
theorem decimal?_leading_zeros (d : Decimal) {k : Nat}
    (hk : ((Decimal.digits d.coefficient).length : Int) + d.exponent = -k) :
    decimal? ('0' :: '.' :: (List.replicate k '0' ++ Decimal.digits d.coefficient)) =
      some d := by
  have hread := decimal?_positional .zero (by simp)
    ((AllDigits.replicate_zero k).append (.digits d.coefficient))
  have hzeros := natOfDigits_zeros_append (k + 1) (Decimal.digits d.coefficient)
  have hfraction : -((List.replicate k '0' ++ Decimal.digits d.coefficient).length : Int) =
      d.exponent := by
    rw [List.length_append, List.length_replicate]
    omega
  rw [natOfDigits_digits] at hzeros
  rw [hfraction] at hread
  exact hread.trans (congrArg (some <| Decimal.mk · d.exponent) hzeros)

/-- With an exponent, the point stands after the first digit and is left out where no digit
follows. -/
theorem decimal?_scientific (d : Decimal) {tail : List Char}
    (hexponent : exponent? ('e' :: tail) =
      some ((Decimal.digits d.coefficient).length + d.exponent - 1)) :
    decimal? ((Decimal.digits d.coefficient).take 1 ++
      ((if ((Decimal.digits d.coefficient).drop 1).isEmpty then []
        else '.' :: (Decimal.digits d.coefficient).drop 1) ++ 'e' :: tail)) = some d := by
  have hdigits := AllDigits.digits d.coefficient
  have hne := digits_ne_nil d.coefficient
  have hvalue := natOfDigits_digits d.coefficient
  have hlength := List.length_pos_iff.mpr hne
  generalize Decimal.digits d.coefficient = ds at *
  split
  next hone =>
    have hle : ds.length ≤ 1 := List.drop_eq_nil_iff.mp (List.isEmpty_iff.mp hone)
    have hplaces : (ds.length : Int) + d.exponent - 1 = d.exponent := by omega
    rw [List.nil_append, List.take_of_length_le hle, decimal?_exponent hdigits hne, hexponent,
      Option.map_some, hvalue, hplaces]
  next =>
    have hfirst : ds.take 1 ≠ [] := by simp [hne]
    have hplaces : (ds.length : Int) + d.exponent - 1 - (ds.drop 1).length = d.exponent := by
      rw [List.length_drop]
      omega
    rw [List.cons_append, decimal?_point (hdigits.take 1) hfirst (hdigits.drop 1) ('e' :: tail)
      (by simp), hexponent, Option.map_some, List.take_append_drop, hvalue, hplaces]

/-- The text of a decimal reads as a decimal of the same value. -/
theorem decimal?_render (layout : DecimalLayout) (d : Decimal) :
    ∃ e, decimal? (d.render layout) = some e ∧ e.value = d.value := by
  rw [Decimal.render]
  split
  next =>
    split
    next hwhole => exact decimal?_whole d hwhole
    next hexponent =>
      split
      next hpoint =>
        exact ⟨d, decimal?_between d (by omega) (Int.toNat_of_nonneg (by omega)).symm (by omega),
          rfl⟩
      next hpoint => exact ⟨d, decimal?_leading_zeros d (by omega), rfl⟩
  next =>
    generalize hpoint : ((Decimal.digits d.coefficient).length : Int) + d.exponent = point
    generalize hsign : (if (layout.plusSign && decide (0 < point)) = true then ['+'] else []) = sign
    have hexponent : exponent? ('e' :: sign ++ (toString (point - 1)).toList) =
        some (point - 1) := by
      refine exponent?_toString ?_
      rw [← hsign]
      split
      next h => exact .inr ⟨rfl, by simp at h; omega⟩
      next => exact .inl rfl
    subst hpoint
    simp only [List.append_assoc, List.cons_append] at hexponent ⊢
    exact ⟨d, decimal?_scientific d hexponent, rfl⟩

/-- A decimal is written with a point or an exponent. -/
theorem not_allDigits_render (layout : DecimalLayout) (d : Decimal) :
    ¬ AllDigits (d.render layout) := by
  have hmem : '.' ∈ d.render layout ∨ 'e' ∈ d.render layout := by
    rw [Decimal.render]
    split
    · split
      · simp
      · split <;> simp
    · simp
  intro h
  rcases hmem with hmem | hmem
  · exact absurd (h _ hmem) (by decide)
  · exact absurd (h _ hmem) (by decide)

/-! ## Signs -/

/-- A decimal after a minus sign or without one. -/
def signedDecimal? (s : String) : Option (Bool × Decimal) :=
  match s.toList with
  | '-' :: rest => (decimal? rest).map (true, ·)
  | cs => (decimal? cs).map (false, ·)

theorem signedDecimal?_eq {s : String} {negative : Bool} {cs : List Char} {d : Decimal}
    (hs : s.toList = if negative then '-' :: cs else cs) (hcs : decimal? cs = some d) :
    signedDecimal? s = some (negative, d) := by
  rw [signedDecimal?, hs]
  cases negative with
  | true => exact congrArg (Option.map _) hcs
  | false =>
    split
    next rest heq =>
      -- nothing that begins with a sign is a decimal
      rw [show cs = '-' :: rest from heq] at hcs
      cases hcs
    next => exact congrArg (Option.map _) hcs

/-- The text of an integer reads as that integer. -/
theorem signedDecimal?_toString (i : Int) :
    signedDecimal? (toString i) = some (decide (i < 0), ⟨i.natAbs, 0⟩) := by
  have hread := decimal?_digits (digits_ne_nil i.natAbs) (.digits i.natAbs)
  rw [natOfDigits_digits] at hread
  exact signedDecimal?_eq (by simpa using toList_toString_int i) hread

/-! ## Doubles -/

namespace FiniteDouble

theorem toList_text (layout : DecimalLayout) (x : FiniteDouble) :
    (x.text layout).toList =
      if x.negative then '-' :: x.shortest.render layout else x.shortest.render layout := by
  rw [text, String.toList_ofList]
  cases x.negative <;> rfl

/-- The text of a double reads as its sign and a decimal of the value of the shortest one. -/
theorem signedDecimal?_text (layout : DecimalLayout) (x : FiniteDouble) :
    ∃ d, signedDecimal? (x.text layout) = some (x.negative, d) ∧
      d.value = x.shortest.value := by
  obtain ⟨d, hd, hvalue⟩ := decimal?_render layout x.shortest
  exact ⟨d, signedDecimal?_eq (x.toList_text layout) hd, hvalue⟩

/-- Different doubles have different texts, whatever the layout. The zeros count as different. -/
theorem text_injective (layout : DecimalLayout) : Function.Injective (text layout) := by
  intro x y h
  obtain ⟨d, hd, hdvalue⟩ := x.signedDecimal?_text layout
  obtain ⟨e, he, hevalue⟩ := y.signedDecimal?_text layout
  rw [h, he] at hd
  obtain ⟨hsign, rfl⟩ := Prod.mk.inj (Option.some.inj hd)
  have hrank := rank_eq_of_shortest (hdvalue.symm.trans hevalue)
  cases x
  cases y
  simp_all

/-- The text of a double is not that of an integer. -/
theorem text_ne_toString (layout : DecimalLayout) (x : FiniteDouble) (i : Int) :
    x.text layout ≠ toString i := by
  intro h
  obtain ⟨d, hd, -⟩ := x.signedDecimal?_text layout
  rw [h, signedDecimal?_toString] at hd
  have hsign : decide (i < 0) = x.negative := (Prod.mk.inj (Option.some.inj hd)).1
  have hlist := congrArg String.toList h
  rw [toList_text, toList_toString_int, ← hsign] at hlist
  have hrender : x.shortest.render layout = Decimal.digits i.natAbs := by
    by_cases hneg : i < 0 <;> simpa [hneg] using hlist
  have hdigits := AllDigits.digits i.natAbs
  rw [← hrender] at hdigits
  exact not_allDigits_render layout _ hdigits

end FiniteDouble

end ShapeMatch
