import ShapeMatch.Value
import ShapeMatch.Yaml.Tree

/-!
# From YAML trees to values

Tags are dropped, and keys that are scalars become strings. What no value can express is an
error, the first in document order.

## Main definitions

* `Yaml.ConversionError`: a part of a tree that no value can express.
* `Yaml.Numeral.toNumber`: the number of a numeral.
* `Yaml.Tree.key`: the string of a key.
* `Yaml.Tree.toValue`: the value of a tree.
-/

namespace ShapeMatch.Yaml

/-- A part of a tree that no value can express. -/
inductive ConversionError where
  | nonFiniteFloat (x : Double)
  | compoundKey (key : Tree)
deriving Repr

/-- The text of a double in messages. -/
def doubleText : Double → String
  | .finite x => x.text .bare
  | .infinite negative => if negative then "-inf" else "inf"
  | .nan => "NaN"

def ConversionError.message : ConversionError → String
  | nonFiniteFloat x => "float " ++ doubleText x ++ " is not representable in JSON"
  | compoundKey key => "mapping key " ++ key.describe ++ " is not a scalar"

namespace Numeral

/-- The number of a numeral: a signed integer if it is one, else an unsigned one, else a double.
Infinities and NaN have none. -/
def toNumber (n : Numeral) : Except ConversionError Number :=
  match n.signed? with
  | some i => .ok (.int i)
  | none =>
    match n.unsigned? with
    | some m => .ok (.int m)
    | none =>
      match n.toDouble with
      | .finite x => .ok (.float x)
      | x => .error (.nonFiniteFloat x)

/-- Every integer is a signed or an unsigned one, so it is never rounded. -/
@[simp] theorem toNumber_int (i : Int) : (int i).toNumber = .ok (.int i) := by
  by_cases hsigned : i < Nat.pow 2 63
  · rw [toNumber, signed?, if_pos hsigned]
  · have hpow : (0 : Int) ≤ Nat.pow 2 63 := Int.natCast_nonneg _
    obtain ⟨n, rfl⟩ := Int.eq_ofNat_of_zero_le (Int.le_trans hpow (Int.not_lt.1 hsigned))
    rw [toNumber, signed?, if_neg hsigned]
    rfl

theorem toNumber_float (x : Double) :
    (float x).toNumber =
      match x with
      | .finite y => .ok (.float y)
      | y => .error (.nonFiniteFloat y) := rfl

end Numeral

namespace Tree

/-- The string of a key. -/
def key : Tree → Except ConversionError String
  | str s => .ok s
  | num n => .ok n.text
  | bool b => .ok (toString b)
  | tagged _ content => content.key
  | compound => .error (.compoundKey compound)

mutual

/-- The value of a tree. -/
def toValue : Tree → Except ConversionError Value
  | null => .ok .null
  | bool b => .ok (.bool b)
  | num n => n.toNumber.map .num
  | str s => .ok (.str s)
  | seq items => (itemValues items).map .arr
  | map entries => (entryFields entries).map fun fields => .obj (Object.ofList fields)
  | tagged _ content => content.toValue

def itemValues : List Tree → Except ConversionError (List Value)
  | [] => .ok []
  | t :: rest => do
    let v ← t.toValue
    let values ← itemValues rest
    return v :: values

/-- The fields of entries, in document order, the key of an entry before its value. -/
def entryFields : List (Tree × Tree) → Except ConversionError (List (String × Value))
  | [] => .ok []
  | (k, t) :: rest => do
    let name ← k.key
    let v ← t.toValue
    let fields ← entryFields rest
    return (name, v) :: fields

end

end Tree

end ShapeMatch.Yaml
