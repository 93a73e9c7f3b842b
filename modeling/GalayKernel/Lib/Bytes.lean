import Mathlib.Data.List.Basic
import Mathlib.Tactic.NormNum

/-!
# Little-endian numbers and terminated strings

The two encodings of which the records of a C interface consist: numbers of a fixed width, least
significant byte first, and strings that end with a zero byte.
-/

namespace Bytes

/-- The `width` lowest bytes of `n`. -/
def toLE : Nat → Nat → List UInt8
  | 0, _ => []
  | width + 1, n => UInt8.ofNat n :: toLE width (n / 256)

def ofLE : List UInt8 → Nat
  | [] => 0
  | b :: bytes => b.toNat + 256 * ofLE bytes

@[simp] lemma length_toLE (width n : Nat) : (toLE width n).length = width := by
  induction width generalizing n with
  | zero => rfl
  | succ width ih => rw [toLE, List.length_cons, ih]

lemma ofLE_toLE {width n : Nat} (h : n < 256 ^ width) : ofLE (toLE width n) = n := by
  induction width generalizing n with
  | zero =>
    rw [pow_zero, Nat.lt_one_iff] at h
    rw [h]
    rfl
  | succ width ih =>
    have hlt : n / 256 < 256 ^ width := by
      rw [Nat.div_lt_iff_lt_mul (by norm_num), ← pow_succ]
      exact h
    rw [toLE, ofLE, ih hlt, UInt8.toNat_ofNat']
    omega

/-- The number at `offset`, with `width` bytes. -/
def number (bytes : List UInt8) (offset width : Nat) : Nat := ofLE ((bytes.drop offset).take width)

/-- A number that is laid out behind `before` is read back. -/
lemma number_append (before : List UInt8) {width n : Nat} (after : List UInt8)
    (h : n < 256 ^ width) : number (before ++ (toLE width n ++ after)) before.length width = n := by
  rw [number, List.drop_left, List.take_left' (length_toLE width n), ofLE_toLE h]

/-- A C string: the bytes up to the first zero. -/
def cString (bytes : List UInt8) : List UInt8 := bytes.takeWhile (· ≠ 0)

lemma cString_terminated {name : List UInt8} (h : ∀ b ∈ name, b ≠ 0) (after : List UInt8) :
    cString (name ++ 0 :: after) = name := by
  rw [cString, List.takeWhile_append_of_pos (by simpa using h), List.takeWhile_cons_of_neg (by simp),
    List.append_nil]

end Bytes
