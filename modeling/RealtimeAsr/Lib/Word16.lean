import Mathlib.Data.Int.Order.Basic

/-!
This module contains the 16 bit integers as a range of the integers, and when their arithmetic is exact.
-/

namespace Word16

theorem lower (x : Int16) : -32768 ≤ x.toInt := x.le_toInt

theorem upper (x : Int16) : x.toInt ≤ 32767 := Int.le_of_lt_add_one x.toInt_lt

theorem toInt_ofInt {n : Int} (hlower : -32768 ≤ n) (hupper : n ≤ 32767)
    : (Int16.ofInt n).toInt = n :=
  Int16.toInt_ofInt_of_le hlower (Int.lt_add_one_of_le hupper)

theorem toInt_add {a b : Int16} (hlower : -32768 ≤ a.toInt + b.toInt)
    (hupper : a.toInt + b.toInt ≤ 32767)
    : (a + b).toInt = a.toInt + b.toInt := by
  rw [Int16.toInt_add]
  exact Int.bmod_eq_of_le hlower (Int.lt_add_one_of_le hupper)

theorem toInt_sub {a b : Int16} (hlower : -32768 ≤ a.toInt - b.toInt)
    (hupper : a.toInt - b.toInt ≤ 32767)
    : (a - b).toInt = a.toInt - b.toInt := by
  rw [Int16.toInt_sub]
  exact Int.bmod_eq_of_le hlower (Int.lt_add_one_of_le hupper)

theorem toInt_neg {a : Int16} (h : -32767 ≤ a.toInt) : (-a).toInt = -a.toInt := by
  have hlower := lower a
  have hupper := upper a
  rw [Int16.toInt_neg]
  exact Int.bmod_eq_of_le (by omega) (by omega)

theorem lt_iff {a b : Int16} : a < b ↔ a.toInt < b.toInt := Int16.lt_iff_toInt_lt

theorem le_iff {a b : Int16} : a ≤ b ↔ a.toInt ≤ b.toInt := Int16.le_iff_toInt_le

/--
All ones.
-/
theorem toInt_xor_ones (a : Int16) : (a ^^^ 0xFFFF).toInt = -a.toInt - 1 := by
  have hlower := lower a
  have hupper := upper a
  have hones : (0xFFFF : Int16) = -1 := by decide
  rw [hones, Int16.xor_neg_one, Int16.toInt_not]
  exact Int.bmod_eq_of_le (by omega) (by omega)

theorem toInt_of_toNat_lt {a : Int16} (h : a.toBitVec.toNat < 32768) : a.toInt = a.toBitVec.toNat := by
  rw [← Int16.toInt_toBitVec]
  exact BitVec.toInt_eq_toNat_of_lt (by omega)

instance instLinearOrderInt16 : LinearOrder Int16 where
  le_refl a := le_iff.mpr (Int.le_refl _)
  le_trans a b c hab hbc := le_iff.mpr (Int.le_trans (le_iff.mp hab) (le_iff.mp hbc))
  le_antisymm a b hab hba := Int16.toInt_inj.mp (Int.le_antisymm (le_iff.mp hab) (le_iff.mp hba))
  le_total a b := by
    rw [le_iff, le_iff]
    exact Int.le_total _ _
  lt_iff_le_not_ge a b := by
    rw [lt_iff, le_iff, le_iff]
    omega
  toDecidableLE := inferInstance
  toDecidableEq := inferInstance
  toDecidableLT := inferInstance

end Word16
