import Mathlib.Data.Nat.Bitwise

/-!
This module contains how bytes are taken apart into bit fields and put together again.
-/

namespace Bits

theorem or_eq_add {a b : Nat} (i : Nat) (ha : 2 ^ i ∣ a) (hb : b < 2 ^ i) : a ||| b = a + b := by
  obtain ⟨c, rfl⟩ := ha
  exact (Nat.two_pow_add_eq_or_of_lt hb c).symm

theorem ofNat_eq {n : Nat} {b : UInt8} (h : n = b.toNat) : UInt8.ofNat n = b := by
  rw [h, UInt8.ofNat_toNat]

section Fields

variable {s t m n : UInt8} (a b : UInt8)

theorem toNat_or {a b : UInt8} (i : Nat) (ha : 2 ^ i ∣ a.toNat) (hb : b.toNat < 2 ^ i)
    : (a ||| b).toNat = a.toNat + b.toNat := by
  rw [UInt8.toNat_or]
  exact or_eq_add i ha hb

theorem toNat_shiftRight (hs : s.toNat < 8) : (a >>> s).toNat = a.toNat / 2 ^ s.toNat := by
  rw [UInt8.toNat_shiftRight, Nat.mod_eq_of_lt hs, Nat.shiftRight_eq_div_pow]

theorem toNat_shiftLeft (hs : s.toNat < 8) : (a <<< s).toNat = a.toNat * 2 ^ s.toNat % 256 := by
  rw [UInt8.toNat_shiftLeft, Nat.mod_eq_of_lt hs, Nat.shiftLeft_eq]

/--
The mask has the low bits.
-/
theorem toNat_and (hm : ∃ n < 9, m.toNat + 1 = 2 ^ n)
    : (a &&& m).toNat = a.toNat % (m.toNat + 1) := by
  obtain ⟨n, -, hm⟩ := hm
  have hmask : m.toNat = 2 ^ n - 1 := by omega
  rw [hm, UInt8.toNat_and, hmask, Nat.and_two_pow_sub_one_eq_mod]

/--
The mask has the bits from the shift on.
-/
theorem toNat_shiftLeft_and (hs : s.toNat < 8)
    (hm : ∃ n < 9, n + s.toNat ≤ 8 ∧ m.toNat + 2 ^ s.toNat = 2 ^ n * 2 ^ s.toNat)
    : ((a <<< s) &&& m).toNat = a.toNat * 2 ^ s.toNat % (m.toNat + 2 ^ s.toNat) := by
  obtain ⟨n, -, hn, hm⟩ := hm
  have hmask : m.toNat = (2 ^ n - 1) <<< s.toNat := by
    rw [Nat.shiftLeft_eq, Nat.sub_mul, Nat.one_mul]
    omega
  have hbyte : 256 = 2 ^ (8 - s.toNat) * 2 ^ s.toNat := by
    rw [← Nat.pow_add, Nat.sub_add_cancel (Nat.le_of_lt hs)]
  have hdvd : 2 ^ n ∣ 2 ^ (8 - s.toNat) := Nat.pow_dvd_pow 2 (by omega)
  calc ((a <<< s) &&& m).toNat
    _ = (a.toNat % 2 ^ (8 - s.toNat)) <<< s.toNat &&& (2 ^ n - 1) <<< s.toNat := by
      rw [UInt8.toNat_and, toNat_shiftLeft a hs, hmask, hbyte, Nat.mul_mod_mul_right,
        Nat.shiftLeft_eq (a.toNat % _)]
    _ = (a.toNat % 2 ^ (8 - s.toNat) &&& (2 ^ n - 1)) <<< s.toNat := Nat.shiftLeft_and_distrib.symm
    _ = a.toNat % 2 ^ n * 2 ^ s.toNat := by
      rw [Nat.and_two_pow_sub_one_eq_mod, Nat.mod_mod_of_dvd _ hdvd, Nat.shiftLeft_eq]
    _ = a.toNat * 2 ^ s.toNat % (m.toNat + 2 ^ s.toNat) := by
      rw [hm, Nat.mul_mod_mul_right]

/--
A field that goes over from one byte to the next, with its parts masked behind the shifts.
-/
theorem toNat_shiftLeft_and_or (hs : s.toNat < 8)
    (hm : ∃ k < 9, k + s.toNat ≤ 8 ∧ m.toNat + 2 ^ s.toNat = 2 ^ k * 2 ^ s.toNat) (ht : t.toNat < 8)
    (hn : ∃ k < 9, n.toNat + 1 = 2 ^ k) (hfit : n.toNat < 2 ^ s.toNat)
    : (((a <<< s) &&& m) ||| ((b >>> t) &&& n)).toNat
        =
      a.toNat * 2 ^ s.toNat % (m.toNat + 2 ^ s.toNat) + b.toNat / 2 ^ t.toNat % (n.toNat + 1) := by
  have hhigh := toNat_shiftLeft_and a hs hm
  have hlow : ((b >>> t) &&& n).toNat = b.toNat / 2 ^ t.toNat % (n.toNat + 1) := by
    rw [toNat_and _ hn, toNat_shiftRight b ht]
  have hdvd : 2 ^ s.toNat ∣ ((a <<< s) &&& m).toNat := by
    obtain ⟨k, -, -, hm⟩ := hm
    rw [hhigh, hm, Nat.mul_mod_mul_right]
    exact Nat.dvd_mul_left _ _
  have hlt : ((b >>> t) &&& n).toNat < 2 ^ s.toNat := by
    rw [hlow]
    exact Nat.lt_of_lt_of_le (Nat.mod_lt _ (Nat.succ_pos _)) hfit
  rw [toNat_or s.toNat hdvd hlt, hhigh, hlow]

/--
A field that goes over from one byte to the next, with the low bits of the first one.
-/
theorem toNat_and_shiftLeft_or (hs : s.toNat < 8) (hm : ∃ k < 9, m.toNat + 1 = 2 ^ k)
    (ht : t.toNat < 8) (hfit : 8 ≤ t.toNat + s.toNat)
    : (((a &&& m) <<< s) ||| (b >>> t)).toNat
        =
      a.toNat % (m.toNat + 1) * 2 ^ s.toNat % 256 + b.toNat / 2 ^ t.toNat := by
  have hhigh : ((a &&& m) <<< s).toNat = a.toNat % (m.toNat + 1) * 2 ^ s.toNat % 256 := by
    rw [toNat_shiftLeft _ hs, toNat_and a hm]
  have hlow := toNat_shiftRight b ht
  have hdvd : 2 ^ s.toNat ∣ ((a &&& m) <<< s).toNat := by
    rw [hhigh]
    exact (Nat.dvd_mod_iff (Nat.pow_dvd_pow 2 (Nat.le_of_lt hs))).mpr (Nat.dvd_mul_left _ _)
  have hlt : (b >>> t).toNat < 2 ^ s.toNat := by
    rw [hlow, Nat.div_lt_iff_lt_mul (Nat.two_pow_pos _), ← Nat.pow_add]
    exact Nat.lt_of_lt_of_le b.toNat_lt (Nat.pow_le_pow_right (by decide) (by omega))
  rw [toNat_or s.toNat hdvd hlt, hhigh, hlow]

end Fields

end Bits
