import Mathlib.Data.Int.Basic
import Mathlib.Tactic.IntervalCases

/-!
# Bit fields of signed 64-bit words

A word is put together from fields by shifting each to its place and joining
them with `|||`, and is taken apart by masks and by shifting back. On the level
of integers these are addition, remainder and division: a shift to the left
multiplies by a power of two and wraps, a disjoint `|||` adds, a mask of `k`
ones is the remainder modulo `2 ^ k`, and a shift to the right, which keeps the
sign, divides and rounds down – of negative words too.
-/

namespace Int64

variable (x y : Int64) {k : ℕ}

/-- The word with its `k` lowest bits set. -/
def mask (k : ℕ) : Int64 := ⟨⟨BitVec.ofNat 64 (2 ^ k - 1)⟩⟩

/-- The number of places a shift goes. -/
theorem toNat_smod_ofNat (hk : k < 64) :
    ((Int64.ofNat k).toBitVec.smod 64).toNat = k := by
  rw [Int64.toBitVec_ofNat']
  interval_cases k <;> decide

theorem toBitVec_shiftLeft_ofNat (hk : k < 64) :
    (x <<< Int64.ofNat k).toBitVec = x.toBitVec <<< k := by
  rw [Int64.toBitVec_shiftLeft, BitVec.shiftLeft_eq', toNat_smod_ofNat hk]

/-- **A shift multiplies, and wraps.** -/
theorem toInt_shiftLeft (hk : k < 64) :
    (x <<< Int64.ofNat k).toInt = (x.toInt * 2 ^ k).bmod (2 ^ 64) := by
  show (x <<< Int64.ofNat k).toBitVec.toInt = (x.toBitVec.toInt * 2 ^ k).bmod (2 ^ 64)
  rw [toBitVec_shiftLeft_ofNat x hk, BitVec.toInt_shiftLeft, Nat.shiftLeft_eq,
    BitVec.toInt_eq_toNat_bmod x.toBitVec, Int.bmod_mul_bmod, Nat.cast_mul, Nat.cast_pow]
  rfl

/-- **A shift back divides, and rounds down.** -/
theorem toInt_shiftRight (hk : k < 64) :
    (x >>> Int64.ofNat k).toInt = x.toInt / 2 ^ k := by
  show (x >>> Int64.ofNat k).toBitVec.toInt = x.toBitVec.toInt / 2 ^ k
  rw [Int64.toBitVec_shiftRight, BitVec.toInt_sshiftRight', toNat_smod_ofNat hk,
    Int.shiftRight_eq_div_pow]
  norm_cast

/-- A word that is not negative is the number of its bits. -/
theorem toNat_toBitVec_of_nonneg (h₀ : 0 ≤ y.toInt) : (y.toBitVec.toNat : Int) = y.toInt := by
  have hcond : y.toInt = _ := BitVec.toInt_eq_toNat_cond y.toBitVec
  have hlt := y.toBitVec.isLt
  split at hcond <;> omega

/-- A number below `2 ^ k` has no bit from `k` on. -/
theorem shiftLeft_and_eq_zero (hk : k < 64) (h₀ : 0 ≤ y.toInt) (hy : y.toInt < 2 ^ k) :
    (x <<< Int64.ofNat k).toBitVec &&& y.toBitVec = 0#64 := by
  have hlt : y.toBitVec.toNat < 2 ^ k := by
    have hnat := toNat_toBitVec_of_nonneg y h₀
    exact_mod_cast hnat ▸ hy
  rw [toBitVec_shiftLeft_ofNat x hk]
  refine BitVec.eq_of_getLsbD_eq (fun i _ => ?_)
  rw [BitVec.getLsbD_and, BitVec.getLsbD_shiftLeft, BitVec.getLsbD_zero]
  by_cases hi : i < k
  · simp [hi]
  · have hbit : y.toBitVec.getLsbD i = false :=
      Nat.testBit_lt_two_pow (hlt.trans_le (Nat.pow_le_pow_right (by omega) (by omega)))
    simp [hbit]

/-- **A disjoint union adds.** -/
theorem toInt_shiftLeft_or (hk : k < 64) (h₀ : 0 ≤ y.toInt) (hy : y.toInt < 2 ^ k) :
    (x <<< Int64.ofNat k ||| y).toInt = (x.toInt * 2 ^ k + y.toInt).bmod (2 ^ 64) := by
  have hadd : x <<< Int64.ofNat k ||| y = x <<< Int64.ofNat k + y := by
    refine Int64.toBitVec_inj.mp ?_
    exact (BitVec.add_eq_or_of_and_eq_zero _ _ (shiftLeft_and_eq_zero x y hk h₀ hy)).symm
  rw [hadd, Int64.toInt_add, toInt_shiftLeft x hk, Int.bmod_add_bmod]

/-- **A mask takes the remainder.** -/
theorem toInt_and_mask (hk : k < 64) : (x &&& mask k).toInt = x.toInt % 2 ^ k := by
  have hpow : 2 ^ k ≤ 2 ^ 63 := Nat.pow_le_pow_right (by omega) (by omega)
  have hpos : 0 < 2 ^ k := Nat.two_pow_pos k
  have hnat : (x &&& mask k).toBitVec.toNat = x.toBitVec.toNat % 2 ^ k := by
    rw [Int64.toBitVec_and, BitVec.toNat_and, mask,
      show (Int64.toBitVec ⟨⟨BitVec.ofNat 64 (2 ^ k - 1)⟩⟩).toNat
        = (2 ^ k - 1) % 2 ^ 64 from rfl,
      Nat.mod_eq_of_lt (by omega), Nat.and_two_pow_sub_one_eq_mod]
  have hlt := Nat.mod_lt x.toBitVec.toNat hpos
  show (x &&& mask k).toBitVec.toInt = x.toBitVec.toInt % 2 ^ k
  rw [BitVec.toInt_eq_toNat_of_lt (by omega), hnat, BitVec.toInt_eq_toNat_bmod]
  have hdvd : ((2 ^ k : ℕ) : Int) ∣ ((2 ^ 64 : ℕ) : Int) := by
    exact_mod_cast Nat.pow_dvd_pow 2 (by omega : k ≤ 64)
  rw [← Int.emod_emod_of_dvd _ (by exact_mod_cast hdvd : (2 : Int) ^ k ∣ ((2 ^ 64 : ℕ) : Int)),
    Int.bmod_emod, Int.emod_emod_of_dvd _ (by exact_mod_cast hdvd)]
  norm_cast

end Int64
