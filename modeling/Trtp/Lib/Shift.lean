import Mathlib.Algebra.Group.Nat.Defs
import Mathlib.Logic.Function.Iterate

/-!
# Shift registers

A register of `w` bits with a feedback polynomial.  It is shifted to the right, and the
polynomial is added when the bit that falls out is set.

The step is linear in exclusive or, so that any number of steps acts on the parts of a value
apart from each other (`iterate_feedback_xor`).  A part whose low bits are clear only moves
(`iterate_feedback_of_clear`).  Tables for several bits at once rest on these two.
-/

namespace Trtp.Lib

variable {w : ℕ}

def feedback (p x : BitVec w) : BitVec w :=
  if x.getLsbD 0 then (x >>> 1) ^^^ p else x >>> 1

variable (p : BitVec w)

theorem feedback_getLsbD (x : BitVec w) (i : ℕ) :
    (feedback p x).getLsbD i = (x.getLsbD (i + 1) ^^ (x.getLsbD 0 && p.getLsbD i)) := by
  unfold feedback
  split
  · rename_i h
    rw [BitVec.getLsbD_xor, BitVec.getLsbD_ushiftRight, h, Bool.true_and, Nat.add_comm 1 i]
  · rename_i h
    rw [BitVec.getLsbD_ushiftRight, Bool.eq_false_iff.mpr h, Bool.false_and, Bool.xor_false,
      Nat.add_comm 1 i]

theorem feedback_xor (x y : BitVec w) :
    feedback p (x ^^^ y) = feedback p x ^^^ feedback p y := by
  apply BitVec.eq_of_getLsbD_eq
  intro i _
  simp only [feedback_getLsbD, BitVec.getLsbD_xor, Bool.and_xor_distrib_right, Bool.xor_assoc,
    Bool.xor_left_comm]

theorem iterate_feedback_xor (n : ℕ) (x y : BitVec w) :
    (feedback p)^[n] (x ^^^ y) = (feedback p)^[n] x ^^^ (feedback p)^[n] y := by
  induction n generalizing x y with
  | zero => rfl
  | succ n ih => rw [Function.iterate_succ_apply, feedback_xor, ih, Function.iterate_succ_apply,
      Function.iterate_succ_apply]

theorem feedback_of_clear {x : BitVec w} (h : x.getLsbD 0 = false) : feedback p x = x >>> 1 := by
  unfold feedback
  rw [h]
  rfl

/-- Bits that do not reach the end of the register only move. -/
theorem iterate_feedback_of_clear {x : BitVec w} {n : ℕ} (h : ∀ i < n, x.getLsbD i = false) :
    (feedback p)^[n] x = x >>> n := by
  induction n with
  | zero => exact (BitVec.ushiftRight_zero x).symm
  | succ n ih =>
    have hlow : (x >>> n).getLsbD 0 = false := by
      rw [BitVec.getLsbD_ushiftRight]
      exact h n (Nat.lt_succ_self n)
    rw [Function.iterate_succ_apply', ih fun i hi => h i (Nat.lt_succ_of_lt hi),
      feedback_of_clear p hlow, BitVec.shiftRight_add]

/-- A value that has room to be moved up comes back after as many steps. -/
theorem iterate_feedback_shiftLeft {x : BitVec w} {n : ℕ} (h : x.toNat < 2 ^ (w - n))
    (hn : n ≤ w) : (feedback p)^[n] (x <<< n) = x := by
  rw [iterate_feedback_of_clear]
  · apply BitVec.eq_of_getLsbD_eq
    intro i hi
    rw [BitVec.getLsbD_ushiftRight, BitVec.getLsbD_shiftLeft]
    by_cases hroom : n + i < w
    · simp [hroom]
    · have hclear : x.getLsbD i = false := by
        have hlt : x.toNat < 2 ^ i :=
          Nat.lt_of_lt_of_le h (Nat.pow_le_pow_right (by decide) (by omega))
        exact Nat.testBit_lt_two_pow hlt
      simp [hroom, hclear]
  · intro i hi
    rw [BitVec.getLsbD_shiftLeft]
    simp [hi]

/-- The lowest bits of a value and the others. -/
theorem eq_low_xor (x : BitVec w) (k : ℕ) :
    x = (x &&& BitVec.ofNat w (2 ^ k - 1)) ^^^ ((x >>> k) <<< k) := by
  apply BitVec.eq_of_getLsbD_eq
  intro i hi
  have hmask : (BitVec.ofNat w (2 ^ k - 1)).getLsbD i = decide (i < k) := by
    rw [BitVec.getLsbD_ofNat, Nat.testBit_two_pow_sub_one, decide_eq_true hi, Bool.true_and]
  rw [BitVec.getLsbD_xor, BitVec.getLsbD_and, hmask, BitVec.getLsbD_shiftLeft,
    BitVec.getLsbD_ushiftRight]
  by_cases h : i < k
  · simp [h]
  · have hadd : k + (i - k) = i := by omega
    simp [h, hi, hadd]

/-- The steps of a value, apart for its lowest bits and for the others, which have as many
steps to go until they reach the end. -/
theorem iterate_feedback_split {k : ℕ} (hk : k ≤ w) (n : ℕ) (x : BitVec w) :
    (feedback p)^[n + k] x =
      (feedback p)^[n + k] (x &&& BitVec.ofNat w (2 ^ k - 1)) ^^^ (feedback p)^[n] (x >>> k) := by
  have hroom : (x >>> k).toNat < 2 ^ (w - k) := by
    have hpow : 2 ^ w = 2 ^ k * 2 ^ (w - k) := by
      rw [← Nat.pow_add, Nat.add_sub_cancel' hk]
    rw [BitVec.toNat_ushiftRight, Nat.shiftRight_eq_div_pow,
      Nat.div_lt_iff_lt_mul (Nat.two_pow_pos k), Nat.mul_comm, ← hpow]
    exact x.isLt
  conv => lhs; rw [eq_low_xor x k]
  rw [iterate_feedback_xor, Function.iterate_add_apply (feedback p) n k ((x >>> k) <<< k),
    iterate_feedback_shiftLeft p hroom hk]

end Trtp.Lib
