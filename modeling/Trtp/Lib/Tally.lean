import Mathlib.Algebra.BigOperators.Group.Finset.Basic
import Mathlib.Algebra.Order.BigOperators.Group.Finset
import Mathlib.Data.Fintype.BigOperators

/-!
# Counting threads

`tally p f` is the number of indices `i` at which `f i` satisfies `p`, as an integer,
so that a change at one index changes it by a difference (`tally_update`).  It turns
invariants about how many threads are where into linear arithmetic.
-/

namespace Trtp.Lib

variable {ι α : Type*} [Fintype ι] {p q : α → Bool} {f : ι → α}

def tally (p : α → Bool) (f : ι → α) : ℤ := ∑ i, (p (f i)).toInt

theorem toInt_nonneg (b : Bool) : 0 ≤ b.toInt := by
  cases b <;> decide

theorem tally_nonneg (p : α → Bool) (f : ι → α) : 0 ≤ tally p f :=
  Finset.sum_nonneg fun _ _ => toInt_nonneg _

theorem tally_le (h : ∀ a, p a = true → q a = true) (f : ι → α) : tally p f ≤ tally q f := by
  apply Finset.sum_le_sum
  intro i _
  cases hp : p (f i) with
  | false => exact toInt_nonneg _
  | true => rw [h _ hp]

theorem tally_pos {i : ι} (h : p (f i) = true) : 0 < tally p f := by
  have : (p (f i)).toInt ≤ tally p f :=
    Finset.single_le_sum (fun j _ => toInt_nonneg (p (f j))) (Finset.mem_univ i)
  rw [h] at this
  exact lt_of_lt_of_le (by decide) this

theorem tally_eq_zero (h : ∀ i, p (f i) = false) : tally p f = 0 := by
  apply Finset.sum_eq_zero
  intro i _
  rw [h i]
  rfl

theorem tally_lt_card [DecidableEq ι] {i : ι} (h : p (f i) = false) :
    tally p f < Fintype.card ι := by
  have hle : ∑ j ∈ Finset.univ.erase i, (p (f j)).toInt ≤ (Finset.univ.erase i).card • (1 : ℤ) := by
    apply Finset.sum_le_card_nsmul
    intro j _
    cases p (f j) <;> decide
  have hcard : (Finset.univ.erase i).card + 1 = Fintype.card ι :=
    Finset.card_erase_add_one (Finset.mem_univ i)
  have hsplit := Finset.add_sum_erase Finset.univ (fun j => (p (f j)).toInt) (Finset.mem_univ i)
  simp only [h] at hsplit
  rw [Int.nsmul_eq_mul, mul_one] at hle
  rw [tally, ← hsplit, ← hcard]
  show (0 : ℤ) + _ < _
  omega

theorem tally_update [DecidableEq ι] (p : α → Bool) (f : ι → α) (i : ι) (a : α) :
    tally p (Function.update f i a) = tally p f - (p (f i)).toInt + (p a).toInt := by
  have hf := Finset.add_sum_erase Finset.univ (fun j => (p (f j)).toInt) (Finset.mem_univ i)
  have hu := Finset.add_sum_erase Finset.univ (fun j => (p (Function.update f i a j)).toInt)
    (Finset.mem_univ i)
  have hrest : ∑ j ∈ Finset.univ.erase i, (p (Function.update f i a j)).toInt =
      ∑ j ∈ Finset.univ.erase i, (p (f j)).toInt := by
    apply Finset.sum_congr rfl
    intro j hj
    rw [Function.update_of_ne (Finset.ne_of_mem_erase hj)]
  rw [hrest, Function.update_self] at hu
  unfold tally
  omega

end Trtp.Lib
