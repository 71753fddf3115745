import Mathlib.Algebra.BigOperators.Group.Finset.Basic
import Mathlib.Algebra.BigOperators.Group.Multiset.Basic
import Mathlib.Data.Fintype.BigOperators

/-!
# Where things are

Things are handed around between places, and each place holds a list of them.
`gather p f` are all the things at the places `f i`, where `p` reads them off a place.
A place that gains or loses one thing changes it by that thing (`gather_gain`,
`gather_lose`), so a thing that moves changes a sum of such collections not at all.

Without duplicates in the collection, no two places hold the same thing.
-/

namespace Trtp.Lib

variable {ι α β : Type*} [Fintype ι] {p : α → List β} {f : ι → α} {i j : ι} {a : α} {x : β}

def gather (p : α → List β) (f : ι → α) : Multiset β := ∑ i, (p (f i) : Multiset β)

theorem mem_gather : x ∈ gather p f ↔ ∃ i, x ∈ p (f i) := by
  simp only [gather, Multiset.mem_sum, Finset.mem_univ, true_and, Multiset.mem_coe]

theorem gather_eq_zero (h : ∀ i, p (f i) = []) : gather p f = 0 := by
  apply Finset.sum_eq_zero
  intro i _
  rw [h i]
  rfl

theorem gather_eq_add [DecidableEq ι] (p : α → List β) (f : ι → α) (i : ι) :
    gather p f = (p (f i) : Multiset β) + ∑ j ∈ Finset.univ.erase i, (p (f j) : Multiset β) :=
  (Finset.add_sum_erase Finset.univ (fun j => (p (f j) : Multiset β)) (Finset.mem_univ i)).symm

theorem gather_update [DecidableEq ι] (p : α → List β) (f : ι → α) (i : ι) (a : α) :
    gather p (Function.update f i a) =
      (p a : Multiset β) + ∑ j ∈ Finset.univ.erase i, (p (f j) : Multiset β) := by
  rw [gather_eq_add p _ i, Function.update_self]
  congr 1
  apply Finset.sum_congr rfl
  intro j hj
  rw [Function.update_of_ne (Finset.ne_of_mem_erase hj)]

theorem gather_gain [DecidableEq ι] (h : (p a).Perm (x :: p (f i))) :
    gather p (Function.update f i a) = x ::ₘ gather p f := by
  rw [gather_update, gather_eq_add p f i, Multiset.coe_eq_coe.mpr h, ← Multiset.cons_coe,
    Multiset.cons_add]

theorem gather_lose [DecidableEq ι] (h : p (f i) = x :: p a) :
    gather p f = x ::ₘ gather p (Function.update f i a) := by
  rw [gather_update, gather_eq_add p f i, h, ← Multiset.cons_coe, Multiset.cons_add]

theorem gather_keep [DecidableEq ι] (h : p a = p (f i)) :
    gather p (Function.update f i a) = gather p f := by
  rw [gather_update, gather_eq_add p f i, h]

theorem gather_append [DecidableEq ι] {l : List β} (h : p a = p (f i) ++ l) :
    gather p (Function.update f i a) = gather p f + (l : Multiset β) := by
  rw [gather_update, gather_eq_add p f i, h, ← Multiset.coe_add, add_right_comm]

theorem gather_clear [DecidableEq ι] (h : p a = []) :
    gather p f = gather p (Function.update f i a) + (p (f i) : Multiset β) := by
  rw [gather_update, gather_eq_add p f i, h, Multiset.coe_nil, zero_add, add_comm]

section

variable {q : ι → List β} {l : List β}

theorem gather_push [DecidableEq ι] (q : ι → List β) (i : ι) (x : β) :
    gather id (Function.update q i (q i ++ [x])) = x ::ₘ gather id q :=
  gather_gain (List.perm_append_singleton x (q i))

theorem gather_pop [DecidableEq ι] (h : q i = x :: l) :
    gather id q = x ::ₘ gather id (Function.update q i l) :=
  gather_lose h

end

/-- Two places with the same thing are one. -/
theorem eq_of_mem_gather [DecidableEq ι] (hnodup : (gather p f).Nodup) (hi : x ∈ p (f i))
    (hj : x ∈ p (f j)) : i = j := by
  by_contra hne
  rw [gather_eq_add p f i, Multiset.nodup_add] at hnodup
  have hrest : x ∈ ∑ k ∈ Finset.univ.erase i, (p (f k) : Multiset β) :=
    Multiset.mem_sum.mpr ⟨j, Finset.mem_erase.mpr ⟨Ne.symm hne, Finset.mem_univ j⟩, hj⟩
  exact Multiset.disjoint_left.mp hnodup.2.2 (Multiset.mem_coe.mpr hi) hrest

end Trtp.Lib
