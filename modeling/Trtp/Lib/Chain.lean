import Mathlib.Data.List.Basic
import Mathlib.Logic.Function.Basic

/-!
# Linked lists in a heap

A heap of cells is a function `next` from cells to pointers.  `Chain next p l` says
that the cells reached from `p` are those of `l`, in order, and that the last one
points to null.  A chain depends only on the cells it goes through, so writing to
any other cell keeps it (`Chain.update`).

A pointer can also be poisoned: it is not null and there is no cell behind it.
-/

namespace Trtp.Lib

inductive Ptr (ν : Type*) where
  | null
  | node (n : ν)
  | poison
  deriving DecidableEq

variable {ν : Type*}

def Chain (next : ν → Ptr ν) : Ptr ν → List ν → Prop
  | p, [] => p = .null
  | p, n :: l => p = .node n ∧ Chain next (next n) l

variable {next next' : ν → Ptr ν} {p : Ptr ν} {n : ν} {l : List ν}

@[simp] theorem chain_nil : Chain next p [] ↔ p = .null := Iff.rfl

@[simp] theorem chain_cons : Chain next p (n :: l) ↔ p = .node n ∧ Chain next (next n) l := Iff.rfl

theorem chain_null_iff : Chain next .null l ↔ l = [] := by
  cases l with
  | nil => simp
  | cons m l => simp

theorem Chain.of_node (h : Chain next (.node n) l) :
    ∃ rest, l = n :: rest ∧ Chain next (next n) rest := by
  cases l with
  | nil => cases h
  | cons m rest =>
    obtain ⟨he, hrest⟩ := h
    cases he
    exact ⟨rest, rfl, hrest⟩

theorem Chain.congr (h : Chain next p l) (hn : ∀ m ∈ l, next' m = next m) : Chain next' p l := by
  induction l generalizing p with
  | nil => exact h
  | cons m l ih =>
    refine ⟨h.1, ?_⟩
    rw [hn m List.mem_cons_self]
    exact ih h.2 fun k hk => hn k (List.mem_cons_of_mem m hk)

theorem Chain.update [DecidableEq ν] (h : Chain next p l) (hn : n ∉ l) (x : Ptr ν) :
    Chain (Function.update next n x) p l := by
  apply h.congr
  intro m hm
  have hne : m ≠ n := fun he => hn (he ▸ hm)
  exact Function.update_of_ne hne x next

theorem Chain.push [DecidableEq ν] (h : Chain next p l) (hn : n ∉ l) :
    Chain (Function.update next n p) (.node n) (n :: l) := by
  refine ⟨rfl, ?_⟩
  rw [Function.update_self]
  exact h.update hn p

end Trtp.Lib
