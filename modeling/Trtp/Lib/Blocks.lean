import Mathlib.Data.Nat.Notation

/-!
# Loops over blocks

A loop takes blocks of `size` elements from the front of a list while at least
`size + ahead` are left, and a second loop takes the rest one by one.  When the body does on
a block what the second loop would do, both together are one loop over the elements.
-/

namespace Trtp.Lib

variable {α σ : Type} {size : ℕ}

def blocks (hsize : 0 < size) (ahead : ℕ) (body : σ → List α → σ) (s : σ) (data : List α) :
    σ × List α :=
  if size + ahead ≤ data.length then
    blocks hsize ahead body (body s (data.take size)) (data.drop size)
  else (s, data)
termination_by data.length
decreasing_by
  rw [List.length_drop]
  omega

variable {hsize : 0 < size} {ahead : ℕ} {body : σ → List α → σ} {s : σ} {data : List α}

theorem blocks_of_le (h : size + ahead ≤ data.length) :
    blocks hsize ahead body s data =
      blocks hsize ahead body (body s (data.take size)) (data.drop size) := by
  rw [blocks, if_pos h]

theorem blocks_of_lt (h : data.length < size + ahead) :
    blocks hsize ahead body s data = (s, data) := by
  rw [blocks, if_neg (Nat.not_le_of_lt h)]

/-- A body that is written out several times for the parts of one block. -/
theorem foldl_unroll {step : σ → α → σ}
    (h : ∀ s block, size ≤ block.length → body s block = (block.take size).foldl step s) (n : ℕ)
    (s : σ) {block : List α} (hblock : size * n ≤ block.length) :
    (List.range n).foldl (fun s k => body s (block.drop (size * k))) s =
      (block.take (size * n)).foldl step s := by
  induction n with
  | zero => rfl
  | succ n ih =>
    rw [Nat.mul_succ] at hblock
    have hdrop : size ≤ (block.drop (size * n)).length := by
      rw [List.length_drop]
      omega
    rw [List.range_succ, List.foldl_append, ih (by omega), List.foldl_cons, List.foldl_nil,
      h _ _ hdrop, Nat.mul_succ, List.take_add, List.foldl_append]

theorem foldl_blocks {step : σ → α → σ}
    (h : ∀ s block, block.length = size → body s block = block.foldl step s) (s : σ)
    (data : List α) :
    (blocks hsize ahead body s data).2.foldl step (blocks hsize ahead body s data).1 =
      data.foldl step s := by
  induction hn : data.length using Nat.strongRecOn generalizing s data with
  | ind n ih =>
    by_cases hle : size + ahead ≤ data.length
    · have hblock : (data.take size).length = size := List.length_take_of_le (by omega)
      have hdrop : (data.drop size).length < n := by
        rw [List.length_drop]
        omega
      rw [blocks_of_le hle, ih _ hdrop _ _ rfl, h s _ hblock, ← List.foldl_append,
        List.take_append_drop]
    · rw [blocks_of_lt (Nat.lt_of_not_le hle)]

end Trtp.Lib
