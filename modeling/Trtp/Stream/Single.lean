import Mathlib.Data.Int.Notation
import Mathlib.Data.List.Basic

/-!
# The stream in one thread

`stream_enqueue` and `stream_pop` with `wait` false, run by a thread that is alone: no
compare-and-swap fails, and `waiting` is back at its value when a call returns.  `length`
is decremented by every pop, also by one that finds nothing.
-/

namespace Trtp

/-- `stream_t`.  The lists are the chains of nodes from `in_queue` and from `out_queue`. -/
structure Queue (ν : Type) where
  inQueue : List ν
  outQueue : List ν
  length : ℤ

namespace Queue

variable {ν : Type}

def empty : Queue ν := { inQueue := [], outQueue := [], length := 0 }

def enqueue (q : Queue ν) (node : ν) : Queue ν :=
  { q with inQueue := node :: q.inQueue, length := q.length + 1 }

/-- Move `in_queue` to `out_queue`, node by node. -/
def transfer (q : Queue ν) : Queue ν :=
  if q.outQueue.isEmpty then { q with inQueue := [], outQueue := q.inQueue.reverse } else q

def pop (q : Queue ν) : Option ν × Queue ν :=
  match q.transfer.outQueue with
  | [] => (none, { q.transfer with length := q.length - 1 })
  | head :: next => (some head, { q.transfer with outQueue := next, length := q.length - 1 })

def nodes (q : Queue ν) : List ν := q.outQueue ++ q.inQueue.reverse

def Counted (q : Queue ν) : Prop := q.length = q.nodes.length

variable {q : Queue ν} {node : ν} {rest : List ν}

@[simp] theorem nodes_enqueue (q : Queue ν) (node : ν) :
    (q.enqueue node).nodes = q.nodes ++ [node] := by
  simp [nodes, enqueue]

theorem Counted.enqueue (h : q.Counted) (node : ν) : (q.enqueue node).Counted := by
  rw [Counted, nodes_enqueue, List.length_append]
  show q.length + 1 = _
  rw [h]
  rfl

theorem nodes_transfer (q : Queue ν) : q.transfer.nodes = q.nodes := by
  unfold transfer
  split_ifs with hempty
  · rw [List.isEmpty_iff] at hempty
    simp [nodes, hempty]
  · rfl

theorem outQueue_transfer (h : q.nodes = node :: rest) :
    ∃ next, q.transfer.outQueue = node :: next ∧ next ++ q.transfer.inQueue.reverse = rest := by
  rw [← nodes_transfer] at h
  cases hout : q.transfer.outQueue with
  | nil =>
    have hin : q.transfer.inQueue = [] := by
      unfold transfer at hout ⊢
      split_ifs at hout ⊢ with hempty
      · rfl
      · rw [hout] at hempty
        exact absurd rfl hempty
    simp [nodes, hout, hin] at h
  | cons head next =>
    rw [nodes, hout, List.cons_append, List.cons.injEq] at h
    exact ⟨next, by rw [h.1], h.2⟩

theorem pop_spec (h : q.nodes = node :: rest) :
    q.pop.1 = some node ∧ q.pop.2.nodes = rest ∧ q.pop.2.length = q.length - 1 := by
  obtain ⟨next, hout, hrest⟩ := outQueue_transfer h
  unfold pop
  rw [hout]
  exact ⟨rfl, hrest, rfl⟩

theorem foldl_enqueue_nodes (q : Queue ν) (l : List ν) :
    (l.foldl enqueue q).nodes = q.nodes ++ l := by
  induction l generalizing q with
  | nil => simp
  | cons node l ih => rw [List.foldl_cons, ih, nodes_enqueue, List.append_assoc]; rfl

theorem Counted.foldl_enqueue (h : q.Counted) (l : List ν) : (l.foldl Queue.enqueue q).Counted := by
  induction l generalizing q with
  | nil => exact h
  | cons node l ih => exact ih (h.enqueue node)

end Queue

end Trtp
