import Mathlib.Algebra.Group.Int.Defs
import Mathlib.Algebra.Group.Nat.Defs
import Trtp.Stream.Alone

/-!
# The counter of a stream

`length` is documented as the number of elements.  `stream_pop` decrements it also when it
finds the stream empty, and nothing repairs it afterwards: one such pop and one
`stream_enqueue` leave a node in the stream and a zero in `length`, and a consumer that
waits for the node goes to sleep.

The field is an `int` on which the atomic operations wrap.  `Queue.length` has the value
before wrapping.
-/

namespace Trtp

namespace Queue

variable {ν : Type}

/-- `stream->length`. -/
def lengthField (q : Queue ν) : ℤ := q.length.bmod (2 ^ 32)

/-- `stream_pop` with `wait` set, called by a thread that is alone.  There is no result
when the thread goes to sleep. -/
def popWait (q : Queue ν) : Option (Option ν × Queue ν) :=
  if q.lengthField = 0 then none else some q.pop

theorem pop_length (q : Queue ν) : q.pop.2.length = q.length - 1 := by
  unfold pop
  split <;> rfl

theorem pop_nodes (q : Queue ν) : q.pop.1 = q.nodes.head? ∧ q.pop.2.nodes = q.nodes.tail := by
  cases h : q.nodes with
  | cons node rest =>
    obtain ⟨h₁, h₂, -⟩ := pop_spec h
    exact ⟨h₁, h₂⟩
  | nil =>
    have ht := nodes_transfer q
    rw [h, nodes, List.append_eq_nil_iff] at ht
    unfold pop
    rw [ht.1]
    exact ⟨rfl, by simpa [nodes] using ht⟩

end Queue

namespace Stream

variable {ν : Type}

/-- The steps of `stream_pop` with `wait` set lead to sleep or to what `popWait` computes,
as long as the counter has not wrapped. -/
theorem Alone.popWait {τ : Type} [DecidableEq τ] [DecidableEq ν] {s : State τ ν} {t : τ}
    {q : Queue ν} (h : Alone s t .idle q) (hlow : -2 ^ 31 ≤ q.length) (hhigh : q.length < 2 ^ 31) :
    match q.popWait with
    | none => ∃ s', Runs t (s.goto t (.popLock true)) s' ∧ s'.pc t = .popAsleep ∧ s'.lock = none
    | some (node, q') => ∃ s', Runs t (s.goto t (.popLock true)) s' ∧ Alone s' t .idle q' ∧
        s'.returned t = s.returned t ++ node.toList := by
  have hfield : q.lengthField = q.length := Int.bmod_eq_of_le (by omega) (by omega)
  unfold Queue.popWait
  rw [hfield]
  split_ifs with hzero
  · exact h.sleep hzero
  · exact h.pop fun _ => hzero

/-! ## What a sequence of calls does to the counter -/

/-- The number of nodes enqueued and not yet popped, from `n` on. -/
def held (n : ℕ) : List (Op ν) → ℕ
  | [] => n
  | .enqueue _ :: ops => held (n + 1) ops
  | .pop :: ops => held (n - 1) ops

/-- The number of pops that find the stream empty, when it holds `n` nodes at first. -/
def emptyPops (n : ℕ) : List (Op ν) → ℕ
  | [] => 0
  | .enqueue _ :: ops => emptyPops (n + 1) ops
  | .pop :: ops => emptyPops (n - 1) ops + if n = 0 then 1 else 0

theorem foldl_call_nodes (p : Queue ν × List ν) (ops : List (Op ν)) :
    (ops.foldl call p).1.nodes.length = held p.1.nodes.length ops := by
  induction ops generalizing p with
  | nil => rfl
  | cons op ops ih =>
    rw [List.foldl_cons, ih]
    cases op with
    | enqueue node => simp [call, held]
    | pop => simp [call, held, (Queue.pop_nodes p.1).2]

/-- Every pop on an empty stream leaves the counter one too low. -/
theorem foldl_call_length (p : Queue ν × List ν) (ops : List (Op ν)) :
    (ops.foldl call p).1.length + emptyPops p.1.nodes.length ops =
      held p.1.nodes.length ops + (p.1.length - p.1.nodes.length) := by
  induction ops generalizing p with
  | nil =>
    simp only [List.foldl_nil, held, emptyPops]
    omega
  | cons op ops ih =>
    have h := ih (call p op)
    rw [List.foldl_cons]
    cases op with
    | enqueue node =>
      have hlen : (call p (.enqueue node)).1.length = p.1.length + 1 := rfl
      have hnodes : (call p (.enqueue node)).1.nodes.length = p.1.nodes.length + 1 := by
        simp [call]
      rw [hnodes, hlen] at h
      simp only [held, emptyPops]
      omega
    | pop =>
      have hlen : (call p .pop).1.length = p.1.length - 1 := Queue.pop_length p.1
      have hnodes : (call p .pop).1.nodes.length = p.1.nodes.length - 1 := by
        simp [call, (Queue.pop_nodes p.1).2]
      rw [hnodes, hlen] at h
      simp only [held, emptyPops]
      split <;> omega

/-- The field has the right value exactly when a multiple of `2^32` is missing from the
counter and the number fits an `int`. -/
theorem bmod_sub_eq_iff (n e : ℕ) :
    ((n : ℤ) - e).bmod (2 ^ 32) = n ↔ e % 2 ^ 32 = 0 ∧ n < 2 ^ 31 := by
  rw [Int.bmod_eq_iff (by decide)]
  constructor
  · rintro ⟨-, hlt, hdvd⟩
    constructor <;> omega
  · rintro ⟨he, hn⟩
    refine ⟨by omega, by omega, by omega⟩

/-- What is promised of a stream that holds `n` nodes: the counter says so, and a consumer
that waits for a node gets one without going to sleep. -/
def CountsRight (q : Queue ν) (n : ℕ) : Prop :=
  q.lengthField = n ∧ (0 < n → ∃ node q', q.popWait = some (some node, q'))

/-- The counter is right exactly when no pop found the stream empty, or so many did that
the counter has wrapped back, and the stream holds less than `2^31` nodes. -/
theorem countsRight_iff (ops : List (Op ν)) :
    CountsRight (ops.foldl call (.empty, [])).1 (held 0 ops) ↔
      emptyPops 0 ops % 2 ^ 32 = 0 ∧ held 0 ops < 2 ^ 31 := by
  set q := (ops.foldl call (.empty, [])).1 with hq
  have hnodes : q.nodes.length = held 0 ops := foldl_call_nodes (.empty, []) ops
  have hlength : q.length = (held 0 ops : ℤ) - emptyPops 0 ops := by
    have h := foldl_call_length (.empty, []) ops
    have h0 : (Queue.empty : Queue ν).nodes.length = 0 := rfl
    have hl : (Queue.empty : Queue ν).length = 0 := rfl
    simp only [h0, hl, ← hq] at h
    omega
  have hfield : q.lengthField = held 0 ops ↔
      emptyPops 0 ops % 2 ^ 32 = 0 ∧ held 0 ops < 2 ^ 31 := by
    rw [Queue.lengthField, hlength]
    exact bmod_sub_eq_iff _ _
  rw [← hfield, CountsRight, and_iff_left_iff_imp]
  intro hright hpos
  obtain ⟨node, rest, hn⟩ := List.exists_cons_of_length_pos (hnodes ▸ hpos)
  refine ⟨node, q.pop.2, ?_⟩
  have hne : q.lengthField ≠ 0 := by omega
  rw [Queue.popWait, if_neg hne, ← (Queue.pop_spec hn).1]

/-- A pop on the empty stream, then one node: `length` is zero and a consumer that waits
goes to sleep. -/
theorem not_countsRight_emptyPop :
    let q : Queue ℕ := ([.pop, .enqueue 7].foldl call (.empty, [])).1
    q.nodes = [7] ∧ q.lengthField = 0 ∧ q.popWait = none ∧
      ¬ CountsRight q (held 0 [.pop, .enqueue 7]) := by
  refine ⟨rfl, rfl, rfl, fun h => ?_⟩
  exact absurd h.1 (by decide)

end Stream

end Trtp
