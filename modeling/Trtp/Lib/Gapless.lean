import Mathlib.Data.List.Basic
import Mathlib.Data.Option.Basic

/-!
# Gapless runs

A buffer that releases its contents in order is a partial function on positions.
What it can release is the run of consecutive positions from the first one on at
which it is defined, cut after a value that closes the run.  `gapless` is that
run, with a bound on its length.

The facts below say where the run ends, that it depends only on the positions it
looks at, and how it continues when the buffer is filled further
(`gapless_extend`): filling never changes what was released before, and what is
released afterwards starts where the previous run ended.
-/

namespace Trtp.Lib

variable {α β : Type*}

/-- The values of `f` at `i`, `i + 1`, ..., up to the first gap, up to and with
the first value that satisfies `stop`, and at most `n` of them. -/
def gapless (f : ℕ → Option α) (stop : α → Bool) : ℕ → ℕ → List α
  | 0, _ => []
  | n + 1, i =>
    match f i with
    | none => []
    | some a => if stop a then [a] else a :: gapless f stop n (i + 1)

variable {f g : ℕ → Option α} {stop : α → Bool}

@[simp] theorem gapless_zero (i : ℕ) : gapless f stop 0 i = [] := rfl

theorem gapless_none {i : ℕ} (h : f i = none) (n : ℕ) : gapless f stop n i = [] := by
  cases n with
  | zero => rfl
  | succ n => simp [gapless, h]

theorem gapless_stop {i : ℕ} {a : α} (h : f i = some a) (hs : stop a = true) (n : ℕ) :
    gapless f stop (n + 1) i = [a] := by
  simp [gapless, h, hs]

theorem gapless_cons {i : ℕ} {a : α} (h : f i = some a) (hs : stop a = false) (n : ℕ) :
    gapless f stop (n + 1) i = a :: gapless f stop n (i + 1) := by
  simp [gapless, h, hs]

theorem gapless_length_le (n i : ℕ) : (gapless f stop n i).length ≤ n := by
  induction n generalizing i with
  | zero => exact Nat.le_refl 0
  | succ n ih =>
    cases h : f i with
    | none => simp [gapless_none h]
    | some a =>
      cases hs : stop a with
      | true => simp [gapless_stop h hs]
      | false =>
        rw [gapless_cons h hs, List.length_cons]
        exact Nat.succ_le_succ (ih (i + 1))

theorem gapless_getElem? {n i j : ℕ} (hj : j < (gapless f stop n i).length) :
    (gapless f stop n i)[j]? = f (i + j) := by
  induction n generalizing i j with
  | zero => exact absurd hj (Nat.not_lt_zero j)
  | succ n ih =>
    cases h : f i with
    | none => simp [gapless_none h] at hj
    | some a =>
      cases hs : stop a with
      | true =>
        rw [gapless_stop h hs] at hj ⊢
        obtain rfl : j = 0 := by simpa using hj
        simp [h]
      | false =>
        rw [gapless_cons h hs] at hj ⊢
        cases j with
        | zero => simp [h]
        | succ j =>
          rw [List.getElem?_cons_succ, ih (by simpa using hj)]
          congr 1
          omega

theorem gapless_end {n i : ℕ} (hn : (gapless f stop n i).length < n)
    (hs : (gapless f stop n i).any stop = false) :
    f (i + (gapless f stop n i).length) = none := by
  induction n generalizing i with
  | zero => exact absurd hn (Nat.not_lt_zero _)
  | succ n ih =>
    cases h : f i with
    | none => simpa [gapless_none h] using h
    | some a =>
      cases ha : stop a with
      | true => simp [gapless_stop h ha, ha] at hs
      | false =>
        rw [gapless_cons h ha] at hn hs ⊢
        have := ih (i := i + 1) (by simpa using hn) (by simpa [ha] using hs)
        rw [List.length_cons]
        convert this using 2
        omega

/-- Only the last value of a run can close it. -/
theorem gapless_stop_last {n i j : ℕ} {a : α} (ha : (gapless f stop n i)[j]? = some a)
    (hs : stop a = true) : j + 1 = (gapless f stop n i).length := by
  induction n generalizing i j with
  | zero => simp at ha
  | succ n ih =>
    cases h : f i with
    | none => simp [gapless_none h] at ha
    | some b =>
      cases hb : stop b with
      | true =>
        rw [gapless_stop h hb] at ha ⊢
        obtain ⟨hj, -⟩ := List.getElem?_eq_some_iff.mp ha
        rw [List.length_singleton] at hj ⊢
        omega
      | false =>
        rw [gapless_cons h hb] at ha ⊢
        cases j with
        | zero =>
          obtain rfl : b = a := by simpa using ha
          rw [hb] at hs
          cases hs
        | succ j =>
          rw [List.getElem?_cons_succ] at ha
          rw [List.length_cons, ih ha]

theorem gapless_eq_nil_iff {n i : ℕ} (hn : 0 < n) : gapless f stop n i = [] ↔ f i = none := by
  obtain ⟨n, rfl⟩ : ∃ m, n = m + 1 := ⟨n - 1, by omega⟩
  cases h : f i with
  | none => simp [gapless_none h]
  | some a =>
    cases hs : stop a with
    | true => simp [gapless_stop h hs]
    | false => simp [gapless_cons h hs]

theorem gapless_congr {n i : ℕ} (h : ∀ j, i ≤ j → j < i + n → f j = g j) :
    gapless f stop n i = gapless g stop n i := by
  induction n generalizing i with
  | zero => rfl
  | succ n ih =>
    have hi := h i (Nat.le_refl i) (by omega)
    have := ih (i := i + 1) (fun j h1 h2 => h j (by omega) (by omega))
    simp only [gapless, hi, this]

theorem gapless_shift (n i d : ℕ) :
    gapless (fun j => f (j + d)) stop n i = gapless f stop n (i + d) := by
  induction n generalizing i with
  | zero => rfl
  | succ n ih =>
    have : i + 1 + d = i + d + 1 := by omega
    simp only [gapless, ih, this]

theorem gapless_map (φ : α → β) (stop : β → Bool) (n i : ℕ) :
    gapless (fun j => (f j).map φ) stop n i = (gapless f (stop ∘ φ) n i).map φ := by
  induction n generalizing i with
  | zero => rfl
  | succ n ih =>
    cases h : f i with
    | none => simp [gapless_none, h]
    | some a =>
      cases hs : stop (φ a) with
      | true => simp [gapless, h, hs]
      | false => simp [gapless, h, hs, ih]

theorem gapless_bound {n m i : ℕ} (hnm : n ≤ m) (h : f (i + n) = none) :
    gapless f stop m i = gapless f stop n i := by
  induction n generalizing i m with
  | zero => exact gapless_none (by simpa using h) m
  | succ n ih =>
    obtain ⟨m, rfl⟩ : ∃ k, m = k + 1 := ⟨m - 1, by omega⟩
    have := ih (m := m) (i := i + 1) (by omega) (by rw [← h]; congr 1; omega)
    simp only [gapless, this]

/-- An open run continues where it ended when the buffer is filled further. -/
theorem gapless_extend {n i : ℕ} (hfg : ∀ j a, f j = some a → g j = some a)
    (hs : (gapless f stop n i).any stop = false) :
    gapless g stop n i = gapless f stop n i ++
      gapless g stop (n - (gapless f stop n i).length) (i + (gapless f stop n i).length) := by
  induction n generalizing i with
  | zero => rfl
  | succ n ih =>
    cases h : f i with
    | none => simp [gapless_none h]
    | some a =>
      have hg := hfg i a h
      cases ha : stop a with
      | true => simp [gapless_stop h ha, ha] at hs
      | false =>
        rw [gapless_cons h ha] at hs ⊢
        rw [gapless_cons hg ha, ih (by simpa [ha] using hs), List.cons_append]
        congr 2
        · rw [List.length_cons]
          congr 1 <;> omega

end Trtp.Lib
