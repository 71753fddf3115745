import Mathlib.Data.List.Basic

/-!
# Runs of a deterministic system

A system with states `σ` that reads inputs `ι` one by one.  A run is a fold of
its step over a list of inputs.  `Along step P s qs` says that every step of the
run satisfies `P`, a condition on the state before the step and the input; it is
how assumptions on an environment are stated, and `Along.invariant` is how they
are used.
-/

namespace Trtp.Lib

variable {σ ι : Type*} (step : σ → ι → σ)

/-- Every input of the run from `s` satisfies `P` in the state it meets. -/
def Along (P : σ → ι → Prop) : σ → List ι → Prop
  | _, [] => True
  | s, q :: qs => P s q ∧ Along P (step s q) qs

instance Along.instDecidable (P : σ → ι → Prop) [∀ s q, Decidable (P s q)] :
    ∀ s qs, Decidable (Along step P s qs)
  | _, [] => .isTrue trivial
  | s, q :: qs =>
    have := Along.instDecidable P (step s q) qs
    inferInstanceAs (Decidable (P s q ∧ Along step P (step s q) qs))

variable {step} {P Q : σ → ι → Prop} {s : σ}

theorem Along.append {xs ys : List ι} :
    Along step P s (xs ++ ys) ↔ Along step P s xs ∧ Along step P (xs.foldl step s) ys := by
  induction xs generalizing s with
  | nil => simp [Along]
  | cons q xs ih => simp [Along, ih, and_assoc]

/-- What holds at the start and is kept by every step that meets the condition
holds at the end. -/
theorem Along.invariant {I : σ → Prop} (hstep : ∀ s q, I s → P s q → I (step s q)) (hs : I s)
    {qs : List ι} (h : Along step P s qs) : I (qs.foldl step s) := by
  induction qs generalizing s with
  | nil => exact hs
  | cons q qs ih => exact ih (hstep s q hs h.1) h.2

/-- A condition that the inputs of the run meet in every state. -/
theorem Along.of_forall {qs : List ι} (h : ∀ q ∈ qs, ∀ s, P s q) : Along step P s qs := by
  induction qs generalizing s with
  | nil => trivial
  | cons q qs ih =>
    exact ⟨h q List.mem_cons_self s, ih fun q' hq' => h q' (List.mem_cons_of_mem q hq')⟩

/-- The condition at one step of the run. -/
theorem Along.step_holds {xs ys : List ι} {q : ι} (h : Along step P s (xs ++ q :: ys)) :
    P (xs.foldl step s) q :=
  (Along.append.mp h).2.1

theorem Along.left {xs ys : List ι} (h : Along step P s (xs ++ ys)) : Along step P s xs :=
  (Along.append.mp h).1

/-- Along a run that keeps an invariant, a condition may use it. -/
theorem Along.strengthen {I : σ → Prop} {qs : List ι}
    (hstep : ∀ s, ∀ q ∈ qs, I s → P s q → Q s q ∧ I (step s q)) (hs : I s)
    (h : Along step P s qs) : Along step Q s qs := by
  induction qs generalizing s with
  | nil => trivial
  | cons q qs ih =>
    obtain ⟨hq, hnext⟩ := hstep s q List.mem_cons_self hs h.1
    exact ⟨hq, ih (fun s q' hq' => hstep s q' (List.mem_cons_of_mem q hq')) hnext h.2⟩

/-- An invariant without a condition on the inputs. -/
theorem foldl_invariant {I : σ → Prop} (hstep : ∀ s q, I s → I (step s q)) (hs : I s)
    (qs : List ι) : I (qs.foldl step s) := by
  induction qs generalizing s with
  | nil => exact hs
  | cons q qs ih => exact ih (hstep s q hs)

/-- The number of inputs of the run that satisfy `P` in the state they meet. -/
def countAlong (step : σ → ι → σ) (P : σ → ι → Prop) [∀ s q, Decidable (P s q)] : σ → List ι → ℕ
  | _, [] => 0
  | s, q :: qs => (if P s q then 1 else 0) + countAlong step P (step s q) qs

/-- If a measure never sinks, and rises with every input that satisfies `Q` until it has come
to a bound, then it gets as far as there are such inputs. -/
theorem Along.progress [∀ s q, Decidable (Q s q)] {I : σ → Prop} {m : σ → ℕ} {b : ℕ}
    (hstep : ∀ s q, I s → P s q → I (step s q))
    (hmono : ∀ s q, I s → P s q → m s ≤ m (step s q))
    (hrise : ∀ s q, I s → P s q → Q s q → m s < b → m s < m (step s q))
    (hs : I s) {qs : List ι} (h : Along step P s qs) :
    min b (m s + countAlong step Q s qs) ≤ m (qs.foldl step s) := by
  induction qs generalizing s with
  | nil => exact Nat.min_le_right _ _
  | cons q qs ih =>
    have hrest := ih (hstep s q hs h.1) h.2
    have hle := hmono s q hs h.1
    rw [countAlong, List.foldl_cons]
    split_ifs with hq
    · have hlt := hrise s q hs h.1 hq
      omega
    · omega

/-- `Along` for a step that may fail: the run ends where it does. -/
def AlongE {ε : Type*} (step : σ → ι → Except ε σ) (P : σ → ι → Prop) : σ → List ι → Prop
  | _, [] => True
  | s, q :: qs => P s q ∧ ∀ s', step s q = .ok s' → AlongE step P s' qs

/-- An invariant of a run that does not fail, with the number of its steps. -/
theorem foldlM_invariant {ε : Type*} {step : σ → ι → Except ε σ} {I : ℕ → σ → Prop}
    (hstep : ∀ n s q s', I n s → step s q = .ok s' → I (n + 1) s') {s s' : σ} {n : ℕ} (hs : I n s)
    {qs : List ι} (h : qs.foldlM step s = .ok s') : I (n + qs.length) s' := by
  induction qs generalizing s n with
  | nil =>
    rw [← Except.ok.inj h]
    exact hs
  | cons q qs ih =>
    rw [List.foldlM_cons] at h
    cases hq : step s q with
    | error e =>
      rw [hq] at h
      cases h
    | ok t =>
      rw [hq] at h
      have ht := ih (hstep n s q t hs hq) h
      rwa [Nat.add_assoc, Nat.add_comm 1] at ht

/-! ## Step relations -/

/-- The states reached from a start by steps that all meet `P`, a condition on the state
before the step and on who takes it. -/
inductive ReachBy (start : σ → Prop) (step : σ → ι → σ → Prop) (P : σ → ι → Prop) : σ → Prop
  | start {s : σ} (h : start s) : ReachBy start step P s
  | step {s s' : σ} {a : ι} (h : ReachBy start step P s) (hp : P s a) (hs : step s a s') :
    ReachBy start step P s'

/-- What holds at the start and is kept by every step that meets the condition holds in
every state reached. -/
theorem ReachBy.invariant {start : σ → Prop} {step : σ → ι → σ → Prop} {P : σ → ι → Prop}
    {I : σ → Prop} (hstart : ∀ s, start s → I s)
    (hstep : ∀ s a s', I s → P s a → step s a s' → I s') {s : σ}
    (h : ReachBy start step P s) : I s := by
  induction h with
  | start h => exact hstart _ h
  | step _ hp hs ih => exact hstep _ _ _ ih hp hs

inductive Steps (step : σ → ι → σ → Prop) : ℕ → σ → σ → Prop
  | refl (s : σ) : Steps step 0 s s
  | cons {n : ℕ} {s s' t : σ} {a : ι} (h : step s a s') (hs : Steps step n s' t) :
    Steps step (n + 1) s t

/-- If every step lowers `work` while `I` holds, and keeps `I`, a run is no longer than the
work it starts with. -/
theorem Steps.le_work {step : σ → ι → σ → Prop} {I : σ → Prop} (work : σ → ℕ)
    (hstep : ∀ s a s', I s → step s a s' → I s' ∧ work s' < work s) {n : ℕ} {s t : σ} (hs : I s)
    (h : Steps step n s t) : n + work t ≤ work s := by
  induction h with
  | refl s => exact Nat.le_of_eq (Nat.zero_add _)
  | cons h _ ih =>
    obtain ⟨hs', hlt⟩ := hstep _ _ _ hs h
    have := ih hs'
    omega

end Trtp.Lib
