import Trtp.Stream.Basic
import Trtp.Lib.Tally

/-!
# Lost wake-ups

A producer changes `length` and signals without holding the mutex.  If both fall
between a consumer's test of `length` and its call of `pthread_cond_wait`, nobody is
asleep yet, the signal is lost, and the consumer sleeps on a stream that is not
empty.

The invariant behind the rest: while a consumer sleeps, or is about to, every node
counted by `length` has a producer that is still going to signal or a running
consumer that is still going to take it.  Only a lost signal can break it.
-/

namespace Trtp.Stream

open Lib

variable {τ ν : Type}

namespace Pc

/-- A producer that has counted its node and not signalled yet. -/
def signalling : Pc ν → Bool
  | .enqLoadWaiting | .enqSignal => true
  | _ => false

/-- A consumer that runs and has not counted down `length` yet. -/
def draining : Pc ν → Bool
  | .popLock _ | .popAddWaiting _ | .popLoadLength _ | .popRelock | .popSubWaiting | .popLoadOut
  | .popLoadIn | .popCas _ | .popLoadNext _ | .popReadOut _ _ | .popStoreNext _ _ _
  | .popStoreOut _ _ | .popSubLength => true
  | _ => false

/-- A consumer that counts in `waiting`. -/
def waits : Pc ν → Bool
  | .popLoadLength _ | .popWait | .popAsleep | .popRelock | .popSubWaiting => true
  | _ => false

/-- A consumer that is asleep or has decided to sleep. -/
def sleepy : Pc ν → Bool
  | .popWait | .popAsleep => true
  | _ => false

theorem waits_of_sleepy (pc : Pc ν) (h : pc.sleepy = true) : pc.waits = true := by
  cases pc <;> first | rfl | cases h

end Pc

/-- The state that must not be reached: a consumer sleeps on a stream that is not
empty and nobody else is inside of it. -/
def Hung (s : State τ ν) : Prop :=
  s.length > 0 ∧ (∀ t, s.pc t = .idle ∨ s.pc t = .popAsleep) ∧ ∃ t, s.pc t = .popAsleep

/-- If `t` is about to signal and nobody is asleep, then nobody is between the test of
`length` and `pthread_cond_wait`. -/
def SignalSafe (s : State τ ν) (t : τ) : Prop :=
  s.pc t = .enqSignal → (∀ u, s.pc u ≠ .popAsleep) → ∀ u, s.pc u ≠ .popWait

theorem SignalSafe.of_ne {s : State τ ν} {t : τ} (h : s.pc t ≠ .enqSignal) : SignalSafe s t :=
  fun hs => absurd hs h

variable [Fintype τ]

structure Balanced (s : State τ ν) : Prop where
  waiting : s.waiting = tally Pc.waits s.pc
  length : 0 < tally Pc.sleepy s.pc →
    s.length ≤ tally Pc.signalling s.pc + tally Pc.draining s.pc

theorem balanced_initial (next : ν → Ptr ν) : Balanced (State.initial next : State τ ν) where
  waiting := (tally_eq_zero fun _ => rfl).symm
  length h := absurd h (by rw [tally_eq_zero fun _ => rfl]; decide)

theorem Balanced.not_hung {s : State τ ν} (h : Balanced s) : ¬ Hung s := by
  intro hs
  obtain ⟨hlen, hidle, t, ht⟩ := hs
  have hpos : 0 < tally Pc.sleepy s.pc := tally_pos (i := t) (by rw [ht]; rfl)
  have h1 : tally Pc.signalling s.pc = 0 := by
    apply tally_eq_zero
    intro u
    rcases hidle u with hu | hu <;> rw [hu] <;> rfl
  have h2 : tally Pc.draining s.pc = 0 := by
    apply tally_eq_zero
    intro u
    rcases hidle u with hu | hu <;> rw [hu] <;> rfl
  have := h.length hpos
  omega

variable {s s' : State τ ν} {t : τ} {pc : Pc ν}

theorem Balanced.sleepy_eq_zero (h : Balanced s) (hw : ¬ s.waiting > 0) :
    tally Pc.sleepy s.pc = 0 := by
  have h1 := tally_le Pc.waits_of_sleepy s.pc
  have h2 := tally_nonneg Pc.sleepy s.pc
  have h3 := h.waiting
  omega

variable [DecidableEq τ]

/-- A step that lets `length` grow by no more than it adds to the two tallies. -/
theorem Balanced.move (h : Balanced s) (hpcs : s'.pc = Function.update s.pc t pc)
    (hwaiting : s'.waiting = s.waiting - (s.pc t).waits.toInt + pc.waits.toInt)
    (hlength : s'.length ≤ s.length - (s.pc t).signalling.toInt + pc.signalling.toInt -
      (s.pc t).draining.toInt + pc.draining.toInt)
    (hsleepy : pc.sleepy = true → (s.pc t).sleepy = true) : Balanced s' where
  waiting := by rw [hwaiting, hpcs, tally_update, h.waiting]
  length := by
    intro hpos
    have h3 := tally_update Pc.signalling s.pc t pc
    have h4 := tally_update Pc.draining s.pc t pc
    have h5 := tally_update Pc.sleepy s.pc t pc
    rw [← hpcs] at h3 h4 h5
    have hle : pc.sleepy.toInt ≤ (s.pc t).sleepy.toInt := by
      cases hp : pc.sleepy with
      | false => exact toInt_nonneg _
      | true => rw [hsleepy hp]
    have := h.length (by omega)
    omega

/-- A step after which `length` is not positive. -/
theorem Balanced.rest (h : Balanced s) (hpcs : s'.pc = Function.update s.pc t pc)
    (hwaiting : s'.waiting = s.waiting - (s.pc t).waits.toInt + pc.waits.toInt)
    (hlength : s'.length ≤ 0) : Balanced s' where
  waiting := by rw [hwaiting, hpcs, tally_update, h.waiting]
  length := by
    intro _
    have h1 := tally_nonneg Pc.signalling s'.pc
    have h2 := tally_nonneg Pc.draining s'.pc
    omega

/-- A producer leaves while nobody is asleep. -/
theorem Balanced.leave (h : Balanced s) (hw : (s.pc t).waits = false)
    (hnone : tally Pc.sleepy s.pc = 0) : Balanced (s.goto t .idle) where
  waiting := by
    show s.waiting = tally Pc.waits (Function.update s.pc t .idle)
    rw [tally_update, hw, h.waiting]
    simp [Pc.waits]
  length := by
    intro hpos
    have h1 : tally Pc.sleepy (s.goto t .idle).pc =
        tally Pc.sleepy s.pc - (s.pc t).sleepy.toInt + 0 := tally_update Pc.sleepy s.pc t .idle
    have h2 := toInt_nonneg (s.pc t).sleepy
    omega

/-- The signal of `t` wakes `u`: the node that `t` has counted is now for `u`. -/
theorem Balanced.wake (h : Balanced s) {u : τ} (ht : s.pc t = .enqSignal)
    (hu : s.pc u = .popAsleep) : Balanced ((s.goto t .idle).goto u .popRelock) := by
  have hut : u ≠ t := ne_of_asleep ht hu
  have htally : ∀ p : Pc ν → Bool, tally p ((s.goto t .idle).goto u .popRelock).pc =
      tally p s.pc - (p .enqSignal).toInt + (p .idle).toInt - (p .popAsleep).toInt +
        (p .popRelock).toInt := by
    intro p
    show tally p (Function.update (Function.update s.pc t .idle) u .popRelock) = _
    rw [tally_update, tally_update, Function.update_of_ne hut, ht, hu]
  constructor
  · rw [htally]
    show s.waiting = tally Pc.waits s.pc - 0 + 0 - 1 + 1
    rw [h.waiting]
    omega
  · intro _
    rw [htally, htally]
    show s.length ≤ tally Pc.signalling s.pc - 1 + 0 - 0 + 0 +
      (tally Pc.draining s.pc - 0 + 0 - 0 + 1)
    have := h.length (tally_pos (i := u) (by rw [hu]; rfl))
    omega

variable [DecidableEq ν]

theorem balanced_step (h : Balanced s) (hsafe : SignalSafe s t) (hs : Step s t s') :
    Balanced s' := by
  cases hs with
  | enqLoadWaiting hpc =>
    by_cases hw : s.waiting > 0
    · rw [if_pos hw]
      exact h.move rfl (by simp [hpc, Pc.waits, State.goto])
        (by simp [hpc, Pc.signalling, Pc.draining, State.goto]) (by simp [Pc.sleepy])
    · rw [if_neg hw]
      exact h.leave (by rw [hpc]; rfl) (h.sleepy_eq_zero hw)
  | enqSignal hpc hu => exact h.wake hpc hu
  | enqSignalLost hpc hnone =>
    refine h.leave (by rw [hpc]; rfl) (tally_eq_zero fun u => ?_)
    have h1 := hnone u
    have h2 := hsafe hpc hnone u
    cases hpu : s.pc u <;> first | rfl | contradiction
  | popLoadLength hpc =>
    split
    · rename_i hzero
      exact h.rest rfl (by simp [hpc, Pc.waits, State.goto]) (le_of_eq hzero.2)
    · exact h.move rfl (by simp [hpc, Pc.waits, State.goto])
        (by simp [hpc, Pc.signalling, Pc.draining, State.goto]) (by simp [Pc.sleepy])
  | popLoadOut hpc =>
    split <;> exact h.move rfl (by simp [hpc, Pc.waits, State.goto])
      (by simp [hpc, Pc.signalling, Pc.draining, State.goto]) (by simp [Pc.sleepy])
  | popUnlock hpc =>
    rename_i head
    cases head <;> exact h.move rfl (by simp [hpc, Pc.waits, State.goto])
      (by simp [hpc, Pc.signalling, Pc.draining, State.goto]) (by simp [Pc.sleepy])
  | _ =>
    exact h.move rfl (by simp [*, Pc.waits, State.goto])
      (by simp [*, Pc.signalling, Pc.draining, State.goto]) (by simp [*, Pc.sleepy])

theorem balanced_of_reachable (h : ReachableBy SignalSafe s) : Balanced s := by
  induction h with
  | initial next => exact balanced_initial next
  | step _ hp hs ih => exact balanced_step ih hp hs

/-- In a run in which no signal is sent while a consumer is about to sleep and none is
asleep, no consumer is left asleep on a stream that is not empty. -/
theorem no_lost_wakeUp (s : State τ ν) (h : ReachableBy SignalSafe s) : ¬ Hung s :=
  (balanced_of_reachable h).not_hung

theorem no_lost_wakeUp_oneNode :
    ∃ s : State Bool Unit, ReachableBy SignalSafe s ∧ s.length = 1 ∧ s.pc false = .popRelock ∧
      ¬ Hung s := by
  have h : ReachableBy SignalSafe (State.initial fun _ => .poison : State Bool Unit) := .initial _
  replace h := h.step (.of_ne (by decide)) (.pop (t := false) true rfl)
  replace h := h.step (.of_ne (by decide)) (.popLock (t := false) rfl rfl)
  replace h := h.step (.of_ne (by decide)) (.popAddWaiting (t := false) rfl)
  replace h := h.step (.of_ne (by decide)) (.popLoadLength (t := false) rfl)
  replace h := h.step (.of_ne (by decide)) (.popWait (t := false) rfl)
  replace h := h.step (.of_ne (by decide)) (.enqueue (t := true) () rfl rfl)
  replace h := h.step (.of_ne (by decide)) (.enqLoadIn (t := true) rfl)
  replace h := h.step (.of_ne (by decide)) (.enqStoreNext (t := true) rfl)
  replace h := h.step (.of_ne (by decide)) (.enqCas (t := true) rfl rfl)
  replace h := h.step (.of_ne (by decide)) (.enqAddLength (t := true) rfl)
  replace h := h.step (.of_ne (by decide)) (.enqLoadWaiting (t := true) rfl)
  replace h := h.step (fun _ hn => absurd rfl (hn false))
    (.enqSignal (t := true) (u := false) rfl rfl)
  exact ⟨_, h, rfl, rfl, no_lost_wakeUp _ h⟩

/-- The producer counts its node and signals between the consumer's test of `length`
and its call of `pthread_cond_wait`. -/
theorem lost_wakeUp : ∃ s : State Bool Unit, Reachable s ∧ Hung s := by
  have h : Reachable (State.initial fun _ => .poison : State Bool Unit) := .initial _
  replace h := h.step trivial (.pop (t := false) true rfl)
  replace h := h.step trivial (.popLock (t := false) rfl rfl)
  replace h := h.step trivial (.popAddWaiting (t := false) rfl)
  replace h := h.step trivial (.popLoadLength (t := false) rfl)
  replace h := h.step trivial (.enqueue (t := true) () rfl rfl)
  replace h := h.step trivial (.enqLoadIn (t := true) rfl)
  replace h := h.step trivial (.enqStoreNext (t := true) rfl)
  replace h := h.step trivial (.enqCas (t := true) rfl rfl)
  replace h := h.step trivial (.enqAddLength (t := true) rfl)
  replace h := h.step trivial (.enqLoadWaiting (t := true) rfl)
  replace h := h.step trivial (.enqSignalLost (t := true) rfl (by decide))
  replace h := h.step trivial (.popWait (t := false) rfl)
  refine ⟨_, h, by decide, ?_, false, rfl⟩
  intro t
  cases t with
  | false => exact .inr rfl
  | true => exact .inl rfl

end Trtp.Stream
