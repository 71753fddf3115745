import Trtp.Server.Nodes

/-!
# From the receivers to the handlers

Receivers and handlers write to requests, and hand them on, without a lock.  It suffices
that every node is in one place: only the receiver that has a node writes to its request, so
that the requests in the streams stay as they were when they were enqueued (`content_eq`).

What handlers pop from a stream is what receivers have enqueued on it, in the same order,
with nothing lost, repeated or changed.  The requests that stop the handlers come after all
of them, for by then the receivers have ended.
-/

namespace Trtp.Nodes

open Lib

variable {c : Config} {s s' : State c} {t : Thread c} {r : Fin c.receiveNum}
  {h : Fin c.handleNum} {j : Fin c.streamCount} {n : ℕ}

/-! ## Who writes to a request -/

@[simp] theorem setContent_self (s : State c) (n : ℕ) (content : Content) :
    (s.setContent n content).content n = content :=
  Function.update_self _ _ _

@[simp] theorem allocate_self (s : State c) (content : Content) :
    (s.allocate content).content s.nextNode = content :=
  Function.update_self _ _ _

/-- The nodes that no receiver has. -/
def State.elsewhere (s : State c) : Multiset ℕ :=
  gather id s.rxToHd + gather HdPc.nodes s.hd + gather id s.hdToRx + (s.freed : Multiset ℕ)

theorem nodes_eq (s : State c) : s.nodes = gather RxPc.nodes s.rx + s.elsewhere := by
  simp only [State.nodes, State.elsewhere, add_assoc]

theorem mem_elsewhere : n ∈ s.elsewhere ↔
    (∃ j, n ∈ s.rxToHd j) ∨ (∃ h, n ∈ (s.hd h).nodes) ∨ (∃ j, n ∈ s.hdToRx j) ∨ n ∈ s.freed := by
  simp only [State.elsewhere, Multiset.mem_add, mem_gather, Multiset.mem_coe, id, or_assoc]

theorem Conserved.nodup (hs : Conserved s) : s.nodes.Nodup := by
  rw [hs]
  exact Multiset.nodup_range _

theorem Conserved.lt (hs : Conserved s) (hn : n ∈ s.nodes) : n < s.nextNode := by
  rw [hs] at hn
  exact Multiset.mem_range.mp hn

theorem mem_nodes_of_rx (hn : n ∈ (s.rx r).nodes) : n ∈ s.nodes := by
  rw [nodes_eq]
  exact Multiset.mem_add.mpr (.inl (mem_gather.mpr ⟨r, hn⟩))

theorem Conserved.not_held (hs : Conserved s) (hn : n ∈ s.elsewhere) : n ∉ (s.rx r).nodes := by
  intro hrx
  have hnodup := hs.nodup
  rw [nodes_eq, Multiset.nodup_add] at hnodup
  exact Multiset.disjoint_left.mp hnodup.2.2 (mem_gather.mpr ⟨r, hrx⟩) hn

theorem Conserved.holder (hs : Conserved s) {r' : Fin c.receiveNum} (hn : n ∈ (s.rx r).nodes)
    (hn' : n ∈ (s.rx r').nodes) : r = r' := by
  have hnodup := hs.nodup
  rw [nodes_eq, Multiset.nodup_add] at hnodup
  exact eq_of_mem_gather hnodup.1 hn hn'

/-- A step changes the request of a node only if it is made by the receiver that has it. -/
theorem Conserved.content_step (hs : Conserved s) (hstep : Step s t s') (hn : n ∈ s.nodes)
    (hheld : ∀ r, t = .rx r → n ∉ (s.rx r).nodes) : s'.content n = s.content n := by
  have hnew : n ≠ s.nextNode := Nat.ne_of_lt (hs.lt hn)
  cases hstep with
  | @rx r _ h =>
    have hne : ∀ {m}, m ∈ (s.rx r).nodes → n ≠ m := by
      rintro m hm rfl
      exact hheld r rfl hm
    cases h with
    | allocate => exact Function.update_of_ne hnew _ _
    | allocateNull => exact Function.update_of_ne hnew _ _
    | fill client h =>
      exact Function.update_of_ne (hne (by rw [h]; exact List.mem_singleton_self _)) _ _
    | fillNull client h =>
      exact Function.update_of_ne (hne (by rw [h]; exact List.mem_singleton_self _)) _ _
    | copy d h => exact Function.update_of_ne (hne (by rw [h]; exact List.mem_singleton_self _)) _ _
    | enter => rfl
    | exit => rfl
    | leave => rfl
    | pop => rfl
    | enqueue => rfl
  | hd h => cases h <;> rfl
  | main h =>
    cases h with
    | enqueueStop => exact Function.update_of_ne hnew _ _
    | _ => rfl

theorem Conserved.content_eq (hs : Conserved s) (hstep : Step s t s') (hn : n ∈ s.elsewhere) :
    s'.content n = s.content n := by
  refine hs.content_step hstep ?_ fun r _ => hs.not_held hn
  rw [nodes_eq]
  exact Multiset.mem_add.mpr (.inr hn)

/-! ## The main thread -/

def MainPc.rxJoined (c : Config) : MainPc → ℕ
  | .running => 0
  | .stopRx i => i
  | .joinRx i => i
  | _ => c.receiveNum

def MainPc.hdJoined (c : Config) : MainPc → ℕ
  | .joinHd i => i
  | .deallocRxToHd _ => c.handleNum
  | .deallocHdToRx _ => c.handleNum
  | .done => c.handleNum
  | _ => 0

/-- The stop requests that have been enqueued on `rx_to_hd[j]`. -/
def MainPc.stopsSent (c : Config) (j : ℕ) : MainPc → ℕ
  | .running => 0
  | .stopRx _ => 0
  | .joinRx _ => 0
  | .enqueueStop i k => if j < k then i + 1 else i
  | _ => c.handleNum

def MainPc.InRange (c : Config) : MainPc → Prop
  | .running => True
  | .stopRx i => i ≤ c.receiveNum
  | .joinRx i => i < c.receiveNum
  | .enqueueStop i j => i ≤ c.handleNum ∧ j ≤ c.streamCount ∧ (i = c.handleNum → j = 0)
  | .joinHd i => i ≤ c.handleNum
  | .deallocRxToHd j => j ≤ c.streamCount
  | .deallocHdToRx j => j ≤ c.streamCount
  | .done => True

/-- What the main thread relies on: the threads that it has joined have ended. -/
structure Phase (s : State c) : Prop where
  inRange : s.main.InRange c
  flag : ∀ i (hi : i < c.receiveNum), s.main = .joinRx i → s.stop ⟨i, hi⟩ = true
  rx : ∀ r : Fin c.receiveNum, r.val < s.main.rxJoined c → s.rx r = .exited
  hd : ∀ h : Fin c.handleNum, h.val < s.main.hdJoined c → s.hd h = .exited

theorem Initial.phase (hs : Initial s) : Phase s := by
  refine ⟨?_, ?_, ?_, ?_⟩
  · rw [hs.main]
    trivial
  · intro i hi h
    rw [hs.main] at h
    cases h
  · intro r hr
    rw [hs.main] at hr
    exact absurd hr (Nat.not_lt_zero _)
  · intro h hh
    rw [hs.main] at hh
    exact absurd hh (Nat.not_lt_zero _)

theorem RxStep.frame (hstep : RxStep s r s') : s'.hd = s.hd ∧ s'.main = s.main ∧
    s'.stop = s.stop ∧ s'.received = s.received ∧ s'.discarded = s.discarded := by
  cases hstep <;> exact ⟨rfl, rfl, rfl, rfl, rfl⟩

theorem RxStep.rx (hstep : RxStep s r s') :
    s.rx r ≠ .exited ∧ ∃ pc, s'.rx = Function.update s.rx r pc := by
  cases hstep with
  | enter h => exact ⟨by rw [h]; decide, _, rfl⟩
  | exit h => exact ⟨by rw [h]; decide, _, rfl⟩
  | leave h => exact ⟨by rw [h]; decide, _, rfl⟩
  | pop h => exact ⟨by rw [h]; decide, _, rfl⟩
  | allocate h => exact ⟨by rw [h]; decide, _, rfl⟩
  | allocateNull h => exact ⟨by rw [h]; decide, _, rfl⟩
  | fill _ h => exact ⟨by rw [h]; exact RxPc.noConfusion, _, rfl⟩
  | fillNull _ h => exact ⟨by rw [h]; exact RxPc.noConfusion, _, rfl⟩
  | copy _ h => exact ⟨by rw [h]; exact RxPc.noConfusion, _, (Function.update_eq_self r s.rx).symm⟩
  | enqueue h => exact ⟨by rw [h]; exact RxPc.noConfusion, _, rfl⟩

theorem HdStep.frame (hstep : HdStep s h s') : s'.rx = s.rx ∧ s'.main = s.main ∧
    s'.stop = s.stop ∧ s'.sent = s.sent ∧ s'.discarded = s.discarded ∧ s'.content = s.content := by
  cases hstep <;> exact ⟨rfl, rfl, rfl, rfl, rfl, rfl⟩

theorem HdStep.hd (hstep : HdStep s h s') :
    s.hd h ≠ .exited ∧ ∃ pc, s'.hd = Function.update s.hd h pc := by
  cases hstep with
  | pop hpc => exact ⟨by rw [hpc]; decide, _, rfl⟩
  | recycle hpc => exact ⟨by rw [hpc]; exact HdPc.noConfusion, _, rfl⟩
  | freeNull hpc => exact ⟨by rw [hpc]; exact HdPc.noConfusion, _, rfl⟩
  | exit hpc => exact ⟨by rw [hpc]; exact HdPc.noConfusion, _, rfl⟩

theorem MainStep.frame (hstep : MainStep s s') : s'.rx = s.rx ∧ s'.hd = s.hd ∧
    s'.sent = s.sent ∧ s'.received = s.received := by
  cases hstep <;> exact ⟨rfl, rfl, rfl, rfl⟩

theorem Step.rx_exited (hstep : Step s t s') (hr : s.rx r = .exited) : s'.rx r = .exited := by
  cases hstep with
  | @rx r' _ h =>
    obtain ⟨hne, pc, hpc⟩ := h.rx
    have hother : r ≠ r' := by
      rintro rfl
      exact hne hr
    rw [hpc, Function.update_of_ne hother]
    exact hr
  | hd h =>
    rw [h.frame.1]
    exact hr
  | main h =>
    rw [h.frame.1]
    exact hr

theorem Step.hd_exited (hstep : Step s t s') (hh : s.hd h = .exited) : s'.hd h = .exited := by
  cases hstep with
  | rx hs =>
    rw [hs.frame.1]
    exact hh
  | @hd h' _ hs =>
    obtain ⟨hne, pc, hpc⟩ := hs.hd
    have hother : h ≠ h' := by
      rintro rfl
      exact hne hh
    rw [hpc, Function.update_of_ne hother]
    exact hh
  | main hs =>
    rw [hs.frame.2.1]
    exact hh

theorem Phase.keep (hs : Phase s) (hstep : Step s t s') (hmain : s'.main = s.main)
    (hstop : s'.stop = s.stop) : Phase s' := by
  refine ⟨?_, ?_, ?_, ?_⟩
  · rw [hmain]
    exact hs.inRange
  · intro i hi h
    rw [hstop]
    exact hs.flag i hi (hmain ▸ h)
  · intro r hr
    exact hstep.rx_exited (hs.rx r (hmain ▸ hr))
  · intro h hh
    exact hstep.hd_exited (hs.hd h (hmain ▸ hh))

theorem Phase.mainStep (hs : Phase s) (hstep : MainStep s s') : Phase s' := by
  have hin := hs.inRange
  obtain ⟨hrx', hhd', -, -⟩ := hstep.frame
  -- a step that joins nobody and leaves no flag to be set
  have hgo : s'.main.InRange c → (∀ i, s'.main ≠ .joinRx i) →
      s'.main.rxJoined c = s.main.rxJoined c → s'.main.hdJoined c = s.main.hdJoined c →
      Phase s' := by
    intro hrange hjoin hrx hhd
    refine ⟨hrange, fun i _ h => absurd h (hjoin i), fun r hr => ?_, fun h hh => ?_⟩
    · rw [hrx']
      exact hs.rx r (hrx ▸ hr)
    · rw [hhd']
      exact hs.hd h (hhd ▸ hh)
  cases hstep with
  | sigint h =>
    rw [h] at hgo hin
    exact hgo (Nat.zero_le _) (fun _ => MainPc.noConfusion) rfl rfl
  | @stopRx i h hi =>
    refine ⟨hi, ?_, ?_, fun h hh => absurd hh (Nat.not_lt_zero _)⟩
    · intro k hk hjoin
      cases MainPc.joinRx.inj hjoin
      exact Function.update_self _ _ _
    · intro r hr
      exact hs.rx r (by rw [h]; exact hr)
  | @joinRx i h hi hexit =>
    refine ⟨hi, fun _ _ h => MainPc.noConfusion h, ?_, fun h hh => absurd hh (Nat.not_lt_zero _)⟩
    intro r hr
    rcases Nat.lt_or_eq_of_le (Nat.le_of_lt_succ hr) with hlt | heq
    · exact hs.rx r (by rw [h]; exact hlt)
    · have : r = ⟨i, hi⟩ := Fin.ext heq
      rw [this]
      exact hexit
  | @rxJoined i h hi =>
    rw [h] at hin
    have hall : i = c.receiveNum := Nat.le_antisymm hin (Nat.le_of_not_lt hi)
    rw [h] at hgo
    exact hgo ⟨Nat.zero_le _, Nat.zero_le _, fun _ => rfl⟩ (fun _ => MainPc.noConfusion) hall.symm
      rfl
  | @enqueueStop i k h hi hj =>
    rw [h] at hgo hin
    exact hgo ⟨hin.1, hj, fun heq => absurd heq (Nat.ne_of_lt hi)⟩ (fun _ => MainPc.noConfusion)
      rfl rfl
  | @nextHd i k h hi hj =>
    rw [h] at hgo
    exact hgo ⟨hi, Nat.zero_le _, fun _ => rfl⟩ (fun _ => MainPc.noConfusion) rfl rfl
  | stopsSent h hi =>
    rw [h] at hgo
    exact hgo (Nat.zero_le _) (fun _ => MainPc.noConfusion) rfl rfl
  | @joinHd i h hi hexit =>
    refine ⟨hi, fun _ _ h => MainPc.noConfusion h, ?_, ?_⟩
    · intro r hr
      exact hs.rx r (by rw [h]; exact hr)
    · intro k hk
      rcases Nat.lt_or_eq_of_le (Nat.le_of_lt_succ hk) with hlt | heq
      · exact hs.hd k (by rw [h]; exact hlt)
      · have : k = ⟨i, hi⟩ := Fin.ext heq
        rw [this]
        exact hexit
  | @hdJoined i h hi =>
    rw [h] at hin
    have hall : i = c.handleNum := Nat.le_antisymm hin (Nat.le_of_not_lt hi)
    rw [h] at hgo
    exact hgo (Nat.zero_le _) (fun _ => MainPc.noConfusion) rfl hall.symm
  | freeRxToHd h hj hqueue => exact hs.keep (.main (.freeRxToHd h hj hqueue)) rfl rfl
  | nextRxToHd h hj =>
    rw [h] at hgo
    exact hgo hj (fun _ => MainPc.noConfusion) rfl rfl
  | rxToHdFreed h =>
    rw [h] at hgo
    exact hgo (Nat.zero_le _) (fun _ => MainPc.noConfusion) rfl rfl
  | freeHdToRx h hj hqueue => exact hs.keep (.main (.freeHdToRx h hj hqueue)) rfl rfl
  | nextHdToRx h hj =>
    rw [h] at hgo
    exact hgo hj (fun _ => MainPc.noConfusion) rfl rfl
  | hdToRxFreed h =>
    rw [h] at hgo
    exact hgo trivial (fun _ => MainPc.noConfusion) rfl rfl

theorem Phase.step (hs : Phase s) (hstep : Step s t s') : Phase s' := by
  cases hstep with
  | rx h => exact hs.keep (.rx h) h.frame.2.1 h.frame.2.2.1
  | hd h => exact hs.keep (.hd h) h.frame.2.1 h.frame.2.2.1
  | main h => exact hs.mainStep h

/-- While there is a receiver, no handler is told to stop. -/
theorem Phase.stopsSent_eq_zero (hs : Phase s) (hr : s.rx r ≠ .exited) :
    s.main.stopsSent c j = 0 := by
  have hnot : ¬ r.val < s.main.rxJoined c := fun hlt => hr (hs.rx r hlt)
  cases hmain : s.main with
  | running => rfl
  | stopRx i => rfl
  | joinRx i => rfl
  | _ =>
    rw [hmain] at hnot
    exact absurd r.isLt hnot

/-- While there is a handler, `dealloc_stream` has not been called. -/
theorem Phase.hdJoined_lt (hs : Phase s) (hh : s.hd h ≠ .exited) :
    s.main.hdJoined c < c.handleNum :=
  Nat.lt_of_le_of_lt (Nat.le_of_not_lt fun hlt => hh (hs.hd h hlt)) h.isLt

theorem Phase.hdJoined_le (hs : Phase s) (hstep : Step s t s') :
    s.main.hdJoined c ≤ s'.main.hdJoined c := by
  have hin := hs.inRange
  cases hstep with
  | rx h => rw [h.frame.2.1]
  | hd h => rw [h.frame.2.1]
  | main h =>
    cases h with
    | joinHd h =>
      rw [h]
      exact Nat.le_succ _
    | hdJoined h =>
      rw [h] at hin ⊢
      exact hin
    | freeRxToHd => exact Nat.le_refl _
    | freeHdToRx => exact Nat.le_refl _
    | sigint h | stopRx h | joinRx h | rxJoined h | enqueueStop h | nextHd h | stopsSent h
    | nextRxToHd h | rxToHdFreed h | nextHdToRx h | hdToRxFreed h =>
      rw [h]
      exact Nat.le_refl _

/-! ## The requests in the nodes -/

def Usable (content : Content) : Prop := ∃ req, content = some req ∧ req.stop = false

/-- Handlers send back only nodes with a request, and not those that stop them. -/
structure Contents (s : State c) : Prop where
  pool : ∀ j, ∀ n ∈ s.hdToRx j, Usable (s.content n)
  taken : ∀ r n, s.rx r = .taken n → Usable (s.content n)
  holding : ∀ r n, s.rx r = .holding n → ¬ Stops (s.content n)

theorem Usable.not_stops {content : Content} (h : Usable content) : ¬ Stops content := by
  obtain ⟨req, rfl, hstop⟩ := h
  rintro ⟨req', heq, hstop'⟩
  cases heq
  rw [hstop] at hstop'
  cases hstop'

theorem Initial.contents (hs : Initial s) : Contents s := by
  refine ⟨?_, ?_, ?_⟩
  · intro j n hn
    rw [hs.hdToRx j] at hn
    cases hn
  · intro r n h
    rw [hs.rx r] at h
    cases h
  · intro r n h
    rw [hs.rx r] at h
    cases h

theorem Step.mem_hdToRx (hstep : Step s t s') (hn : n ∈ s'.hdToRx j) :
    n ∈ s.hdToRx j ∨ Usable (s.content n) ∧ ∃ h, n ∈ (s.hd h).nodes := by
  have hpop : ∀ (k : Fin c.streamCount) (m : ℕ) (rest : List ℕ), s.hdToRx k = m :: rest →
      n ∈ Function.update s.hdToRx k rest j → n ∈ s.hdToRx j := by
    intro k m rest hk hn
    by_cases hjk : j = k
    · subst hjk
      rw [Function.update_self] at hn
      rw [hk]
      exact List.mem_cons_of_mem _ hn
    · rwa [Function.update_of_ne hjk] at hn
  cases hstep with
  | rx h =>
    cases h with
    | pop h hpool => exact .inl (hpop _ _ _ hpool hn)
    | _ => exact .inl hn
  | @hd h _ hs =>
    cases hs with
    | @recycle m req hpc hreq hstop =>
      by_cases hj : j = c.handleStreams h
      · subst hj
        simp only [State.hdGoto, State.enqueueHdToRx, Function.update_self, List.mem_append,
          List.mem_singleton] at hn
        rcases hn with hn | rfl
        · exact .inl hn
        · exact .inr ⟨⟨req, hreq, hstop⟩, h, by rw [hpc]; exact List.mem_singleton_self _⟩
      · simp only [State.hdGoto, State.enqueueHdToRx, Function.update_of_ne hj] at hn
        exact .inl hn
    | _ => exact .inl hn
  | main h =>
    cases h with
    | freeHdToRx h hj hqueue => exact .inl (hpop _ _ _ hqueue hn)
    | _ => exact .inl hn

theorem Contents.pool_step (hs : Contents s) (hconserved : Conserved s) (hstep : Step s t s')
    (hn : n ∈ s'.hdToRx j) : Usable (s'.content n) := by
  rcases hstep.mem_hdToRx hn with hn | ⟨husable, h, hh⟩
  · rw [hconserved.content_eq hstep (mem_elsewhere.mpr (.inr (.inr (.inl ⟨j, hn⟩))))]
    exact hs.pool j n hn
  · rwa [hconserved.content_eq hstep (mem_elsewhere.mpr (.inr (.inl ⟨h, hh⟩)))]

theorem Conserved.other (hs : Conserved s) (hstep : Step s t s') {pc : RxPc}
    (hr : s'.rx r = pc) (hne : t ≠ .rx r) (hn : n ∈ pc.nodes) :
    s.rx r = pc ∧ s'.content n = s.content n := by
  have hrx : s.rx r = pc := by
    cases hstep with
    | @rx r' _ h =>
      obtain ⟨-, pc', hpc'⟩ := h.rx
      have hother : r ≠ r' := by
        rintro rfl
        exact hne rfl
      rwa [hpc', Function.update_of_ne hother] at hr
    | hd h => rwa [h.frame.1] at hr
    | main h => rwa [h.frame.1] at hr
  have hheld : n ∈ (s.rx r).nodes := by rwa [hrx]
  refine ⟨hrx, hs.content_step hstep (mem_nodes_of_rx hheld) ?_⟩
  rintro r' rfl hn'
  exact hne (congrArg Thread.rx (hs.holder hn' hheld))

theorem Contents.step (hs : Contents s) (hconserved : Conserved s) (hstep : Step s t s') :
    Contents s' := by
  refine ⟨fun j n hn => hs.pool_step hconserved hstep hn, fun r n hr => ?_, fun r n hr => ?_⟩
  · by_cases ht : t = .rx r
    · subst ht
      cases hstep with
      | rx h =>
        cases h with
        | @pop m rest h hpool =>
          cases RxPc.taken.inj ((Function.update_self r _ s.rx).symm.trans hr)
          exact hs.pool _ _ (by rw [hpool]; exact List.mem_cons_self)
        | allocate h =>
          cases RxPc.taken.inj ((Function.update_self r _ s.rx).symm.trans hr)
          exact ⟨_, allocate_self _ _, rfl⟩
        | copy d h =>
          have := h.symm.trans hr
          cases this
        | _ =>
          have := (Function.update_self r _ s.rx).symm.trans hr
          cases this
    · obtain ⟨hrx, hcontent⟩ := hconserved.other hstep hr ht (List.mem_singleton_self n)
      rw [hcontent]
      exact hs.taken r n hrx
  · by_cases ht : t = .rx r
    · subst ht
      cases hstep with
      | rx h =>
        cases h with
        | allocateNull h =>
          cases RxPc.holding.inj ((Function.update_self r _ s.rx).symm.trans hr)
          rintro ⟨req, hreq, -⟩
          have hnone : (none : Content) = some req := (allocate_self s none).symm.trans hreq
          cases hnone
        | @fill m req client h hreq =>
          cases RxPc.holding.inj ((Function.update_self r _ s.rx).symm.trans hr)
          obtain ⟨req', hreq', hstop⟩ := hs.taken r n h
          cases hreq.symm.trans hreq'
          exact Usable.not_stops ⟨_, setContent_self _ _ _, hstop⟩
        | @fillNull m client h =>
          cases RxPc.holding.inj ((Function.update_self r _ s.rx).symm.trans hr)
          exact Usable.not_stops ⟨_, setContent_self _ _ _, rfl⟩
        | @copy m req req' d h hreq hpush =>
          cases RxPc.holding.inj (h.symm.trans hr)
          rintro ⟨req'', heq, hstop⟩
          cases (setContent_self s n (some req')).symm.trans heq
          rw [(HdReq.push_spec hpush).1] at hstop
          exact hs.holding r n h ⟨req, hreq, hstop⟩
        | _ =>
          have := (Function.update_self r _ s.rx).symm.trans hr
          cases this
    · obtain ⟨hrx, hcontent⟩ := hconserved.other hstep hr ht (List.mem_singleton_self n)
      rw [hcontent]
      exact hs.holding r n hrx

/-! ## A stream to the handlers -/

def State.queued (s : State c) (j : Fin c.streamCount) : List (ℕ × Content) :=
  (s.rxToHd j).map fun n => (n, s.content n)

section

variable (hcontent : ∀ n ∈ s.rxToHd j, s'.content n = s.content n)
include hcontent

theorem queued_keep (h : s'.rxToHd j = s.rxToHd j) : s'.queued j = s.queued j := by
  rw [State.queued, State.queued, h]
  apply List.map_congr_left
  intro n hn
  rw [hcontent n hn]

theorem queued_push {content : Content} (h : s'.rxToHd j = s.rxToHd j ++ [n])
    (hn : s'.content n = content) : s'.queued j = s.queued j ++ [(n, content)] := by
  rw [State.queued, State.queued, h, List.map_append, ← hn]
  congr 1
  apply List.map_congr_left
  intro m hm
  rw [hcontent m hm]

theorem queued_pop {rest : List ℕ} (h : s.rxToHd j = n :: rest) (h' : s'.rxToHd j = rest) :
    s.queued j = (n, s.content n) :: s'.queued j := by
  rw [State.queued, State.queued, h, h', List.map_cons]
  congr 1
  apply List.map_congr_left
  intro m hm
  rw [hcontent m (by rw [h]; exact List.mem_cons_of_mem _ hm)]

end

/-- What a step can do to the stream `rx_to_hd[j]`. -/
inductive StreamStep (s s' : State c) (j : Fin c.streamCount) : Prop
  | quiet (queued : s'.queued j = s.queued j) (sent : s'.sent j = s.sent j)
      (received : s'.received j = s.received j) (discarded : s'.discarded j = s.discarded j)
      (stops : s'.main.stopsSent c j = s.main.stopsSent c j)
  | sent {r : Fin c.receiveNum} {n : ℕ} (h : s.rx r = .holding n) (hj : c.receiveStreams r = j)
      (queued : s'.queued j = s.queued j ++ [(n, s.content n)])
      (sent : s'.sent j = s.sent j ++ [(n, s.content n)])
      (received : s'.received j = s.received j) (discarded : s'.discarded j = s.discarded j)
      (main : s'.main = s.main)
  | stop {n i : ℕ} (h : s.main = .enqueueStop i j)
      (queued : s'.queued j = s.queued j ++ [(n, some stopRequest)])
      (sent : s'.sent j = s.sent j) (received : s'.received j = s.received j)
      (discarded : s'.discarded j = s.discarded j) (main : s'.main = .enqueueStop i (j + 1))
  | received {h : Fin c.handleNum} {n : ℕ} (hpc : s.hd h = .idle) (hj : c.handleStreams h = j)
      (hpc' : s'.hd = Function.update s.hd h (.popped n))
      (queued : s.queued j = (n, s.content n) :: s'.queued j) (sent : s'.sent j = s.sent j)
      (received : s'.received j = s.received j ++ [(n, s.content n)])
      (discarded : s'.discarded j = s.discarded j) (main : s'.main = s.main)
  | discarded {n i : ℕ} (h : s.main = .deallocRxToHd i)
      (queued : s.queued j = (n, s.content n) :: s'.queued j) (sent : s'.sent j = s.sent j)
      (received : s'.received j = s.received j)
      (discarded : s'.discarded j = s.discarded j ++ [(n, s.content n)]) (main : s'.main = s.main)

theorem Conserved.content_queued (hs : Conserved s) (hstep : Step s t s') :
    ∀ n ∈ s.rxToHd j, s'.content n = s.content n := by
  intro n hn
  exact hs.content_eq hstep (mem_elsewhere.mpr (.inl ⟨j, hn⟩))

theorem RxStep.stream (hs : Conserved s) (hstep : RxStep s r s') (j : Fin c.streamCount) :
    StreamStep s s' j := by
  have hcontent : ∀ n ∈ s.rxToHd j, s'.content n = s.content n := hs.content_queued (.rx hstep)
  cases hstep with
  | @enqueue n h =>
    by_cases hj : c.receiveStreams r = j
    · subst hj
      exact .sent h rfl (queued_push hcontent (Function.update_self _ _ _) rfl)
        (Function.update_self _ _ _) rfl rfl rfl
    · have hj' : j ≠ c.receiveStreams r := Ne.symm hj
      exact .quiet (queued_keep hcontent (Function.update_of_ne hj' _ _))
        (Function.update_of_ne hj' _ _) rfl rfl rfl
  | _ => exact .quiet (queued_keep hcontent rfl) rfl rfl rfl rfl

theorem HdStep.stream (hs : Conserved s) (hstep : HdStep s h s') (j : Fin c.streamCount) :
    StreamStep s s' j := by
  have hcontent : ∀ n ∈ s.rxToHd j, s'.content n = s.content n := hs.content_queued (.hd hstep)
  cases hstep with
  | @pop n rest hpc hqueue =>
    by_cases hj : c.handleStreams h = j
    · subst hj
      exact .received hpc rfl rfl (queued_pop hcontent hqueue (Function.update_self _ _ _)) rfl
        (Function.update_self _ _ _) rfl rfl
    · have hj' : j ≠ c.handleStreams h := Ne.symm hj
      exact .quiet (queued_keep hcontent (Function.update_of_ne hj' _ _)) rfl
        (Function.update_of_ne hj' _ _) rfl rfl
  | _ => exact .quiet (queued_keep hcontent rfl) rfl rfl rfl rfl

theorem MainStep.stream (hs : Conserved s) (hphase : Phase s) (hstep : MainStep s s')
    (j : Fin c.streamCount) : StreamStep s s' j := by
  have hcontent : ∀ n ∈ s.rxToHd j, s'.content n = s.content n := hs.content_queued (.main hstep)
  have hin := hphase.inRange
  have hquiet : s'.rxToHd j = s.rxToHd j → s'.discarded j = s.discarded j →
      s'.main.stopsSent c j = s.main.stopsSent c j → StreamStep s s' j := by
    obtain ⟨-, -, hsent, hreceived⟩ := hstep.frame
    intro hqueue hdiscarded hstops
    exact .quiet (queued_keep hcontent hqueue) (by rw [hsent]) (by rw [hreceived]) hdiscarded hstops
  cases hstep with
  | @enqueueStop i k h hi hk =>
    by_cases hj : j.val = k
    · subst hj
      exact .stop h (queued_push hcontent (Function.update_self _ _ _) (allocate_self s _)) rfl rfl
        rfl rfl
    · have hj' : j ≠ ⟨k, hk⟩ := fun heq => hj (congrArg Fin.val heq)
      refine hquiet (Function.update_of_ne hj' _ _) rfl ?_
      rw [h]
      have hiff : j.val < k + 1 ↔ j.val < k := by omega
      simp only [MainPc.stopsSent, hiff]
  | @freeRxToHd k n rest h hk hqueue =>
    by_cases hj : j = ⟨k, hk⟩
    · subst hj
      exact .discarded h (queued_pop hcontent hqueue (Function.update_self _ _ _)) rfl rfl
        (Function.update_self _ _ _) rfl
    · exact hquiet (Function.update_of_ne hj _ _) (Function.update_of_ne hj _ _) rfl
  | freeHdToRx => exact hquiet rfl rfl rfl
  | @nextHd i k h hi hk =>
    refine hquiet rfl rfl ?_
    rw [h]
    have hlt : j.val < k := Nat.lt_of_lt_of_le j.isLt (Nat.le_of_not_lt hk)
    simp only [MainPc.stopsSent, hlt, if_true, Nat.not_lt_zero, if_false]
  | @stopsSent i k h hi =>
    rw [h] at hin
    have hall : i = c.handleNum := Nat.le_antisymm hin.1 (Nat.le_of_not_lt hi)
    refine hquiet rfl rfl ?_
    rw [h, hin.2.2 hall]
    exact hall.symm
  | sigint h | stopRx h | joinRx h | joinHd h | hdJoined h | nextRxToHd h | rxToHdFreed h
  | nextHdToRx h | hdToRxFreed h | rxJoined h =>
    refine hquiet rfl rfl ?_
    rw [h]
    rfl

theorem Step.stream (hs : Conserved s) (hphase : Phase s) (hstep : Step s t s')
    (j : Fin c.streamCount) : StreamStep s s' j := by
  cases hstep with
  | rx h => exact h.stream hs j
  | hd h => exact h.stream hs j
  | main h => exact h.stream hs hphase j

/-! ## Delivery -/

/-- What the handlers have popped, what has been discarded after their end and what is
queued is what the receivers have enqueued, with the requests to stop after it. -/
structure Delivered (s : State c) (j : Fin c.streamCount) : Prop where
  order : ∃ stops, s.received j ++ s.discarded j ++ s.queued j = s.sent j ++ stops ∧
    (∀ e ∈ stops, Stops e.2) ∧ stops.length = s.main.stopsSent c j
  sent : ∀ e ∈ s.sent j, ¬ Stops e.2
  discarded : s.main.hdJoined c < c.handleNum → s.discarded j = []

theorem Initial.delivered (hs : Initial s) (j : Fin c.streamCount) : Delivered s j := by
  refine ⟨⟨[], ?_, ?_, ?_⟩, ?_, fun _ => hs.discarded j⟩
  · rw [State.queued, hs.received j, hs.discarded j, hs.rxToHd j, hs.sent j]
    rfl
  · intro e he
    cases he
  · rw [hs.main]
    rfl
  · intro e he
    rw [hs.sent j] at he
    cases he

theorem Delivered.step (hs : Delivered s j) (hconserved : Conserved s) (hphase : Phase s)
    (hcontents : Contents s) (hstep : Step s t s') : Delivered s' j := by
  have hjoined := hphase.hdJoined_le hstep
  obtain ⟨⟨stops, horder, hstops, hlength⟩, hsent, hdiscarded⟩ := hs
  cases hstep.stream hconserved hphase j with
  | quiet queued sent received discarded hcount =>
    refine ⟨⟨stops, ?_, hstops, ?_⟩, ?_, ?_⟩
    · rw [queued, sent, received, discarded, horder]
    · rw [hlength, hcount]
    · rwa [sent]
    · rw [discarded]
      exact fun hlt => hdiscarded (Nat.lt_of_le_of_lt hjoined hlt)
  | @sent r n hr hj queued sent received discarded main =>
    -- a receiver is running, so that there are no requests to stop yet
    have hzero : s.main.stopsSent c j = 0 :=
      hphase.stopsSent_eq_zero (r := r) (by rw [hr]; exact RxPc.noConfusion)
    have hnil : stops = [] := List.eq_nil_of_length_eq_zero (hlength.trans hzero)
    subst hnil
    refine ⟨⟨[], ?_, hstops, ?_⟩, ?_, ?_⟩
    · rw [queued, sent, received, discarded, List.append_nil, ← List.append_assoc, horder,
        List.append_nil]
    · rw [main, hzero]
      rfl
    · rw [sent]
      intro e he
      rcases List.mem_append.mp he with he | he
      · exact hsent e he
      · rw [List.mem_singleton.mp he]
        exact hcontents.holding r n hr
    · rw [discarded, main]
      exact hdiscarded
  | @stop n i h queued sent received discarded main =>
    refine ⟨⟨stops ++ [(n, some stopRequest)], ?_, ?_, ?_⟩, ?_, ?_⟩
    · rw [queued, sent, received, discarded, ← List.append_assoc, horder, List.append_assoc]
    · intro e he
      rcases List.mem_append.mp he with he | he
      · exact hstops e he
      · rw [List.mem_singleton.mp he]
        exact ⟨stopRequest, rfl, rfl⟩
    · rw [h] at hlength
      simp only [MainPc.stopsSent, Nat.lt_irrefl, if_false] at hlength
      rw [List.length_append, hlength, main]
      simp only [MainPc.stopsSent, Nat.lt_succ_self, if_true]
      rfl
    · rwa [sent]
    · rw [discarded]
      exact fun hlt => hdiscarded (Nat.lt_of_le_of_lt hjoined hlt)
  | @received h n hpc hj hpc' queued sent received discarded main =>
    -- a handler is running, so that nothing has been discarded
    have hnil : s.discarded j = [] :=
      hdiscarded (hphase.hdJoined_lt (h := h) (by rw [hpc]; exact HdPc.noConfusion))
    refine ⟨⟨stops, ?_, hstops, ?_⟩, ?_, ?_⟩
    · rw [sent, received, discarded, ← horder, hnil, queued, List.append_nil, List.append_nil,
        List.append_assoc]
      rfl
    · rw [hlength, main]
    · rwa [sent]
    · rw [discarded, main]
      exact hdiscarded
  | @discarded n i h queued sent received discarded main =>
    refine ⟨⟨stops, ?_, hstops, ?_⟩, ?_, ?_⟩
    · rw [sent, received, discarded, ← horder, queued]
      simp only [List.append_assoc, List.singleton_append]
    · rw [hlength, main]
    · rwa [sent]
    · intro hlt
      rw [main, h] at hlt
      exact absurd hlt (Nat.lt_irrefl _)

/-- A handler works on a request that it has popped, as it was then. -/
def Working (s : State c) : Prop :=
  ∀ h n, s.hd h = .popped n → (n, s.content n) ∈ s.received (c.handleStreams h)

theorem Working.step (hs : Working s) (hconserved : Conserved s) (hstep : Step s t s') :
    Working s' := by
  intro h n hpc
  have hkeep : s.hd h = .popped n →
      s.received (c.handleStreams h) <+: s'.received (c.handleStreams h) →
      (n, s'.content n) ∈ s'.received (c.handleStreams h) := by
    intro hpc hreceived
    have hn : n ∈ s.elsewhere :=
      mem_elsewhere.mpr (.inr (.inl ⟨h, by rw [hpc]; exact List.mem_singleton_self n⟩))
    rw [hconserved.content_eq hstep hn]
    exact hreceived.subset (hs h n hpc)
  cases hstep with
  | rx hs => exact hkeep (by rwa [hs.frame.1] at hpc) (by rw [hs.frame.2.2.2.1])
  | main hs =>
    obtain ⟨-, hhd, -, hreceived⟩ := hs.frame
    exact hkeep (by rwa [hhd] at hpc) (by rw [hreceived])
  | @hd h' _ hs =>
    obtain ⟨-, pc, hpc'⟩ := hs.hd
    by_cases hother : h = h'
    · subst hother
      cases hs with
      | @pop m rest hidle hqueue =>
        cases HdPc.popped.inj ((Function.update_self h _ s.hd).symm.trans hpc)
        show _ ∈ Function.update s.received _ _ _
        rw [Function.update_self]
        exact List.mem_append_right _ (List.mem_singleton_self _)
      | _ =>
        have := (Function.update_self h _ s.hd).symm.trans hpc
        cases this
    · rw [hpc', Function.update_of_ne hother] at hpc
      refine hkeep hpc ?_
      cases hs with
      | pop hidle hqueue =>
        show _ <+: Function.update s.received _ _ _
        by_cases hstream : c.handleStreams h = c.handleStreams h'
        · rw [hstream, Function.update_self]
          exact List.prefix_append _ _
        · rw [Function.update_of_ne hstream]
      | _ => exact List.prefix_rfl

structure Inv (s : State c) : Prop where
  conserved : Conserved s
  phase : Phase s
  contents : Contents s
  delivered : ∀ j, Delivered s j
  working : Working s

theorem Initial.inv (hs : Initial s) : Inv s := by
  refine ⟨hs.conserved, hs.phase, hs.contents, hs.delivered, fun h n hpc => ?_⟩
  rw [hs.hd h] at hpc
  cases hpc

theorem Inv.step (hs : Inv s) (hstep : Step s t s') : Inv s' :=
  ⟨hs.conserved.step hstep, hs.phase.step hstep, hs.contents.step hs.conserved hstep,
    fun j => (hs.delivered j).step hs.conserved hs.phase hs.contents hstep,
    hs.working.step hs.conserved hstep⟩

theorem Reached.inv (hs : Reached s) : Inv s := by
  refine hs.invariant (fun _ h => h.inv) ?_
  intro s t s' h _ hstep
  exact h.step hstep

/-- In every run, what has been popped from a stream to the handlers, and then what is in
it, are the requests that receivers have enqueued, in that order and as they were then, and
after them only requests to stop.  The request that a handler works on is as it was popped. -/
theorem requests_delivered (s : State c) (hs : Reached s) (j : Fin c.streamCount) :
    (∃ stops, s.received j ++ s.discarded j ++ s.queued j = s.sent j ++ stops ∧
      ∀ e ∈ stops, Stops e.2) ∧
    (∀ e ∈ s.sent j, ¬ Stops e.2) ∧
    ∀ h n, c.handleStreams h = j → s.hd h = .popped n → (n, s.content n) ∈ s.received j := by
  obtain ⟨stops, horder, hstops, -⟩ := (hs.inv.delivered j).order
  refine ⟨⟨stops, horder, hstops⟩, (hs.inv.delivered j).sent, ?_⟩
  rintro h n rfl hpc
  exact hs.inv.working h n hpc

/-- The receiver has enqueued a request, and the handler has not popped it yet. -/
theorem requests_delivered_run : ∃ s : State single, Reached s ∧
    s.sent (0 : Fin 1) = [(0, some emptyRequest)] ∧
    ∃ stops, s.received (0 : Fin 1) ++ s.discarded (0 : Fin 1) ++ s.queued (0 : Fin 1) =
      s.sent (0 : Fin 1) ++ stops ∧ ∀ e ∈ stops, Stops e.2 := by
  obtain ⟨s, -, -, ⟨hs, -, -, hsent⟩, -⟩ := run_reached
  exact ⟨s, hs, hsent, (requests_delivered s hs (0 : Fin 1)).1⟩

/-- In every run, a node that a receiver pops has a request, and it does not tell a handler
to stop.  So the branch of `rx_run_once` for a node without content is not taken. -/
theorem recycled_usable (s : State c) (hs : Reached s) :
    (∀ j, ∀ n ∈ s.hdToRx j, Usable (s.content n)) ∧
      ∀ r n, s.rx r = .taken n → Usable (s.content n) :=
  ⟨hs.inv.contents.pool, hs.inv.contents.taken⟩

end Trtp.Nodes
