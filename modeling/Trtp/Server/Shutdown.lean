import Trtp.Lib.Tally
import Trtp.Server.Delivery

/-!
# The end of the server

`deallocate_everything` stops the receivers one by one, puts `handle_num` requests to stop on
every stream, joins the handlers and frees the streams with the nodes in them.

A handler takes one such request and ends, and the requests are enough: a handler that has
not ended finds a node in its stream, whatever handlers share it (`idle_finds_node`).  So the
threads cannot wait for each other, and once the receivers have ended only finitely many
steps are left.  By then every request from a stream with a handler has been handled, every
node is freed once, and nobody is left to use what has been freed.
-/

namespace Trtp.Nodes

open Lib

variable {c : Config} {s s' : State c} {t : Thread c} {r : Fin c.receiveNum}
  {h : Fin c.handleNum} {j : Fin c.streamCount} {n : ℕ}

/-! ## The requests to stop -/

theorem stops_iff {content : Content} :
    Stops content ↔ (content.any fun req => req.stop) = true := by
  cases content with
  | none =>
    constructor
    · rintro ⟨_, h, -⟩
      cases h
    · exact fun h => by cases h
  | some req =>
    constructor
    · rintro ⟨_, h, hstop⟩
      cases h
      exact hstop
    · exact fun hstop => ⟨req, rfl, hstop⟩

instance (content : Content) : Decidable (Stops content) := decidable_of_iff _ stops_iff.symm

/-- The handler works on the stream and has popped a request to stop. -/
def State.told (s : State c) (j : Fin c.streamCount) (h : Fin c.handleNum) : Bool :=
  decide (c.handleStreams h = j) &&
    match s.hd h with
    | .idle => false
    | .popped n => decide (Stops (s.content n))
    | .exited => true

/-- Each request to stop that has been popped from the stream has told one handler. -/
def Told (s : State c) (j : Fin c.streamCount) : Prop :=
  ((s.received j).countP fun e => decide (Stops e.2) : ℤ) = tally id (s.told j)

theorem Initial.told (hs : Initial s) (j : Fin c.streamCount) : Told s j := by
  have hnone : tally id (s.told j) = 0 := by
    apply tally_eq_zero
    intro h
    rw [State.told, hs.hd h]
    exact Bool.and_false _
  rw [Told, hnone, hs.received j]
  rfl

theorem told_other (hconserved : Conserved s) (hstep : Step s t s') (hhd : s'.hd h = s.hd h) :
    s'.told j h = s.told j h := by
  rw [State.told, State.told, hhd]
  congr 1
  cases hpc : s.hd h with
  | idle => rfl
  | exited => rfl
  | popped n =>
    have hn : n ∈ s.elsewhere :=
      mem_elsewhere.mpr (.inr (.inl ⟨h, by rw [hpc]; exact List.mem_singleton_self n⟩))
    show decide (Stops (s'.content n)) = decide (Stops (s.content n))
    rw [hconserved.content_eq hstep hn]

theorem Told.step (hs : Told s j) (hconserved : Conserved s) (hstep : Step s t s') : Told s' j := by
  -- steps that leave what has been received and what has been told
  have hkeep : s'.received j = s.received j → (∀ h, s'.told j h = s.told j h) → Told s' j := by
    intro hreceived htold
    rw [Told, hreceived, funext htold]
    exact hs
  cases hstep with
  | rx hr =>
    exact hkeep (by rw [hr.frame.2.2.2.1]) fun h =>
      told_other hconserved (.rx hr) (by rw [hr.frame.1])
  | main hm =>
    obtain ⟨-, hhd, -, hreceived⟩ := hm.frame
    exact hkeep (by rw [hreceived]) fun h => told_other hconserved (.main hm) (by rw [hhd])
  | @hd h _ hh =>
    have hothers : ∀ h', h' ≠ h → s'.told j h' = s.told j h' := by
      intro h' hne
      obtain ⟨-, pc, hpc⟩ := hh.hd
      exact told_other hconserved (.hd hh) (by rw [hpc, Function.update_of_ne hne])
    have htold : s'.told j = Function.update (s.told j) h (s'.told j h) := by
      funext h'
      by_cases hne : h' = h
      · rw [hne, Function.update_self]
      · rw [Function.update_of_ne hne, hothers h' hne]
    have hsame : s'.told j h = s.told j h → s'.received j = s.received j → Told s' j := by
      intro heq hreceived
      refine hkeep hreceived fun h' => ?_
      by_cases hne : h' = h
      · rw [hne, heq]
      · exact hothers h' hne
    cases hh with
    | @pop n rest hpc hqueue =>
      by_cases hj : c.handleStreams h = j
      · have hbefore : s.told j h = false := by
          rw [State.told, hpc]
          exact Bool.and_false _
        have hcast : ∀ (a : ℕ) (b : Bool), ((a + if b = true then 1 else 0 : ℕ) : ℤ) =
            (a : ℤ) - (id false).toInt + (id b).toInt := by
          intro a b
          cases b
          · show (a : ℤ) = a - 0 + 0
            omega
          · show ((a + 1 : ℕ) : ℤ) = a - 0 + 1
            omega
        have hcount : ((s.received j).countP fun e => decide (Stops e.2) : ℤ) =
            tally id (s.told j) := hs
        rw [Told, htold, tally_update, hbefore, ← hcount, State.told]
        subst hj
        simp only [State.hdGoto, Function.update_self, List.countP_append, List.countP_singleton,
          decide_true, Bool.true_and]
        exact hcast _ _
      · have hj' : j ≠ c.handleStreams h := Ne.symm hj
        refine hsame ?_ (Function.update_of_ne hj' _ _)
        rw [State.told, State.told]
        simp only [hj, decide_false, Bool.false_and]
    | @recycle n req hpc hreq hstop =>
      refine hsame ?_ rfl
      have hnot : ¬ Stops (s.content n) := Usable.not_stops ⟨req, hreq, hstop⟩
      rw [State.told, State.told, hpc]
      simp only [State.hdGoto, Function.update_self, hnot, decide_false, Bool.and_false]
    | @freeNull n hpc hreq =>
      refine hsame ?_ rfl
      have hnot : ¬ Stops (s.content n) := by
        rintro ⟨req, heq, -⟩
        rw [hreq] at heq
        cases heq
      rw [State.told, State.told, hpc]
      simp only [State.hdGoto, Function.update_self, hnot, decide_false, Bool.and_false]
    | @exit n hpc hstop =>
      refine hsame ?_ rfl
      rw [State.told, State.told, hpc]
      simp only [State.hdGoto, Function.update_self, hstop, decide_true, Bool.and_true]

theorem Reached.told (hs : Reached s) (j : Fin c.streamCount) : Told s j := by
  have hboth : Inv s ∧ Told s j := by
    refine hs.invariant (I := fun s => Inv s ∧ Told s j) (fun _ h => ⟨h.inv, h.told j⟩) ?_
    intro s t s' h _ hstep
    exact ⟨h.1.step hstep, h.2.step h.1.conserved hstep⟩
  exact hboth.2

/-- Of what a handler can pop from its stream, the requests to stop are `handle_num`. -/
theorem Inv.countP_stops (hs : Inv s) (hd : s.discarded j = []) (hq : s.queued j = []) :
    (s.received j).countP (fun e => decide (Stops e.2)) = s.main.stopsSent c j := by
  obtain ⟨stops, horder, hstops, hlength⟩ := (hs.delivered j).order
  rw [hd, hq, List.append_nil, List.append_nil] at horder
  have hnone : (s.sent j).countP (fun e => decide (Stops e.2)) = 0 := by
    rw [List.countP_eq_zero]
    intro e he
    rw [decide_eq_true_eq]
    exact (hs.delivered j).sent e he
  have hall : stops.countP (fun e => decide (Stops e.2)) = stops.length := by
    rw [List.countP_eq_length]
    intro e he
    rw [decide_eq_true_eq]
    exact hstops e he
  rw [horder, List.countP_append, hnone, hall, hlength, Nat.zero_add]

/-- When the requests to stop have been enqueued, a handler that waits for a node finds one. -/
theorem idle_finds_node (hs : Reached s) (hmain : s.main.stopsSent c (c.handleStreams h) =
    c.handleNum) (hpc : s.hd h = .idle) : s.rxToHd (c.handleStreams h) ≠ [] := by
  intro hempty
  have hinv := hs.inv
  have hrunning : s.hd h ≠ .exited := by
    rw [hpc]
    exact HdPc.noConfusion
  have hdiscarded :=
    (hinv.delivered (c.handleStreams h)).discarded (hinv.phase.hdJoined_lt hrunning)
  have hqueued : s.queued (c.handleStreams h) = [] := by
    rw [State.queued, hempty]
    rfl
  have hcount := hs.told (c.handleStreams h)
  rw [Told, hinv.countP_stops hdiscarded hqueued, hmain] at hcount
  have hlt : tally id (s.told (c.handleStreams h)) < Fintype.card (Fin c.handleNum) := by
    apply tally_lt_card (i := h)
    show s.told (c.handleStreams h) h = false
    rw [State.told, hpc]
    exact Bool.and_false _
  rw [← hcount, Fintype.card_fin] at hlt
  exact lt_irrefl _ hlt

/-! ## Nobody waits forever -/

theorem RxStep.progress (hs : Inv s) (hr : s.rx r ≠ .exited) : ∃ s', RxStep s r s' := by
  cases hpc : s.rx r with
  | head =>
    cases hstop : s.stop r with
    | false => exact ⟨_, .enter hpc hstop⟩
    | true => exact ⟨_, .exit hpc hstop⟩
  | inside => exact ⟨_, .leave hpc⟩
  | taken n =>
    obtain ⟨req, hreq, -⟩ := hs.contents.taken r n hpc
    exact ⟨_, .fill 0 hpc hreq⟩
  | holding n => exact ⟨_, .enqueue hpc⟩
  | exited => exact absurd hpc hr

theorem HdStep.progress (hpc : s.hd h = .popped n) : ∃ s', HdStep s h s' := by
  cases hcontent : s.content n with
  | none => exact ⟨_, .freeNull hpc hcontent⟩
  | some req =>
    cases hstop : req.stop with
    | false => exact ⟨_, .recycle hpc hcontent hstop⟩
    | true => exact ⟨_, .exit hpc ⟨req, hcontent, hstop⟩⟩

/-- From SIGINT to the end of `deallocate_everything` a thread can make a step. -/
theorem Step.progress (hs : Reached s) (hrunning : s.main ≠ .running) (hdone : s.main ≠ .done) :
    ∃ t s', Step s t s' := by
  have hmainStep : (∃ s', MainStep s s') → ∃ t s', Step s t s' :=
    fun ⟨s', h⟩ => ⟨.main, s', .main h⟩
  cases hpc : s.main with
  | running => exact absurd hpc hrunning
  | stopRx i =>
    by_cases hi : i < c.receiveNum
    · exact hmainStep ⟨_, .stopRx hpc hi⟩
    · exact hmainStep ⟨_, .rxJoined hpc hi⟩
  | joinRx i =>
    have hi : i < c.receiveNum := by
      have := hs.inv.phase.inRange
      rwa [hpc] at this
    by_cases hexit : s.rx ⟨i, hi⟩ = .exited
    · exact hmainStep ⟨_, .joinRx hpc hi hexit⟩
    · obtain ⟨s', h⟩ := RxStep.progress hs.inv hexit
      exact ⟨_, s', .rx h⟩
  | enqueueStop i k =>
    by_cases hi : i < c.handleNum
    · by_cases hk : k < c.streamCount
      · exact hmainStep ⟨_, .enqueueStop hpc hi hk⟩
      · exact hmainStep ⟨_, .nextHd hpc hi hk⟩
    · exact hmainStep ⟨_, .stopsSent hpc hi⟩
  | joinHd i =>
    by_cases hi : i < c.handleNum
    · cases hhd : s.hd ⟨i, hi⟩ with
      | exited => exact hmainStep ⟨_, .joinHd hpc hi hhd⟩
      | popped n =>
        obtain ⟨s', h⟩ := HdStep.progress hhd
        exact ⟨_, s', .hd h⟩
      | idle =>
        have hne := idle_finds_node hs (by rw [hpc]; rfl) hhd
        obtain ⟨n, rest, hqueue⟩ := List.exists_cons_of_ne_nil hne
        exact ⟨_, _, .hd (.pop hhd hqueue)⟩
    · exact hmainStep ⟨_, .hdJoined hpc hi⟩
  | deallocRxToHd k =>
    by_cases hk : k < c.streamCount
    · cases hqueue : s.rxToHd ⟨k, hk⟩ with
      | nil => exact hmainStep ⟨_, .nextRxToHd hpc hk hqueue⟩
      | cons n rest => exact hmainStep ⟨_, .freeRxToHd hpc hk hqueue⟩
    · exact hmainStep ⟨_, .rxToHdFreed hpc hk⟩
  | deallocHdToRx k =>
    by_cases hk : k < c.streamCount
    · cases hqueue : s.hdToRx ⟨k, hk⟩ with
      | nil => exact hmainStep ⟨_, .nextHdToRx hpc hk hqueue⟩
      | cons n rest => exact hmainStep ⟨_, .freeHdToRx hpc hk hqueue⟩
    · exact hmainStep ⟨_, .hdToRxFreed hpc hk⟩
  | done => exact absurd hpc hdone

def MainPc.Stopping : MainPc → Prop
  | .running => False
  | .stopRx _ => False
  | .joinRx _ => False
  | _ => True

/-- The steps of the main thread that are left, with those on the nodes that it enqueues. -/
def MainPc.rank (c : Config) : MainPc → ℕ
  | .enqueueStop i j =>
    (c.handleNum - i) * (4 * c.streamCount + 1) - 4 * j + c.handleNum + 2 * c.streamCount + 4
  | .joinHd i => c.handleNum - i + 2 * c.streamCount + 3
  | .deallocRxToHd j => c.streamCount - j + c.streamCount + 2
  | .deallocHdToRx j => c.streamCount - j + 1
  | _ => 0

/-- What is left: a node for the handlers is popped, sent back and freed. -/
def State.work (s : State c) : ℕ :=
  s.main.rank c + 3 * (gather id s.rxToHd).card + 2 * (gather HdPc.nodes s.hd).card +
    (gather id s.hdToRx).card

theorem Phase.rxExited (hs : Phase s) (hmain : s.main.Stopping) (r : Fin c.receiveNum) :
    s.rx r = .exited := by
  apply hs.rx
  cases hpc : s.main with
  | running | stopRx | joinRx =>
    rw [hpc] at hmain
    exact hmain.elim
  | _ => exact r.isLt

theorem HdStep.work_lt (hstep : HdStep s h s') : s'.work < s.work := by
  have hmain := hstep.frame.2.1
  have hgain : ∀ (pc : HdPc) (n : ℕ), pc.nodes = [n] → (s.hd h).nodes = [] →
      (gather HdPc.nodes (Function.update s.hd h pc)).card = (gather HdPc.nodes s.hd).card + 1 := by
    intro pc n hpc hnone
    rw [gather_gain (x := n) (by rw [hpc, hnone]), Multiset.card_cons]
  have hlose : ∀ (pc : HdPc) (n : ℕ), (s.hd h).nodes = [n] → pc.nodes = [] →
      (gather HdPc.nodes s.hd).card = (gather HdPc.nodes (Function.update s.hd h pc)).card + 1 := by
    intro pc n hpc hnone
    rw [gather_lose (x := n) (a := pc) (by rw [hpc, hnone]), Multiset.card_cons]
  rw [State.work, State.work, hmain]
  cases hstep with
  | @pop n rest hpc hqueue =>
    have hhd := hgain (.popped n) n rfl (by rw [hpc]; rfl)
    have hstream := congrArg Multiset.card (gather_pop hqueue)
    rw [Multiset.card_cons] at hstream
    simp only [State.hdGoto]
    omega
  | @recycle n req hpc =>
    have hhd := hlose .idle n (by rw [hpc]; rfl) rfl
    have hstream := congrArg Multiset.card (gather_push s.hdToRx (c.handleStreams h) n)
    rw [Multiset.card_cons] at hstream
    simp only [State.hdGoto, State.enqueueHdToRx]
    omega
  | @freeNull n hpc =>
    have hhd := hlose .idle n (by rw [hpc]; rfl) rfl
    simp only [State.hdGoto, State.free]
    omega
  | @exit n hpc =>
    have hhd := hlose .exited n (by rw [hpc]; rfl) rfl
    simp only [State.hdGoto, State.free]
    omega

theorem rank_enqueueStop {i k : ℕ} (hi : i < c.handleNum) (hk : k < c.streamCount) :
    (MainPc.enqueueStop i (k + 1)).rank c + 4 = (MainPc.enqueueStop i k).rank c := by
  obtain ⟨m, hm⟩ := Nat.exists_eq_add_of_lt hi
  have hsub : c.handleNum - i = m + 1 := by omega
  simp only [MainPc.rank, hsub, Nat.add_mul, Nat.one_mul]
  omega

theorem rank_nextHd {i k : ℕ} (hi : i < c.handleNum) (hk : k ≤ c.streamCount)
    (hk' : ¬ k < c.streamCount) :
    (MainPc.enqueueStop (i + 1) 0).rank c < (MainPc.enqueueStop i k).rank c := by
  obtain ⟨m, hm⟩ := Nat.exists_eq_add_of_lt hi
  have hsub : c.handleNum - i = m + 1 := by omega
  have hsub' : c.handleNum - (i + 1) = m := by omega
  simp only [MainPc.rank, hsub, hsub', Nat.add_mul, Nat.one_mul]
  omega

theorem MainStep.work_lt (hphase : Phase s) (hmain : s.main.Stopping) (hstep : MainStep s s') :
    s'.main.Stopping ∧ s'.work < s.work := by
  have hin := hphase.inRange
  cases hstep with
  | sigint h | stopRx h | joinRx h | rxJoined h =>
    rw [h] at hmain
    exact hmain.elim
  | @enqueueStop i k h hi hk =>
    refine ⟨trivial, ?_⟩
    have hstream := congrArg Multiset.card (gather_push s.rxToHd ⟨k, hk⟩ s.nextNode)
    rw [Multiset.card_cons] at hstream
    have hrank := rank_enqueueStop hi hk
    simp only [State.work, State.enqueueRxToHd, State.allocate, State.setContent, h]
    omega
  | @nextHd i k h hi hk =>
    rw [h] at hin
    have hrank := rank_nextHd hi hin.2.1 hk
    refine ⟨trivial, ?_⟩
    simp only [State.work, h]
    omega
  | stopsSent h hi =>
    refine ⟨trivial, ?_⟩
    simp only [State.work, h, MainPc.rank]
    omega
  | joinHd h hi =>
    refine ⟨trivial, ?_⟩
    simp only [State.work, h, MainPc.rank]
    omega
  | hdJoined h hi =>
    refine ⟨trivial, ?_⟩
    simp only [State.work, h, MainPc.rank]
    omega
  | @freeRxToHd k n rest h hk hqueue =>
    refine ⟨hmain, ?_⟩
    have hstream := congrArg Multiset.card (gather_pop hqueue)
    rw [Multiset.card_cons] at hstream
    simp only [State.work, State.free]
    omega
  | nextRxToHd h hk =>
    refine ⟨trivial, ?_⟩
    simp only [State.work, h, MainPc.rank]
    omega
  | rxToHdFreed h hk =>
    refine ⟨trivial, ?_⟩
    simp only [State.work, h, MainPc.rank]
    omega
  | @freeHdToRx k n rest h hk hqueue =>
    refine ⟨hmain, ?_⟩
    have hstream := congrArg Multiset.card (gather_pop hqueue)
    rw [Multiset.card_cons] at hstream
    simp only [State.work, State.free]
    omega
  | nextHdToRx h hk =>
    refine ⟨trivial, ?_⟩
    simp only [State.work, h, MainPc.rank]
    omega
  | hdToRxFreed h hk =>
    refine ⟨trivial, ?_⟩
    simp only [State.work, h, MainPc.rank]
    omega

theorem Phase.work_lt (hs : Phase s) (hmain : s.main.Stopping) (hstep : Step s t s') :
    s'.main.Stopping ∧ s'.work < s.work := by
  cases hstep with
  | rx h => exact absurd (hs.rxExited hmain _) h.rx.1
  | hd h =>
    rw [h.frame.2.1]
    exact ⟨hmain, h.work_lt⟩
  | main h => exact h.work_lt hs hmain

/-- When the receivers have been joined, every continuation of the run ends after at most
`work` steps, whatever the order of the steps is. -/
theorem shutdown_terminates (s : State c) (hs : Reached s) (hmain : s.main.Stopping) {n : ℕ}
    {s' : State c} (hrun : Steps Step n s s') : n ≤ s.work := by
  have hle := hrun.le_work (I := fun s => Phase s ∧ s.main.Stopping) State.work ?_
    ⟨hs.inv.phase, hmain⟩
  · omega
  · intro s t s' h hstep
    obtain ⟨hstopping, hlt⟩ := h.1.work_lt h.2 hstep
    exact ⟨⟨h.1.step hstep, hstopping⟩, hlt⟩

theorem shutdown_terminates_run : ∃ s : State single, Reached s ∧ s.main = .joinHd 0 ∧
    ∀ n s', Steps Step n s s' → n ≤ s.work := by
  obtain ⟨s, -, -, ⟨hs, hmain, -⟩, -⟩ := run_reached
  exact ⟨s, hs, hmain, fun n s' hrun => shutdown_terminates s hs (by rw [hmain]; trivial) hrun⟩

/-! ## What is left behind -/

/-- The streams that `dealloc_stream` has been called for. -/
def MainPc.rxToHdFreed (c : Config) : MainPc → ℕ
  | .deallocRxToHd j => j
  | .deallocHdToRx _ => c.streamCount
  | .done => c.streamCount
  | _ => 0

def MainPc.hdToRxFreed (c : Config) : MainPc → ℕ
  | .deallocHdToRx j => j
  | .done => c.streamCount
  | _ => 0

/-- Nothing is left in a stream that has been freed. -/
structure Emptied (s : State c) : Prop where
  rxToHd : ∀ j : Fin c.streamCount, j.val < s.main.rxToHdFreed c → s.rxToHd j = []
  hdToRx : ∀ j : Fin c.streamCount, j.val < s.main.hdToRxFreed c → s.hdToRx j = []

def MainPc.Freeing : MainPc → Prop
  | .deallocRxToHd _ => True
  | .deallocHdToRx _ => True
  | .done => True
  | _ => False

/-- Once the streams are being freed, no other thread makes a step. -/
theorem Phase.alone (hs : Phase s) (hmain : s.main.Freeing) (hstep : Step s t s') : t = .main := by
  cases hpc : s.main with
  | deallocRxToHd | deallocHdToRx | done =>
    cases hstep with
    | main => rfl
    | @rx r _ h => exact absurd (hs.rx r (by rw [hpc]; exact r.isLt)) h.rx.1
    | @hd h _ hh => exact absurd (hs.hd h (by rw [hpc]; exact h.isLt)) hh.hd.1
  | _ =>
    rw [hpc] at hmain
    exact hmain.elim

theorem freeing_of_rxToHdFreed (h : j.val < s.main.rxToHdFreed c) : s.main.Freeing := by
  cases hpc : s.main with
  | deallocRxToHd | deallocHdToRx | done => trivial
  | _ =>
    rw [hpc] at h
    exact absurd h (Nat.not_lt_zero _)

theorem freeing_of_hdToRxFreed (h : j.val < s.main.hdToRxFreed c) : s.main.Freeing := by
  cases hpc : s.main with
  | deallocRxToHd | deallocHdToRx | done => trivial
  | _ =>
    rw [hpc] at h
    exact absurd h (Nat.not_lt_zero _)

theorem Initial.emptied (hs : Initial s) : Emptied s :=
  ⟨fun j _ => hs.rxToHd j, fun j _ => hs.hdToRx j⟩

theorem update_eq_nil {q : Fin c.streamCount → List ℕ} {k : ℕ} {hk : k < c.streamCount}
    {rest : List ℕ} (hq : q j = []) (hlt : j.val < k) :
    Function.update q ⟨k, hk⟩ rest j = [] := by
  have hne : j ≠ ⟨k, hk⟩ := fun heq => Nat.ne_of_lt hlt (congrArg Fin.val heq)
  rw [Function.update_of_ne hne, hq]

theorem Emptied.mainStep (hs : Emptied s) (hphase : Phase s) (hstep : MainStep s s') :
    Emptied s' := by
  have hin := hphase.inRange
  have hsucc : ∀ {q : Fin c.streamCount → List ℕ} {k : ℕ} (hk : k < c.streamCount),
      (∀ j : Fin c.streamCount, j.val < k → q j = []) → q ⟨k, hk⟩ = [] →
      ∀ j : Fin c.streamCount, j.val < k + 1 → q j = [] := by
    intro q k hk hq hlast j hj
    rcases Nat.lt_or_eq_of_le (Nat.le_of_lt_succ hj) with hlt | heq
    · exact hq j hlt
    · have : j = ⟨k, hk⟩ := Fin.ext heq
      rwa [this]
  obtain ⟨hrxToHd, hhdToRx⟩ := hs
  cases hstep with
  | sigint | stopRx | joinRx | rxJoined | enqueueStop | nextHd | stopsSent | joinHd | hdJoined =>
    exact ⟨fun j hj => absurd hj (Nat.not_lt_zero _), fun j hj => absurd hj (Nat.not_lt_zero _)⟩
  | @freeRxToHd k n rest h hk hqueue =>
    refine ⟨fun j hj => ?_, hhdToRx⟩
    have hlt : j.val < k := by
      have hj' : j.val < s.main.rxToHdFreed c := hj
      rwa [h] at hj'
    exact update_eq_nil (hrxToHd j hj) hlt
  | @nextRxToHd k h hk hqueue =>
    rw [h] at hrxToHd
    exact ⟨hsucc hk hrxToHd hqueue, fun j hj => absurd hj (Nat.not_lt_zero _)⟩
  | @rxToHdFreed k h hk =>
    rw [h] at hrxToHd
    exact ⟨fun j _ => hrxToHd j (Nat.lt_of_lt_of_le j.isLt (Nat.le_of_not_lt hk)),
      fun j hj => absurd hj (Nat.not_lt_zero _)⟩
  | @freeHdToRx k n rest h hk hqueue =>
    refine ⟨hrxToHd, fun j hj => ?_⟩
    have hlt : j.val < k := by
      have hj' : j.val < s.main.hdToRxFreed c := hj
      rwa [h] at hj'
    exact update_eq_nil (hhdToRx j hj) hlt
  | @nextHdToRx k h hk hqueue =>
    rw [h] at hrxToHd hhdToRx
    exact ⟨hrxToHd, hsucc hk hhdToRx hqueue⟩
  | @hdToRxFreed k h hk =>
    rw [h] at hrxToHd hhdToRx
    exact ⟨hrxToHd, fun j _ => hhdToRx j (Nat.lt_of_lt_of_le j.isLt (Nat.le_of_not_lt hk))⟩

theorem Emptied.step (hs : Emptied s) (hphase : Phase s) (hstep : Step s t s') : Emptied s' := by
  have hother : s'.main = s.main → t ≠ .main → Emptied s' := by
    intro hmain ht
    refine ⟨fun j hj => ?_, fun j hj => ?_⟩
    · rw [hmain] at hj
      exact absurd (hphase.alone (freeing_of_rxToHdFreed hj) hstep) ht
    · rw [hmain] at hj
      exact absurd (hphase.alone (freeing_of_hdToRxFreed hj) hstep) ht
  cases hstep with
  | rx h => exact hother h.frame.2.1 fun heq => by cases heq
  | hd h => exact hother h.frame.2.1 fun heq => by cases heq
  | main h => exact hs.mainStep hphase h

theorem Reached.emptied (hs : Reached s) : Emptied s := by
  have hboth : Phase s ∧ Emptied s := by
    refine hs.invariant (I := fun s => Phase s ∧ Emptied s) (fun _ h => ⟨h.phase, h.emptied⟩) ?_
    intro s t s' h _ hstep
    exact ⟨h.1.step hstep, h.2.step h.1 hstep⟩
  exact hboth.2

theorem Phase.ended (hs : Phase s) (hmain : s.main.Freeing) :
    (∀ r, s.rx r = .exited) ∧ ∀ h, s.hd h = .exited := by
  cases hpc : s.main with
  | deallocRxToHd | deallocHdToRx | done =>
    exact ⟨fun r => hs.rx r (by rw [hpc]; exact r.isLt),
      fun h => hs.hd h (by rw [hpc]; exact h.isLt)⟩
  | _ =>
    rw [hpc] at hmain
    exact hmain.elim

/-- A handler ends only after a request to stop, and so after all requests of its stream. -/
theorem sent_prefix_received (hs : Reached s) (hexit : s.hd h = .exited) :
    s.sent (c.handleStreams h) <+: s.received (c.handleStreams h) := by
  obtain ⟨stops, horder, -, -⟩ := (hs.inv.delivered (c.handleStreams h)).order
  have hreceived : s.received (c.handleStreams h) <+: s.sent (c.handleStreams h) ++ stops :=
    ⟨_, by rw [← List.append_assoc]; exact horder⟩
  rcases List.prefix_or_prefix_of_prefix hreceived (List.prefix_append _ _) with hshort | hlong
  · -- the request to stop would be one of those enqueued by receivers
    have hcount : ((s.received (c.handleStreams h)).countP fun e => decide (Stops e.2) : ℤ) =
        tally id (s.told (c.handleStreams h)) := hs.told _
    have hpos : 0 < tally id (s.told (c.handleStreams h)) := by
      apply tally_pos (i := h)
      show s.told (c.handleStreams h) h = true
      rw [State.told, hexit]
      simp only [decide_true, Bool.and_self]
    rw [← hcount, Int.natCast_pos, List.countP_pos_iff] at hpos
    obtain ⟨e, he, hstop⟩ := hpos
    exact absurd (of_decide_eq_true hstop)
      ((hs.inv.delivered (c.handleStreams h)).sent e (hshort.subset he))
  · exact hlong

/-- Once `deallocate_everything` frees the streams, all receivers and handlers have ended and
only the main thread makes steps.  Every request enqueued on a stream that has a handler has
been popped by a handler, and none is left in the work. -/
theorem shutdown_handles (s : State c) (hs : Reached s) (hmain : s.main.Freeing) :
    (∀ r, s.rx r = .exited) ∧ (∀ h, s.hd h = .exited) ∧ (∀ t s', Step s t s' → t = .main) ∧
      ∀ h, s.sent (c.handleStreams h) <+: s.received (c.handleStreams h) := by
  obtain ⟨hrx, hhd⟩ := hs.inv.phase.ended hmain
  exact ⟨hrx, hhd, fun t s' hstep => hs.inv.phase.alone hmain hstep,
    fun h => sent_prefix_received hs (hhd h)⟩

theorem shutdown_handles_run : ∃ s : State single, Reached s ∧
    s.sent (0 : Fin 1) = [(0, some emptyRequest)] ∧
    s.sent (0 : Fin 1) <+: s.received (0 : Fin 1) := by
  obtain ⟨-, s, -, -, ⟨hs, hmain, hsent⟩, -⟩ := run_reached
  exact ⟨s, hs, hsent, (shutdown_handles s hs (by rw [hmain]; trivial)).2.2.2 (0 : Fin 1)⟩

/-- At the end of `deallocate_everything` every node that has ever been allocated has been
freed, and none twice. -/
theorem shutdown_frees (s : State c) (hs : Reached s) (hmain : s.main = .done) :
    s.freed.Perm (List.range s.nextNode) := by
  obtain ⟨hrx, hhd⟩ := hs.inv.phase.ended (by rw [hmain]; trivial)
  have hemptied := hs.emptied
  have hrxNodes : gather RxPc.nodes s.rx = 0 := gather_eq_zero fun r => by rw [hrx r]; rfl
  have hhdNodes : gather HdPc.nodes s.hd = 0 := gather_eq_zero fun h => by rw [hhd h]; rfl
  have hrxToHd : gather id s.rxToHd = 0 :=
    gather_eq_zero fun j => hemptied.rxToHd j (by rw [hmain]; exact j.isLt)
  have hhdToRx : gather id s.hdToRx = 0 :=
    gather_eq_zero fun j => hemptied.hdToRx j (by rw [hmain]; exact j.isLt)
  have hnodes := hs.inv.conserved
  rw [Conserved, State.nodes, hrxNodes, hhdNodes, hrxToHd, hhdToRx] at hnodes
  simp only [add_zero, zero_add] at hnodes
  exact Multiset.coe_eq_coe.mp hnodes

theorem shutdown_frees_run : ∃ s : State single, Reached s ∧ s.nextNode = 2 ∧
    s.freed.Perm (List.range 2) := by
  obtain ⟨-, -, s, -, -, hs, hmain, hnext⟩ := run_reached
  exact ⟨s, hs, hnext, hnext ▸ shutdown_frees s hs hmain⟩

end Trtp.Nodes
