import Trtp.Lib.Gather
import Trtp.Lib.Runs
import Trtp.Receiver.Basic

/-!
# The nodes of the streams

A node of `s_node_t` carries a request from a receiver to a handler and comes back empty on
the stream `hd_to_rx`, from which receivers take their nodes.  Receivers allocate nodes, and
so does `deallocate_everything` for the requests that stop the handlers; handlers free the
nodes without a request and those that stop them, and `dealloc_stream` frees what is left.

The model is the threaded mode of `src/main.c` with any assignment of threads to streams,
from the start of the threads to the end of `deallocate_everything`.  A thread moves a
pointer, or it writes to a request through the pointer it has.  The streams are lists of
nodes, a pop that finds none is no step, and a handler that waits is woken up.  The locks are
left out, each being given back by the call that takes it.

For the nodes of receivers any allocation can fail.  Those of clients and of the requests to
stop are taken to succeed: a receiver that cannot initialize a client goes on with the request
that it has enqueued, and a node for which there is no request to stop is never freed.

Every node is in one place: with a thread, in a stream, or freed.  So a request does not
change from the moment it is enqueued to the moment a handler has it.
-/

namespace Trtp.Nodes

open Lib

/-- The numbers of threads and streams, `receive_streams` and `handle_streams`. -/
structure Config where
  receiveNum : ℕ
  handleNum : ℕ
  streamCount : ℕ
  receiveStreams : Fin receiveNum → Fin streamCount
  handleStreams : Fin handleNum → Fin streamCount

/-- The content of a node.  The client of a request may be NULL. -/
abbrev Content := Option (HdReq (Option ℕ))

def allocateHandleRequest : HdReq (Option ℕ) :=
  { stop := false, client := none, datagrams := [], num_le := Nat.zero_le _ }

/-- `req->client = contained` and `req->num = 0`. -/
def openFor (req : HdReq (Option ℕ)) (client : ℕ) : HdReq (Option ℕ) :=
  { stop := req.stop, client := some client, datagrams := [], num_le := Nat.zero_le _ }

def stopRequest : HdReq (Option ℕ) := { allocateHandleRequest with stop := true }

/-- The content tells the handler to stop. -/
def Stops (content : Content) : Prop := ∃ req, content = some req ∧ req.stop = true

/-- Where a receiver is in `receive_thread`: at the head of its loop, in `rx_run_once`
without a node, with a node that it has just got, or with a node for a client. -/
inductive RxPc where
  | head
  | inside
  | taken (n : ℕ)
  | holding (n : ℕ)
  | exited
  deriving DecidableEq

inductive HdPc where
  | idle
  | popped (n : ℕ)
  | exited
  deriving DecidableEq

/-- Where the main thread is: before SIGINT, or in the loops of `deallocate_everything`. -/
inductive MainPc where
  | running
  | stopRx (i : ℕ)
  | joinRx (i : ℕ)
  | enqueueStop (i j : ℕ)
  | joinHd (i : ℕ)
  | deallocRxToHd (j : ℕ)
  | deallocHdToRx (j : ℕ)
  | done
  deriving DecidableEq

def RxPc.nodes : RxPc → List ℕ
  | .taken n => [n]
  | .holding n => [n]
  | _ => []

def HdPc.nodes : HdPc → List ℕ
  | .popped n => [n]
  | _ => []

/-- Nodes are numbered in the order of their allocation.  `stop` are the flags of the
receivers.  `freed` are the nodes freed so far, `sent` what receivers have enqueued,
`received` what handlers have popped and `discarded` what `dealloc_stream` has popped from
`rx_to_hd`, as it was then; the four are not in the code. -/
structure State (c : Config) where
  content : ℕ → Content
  nextNode : ℕ
  stop : Fin c.receiveNum → Bool
  rx : Fin c.receiveNum → RxPc
  hd : Fin c.handleNum → HdPc
  rxToHd : Fin c.streamCount → List ℕ
  hdToRx : Fin c.streamCount → List ℕ
  main : MainPc
  freed : List ℕ
  sent : Fin c.streamCount → List (ℕ × Content)
  received : Fin c.streamCount → List (ℕ × Content)
  discarded : Fin c.streamCount → List (ℕ × Content)

variable {c : Config}

inductive Thread (c : Config) where
  | rx (r : Fin c.receiveNum)
  | hd (h : Fin c.handleNum)
  | main

namespace State

def rxGoto (s : State c) (r : Fin c.receiveNum) (pc : RxPc) : State c :=
  { s with rx := Function.update s.rx r pc }

def hdGoto (s : State c) (h : Fin c.handleNum) (pc : HdPc) : State c :=
  { s with hd := Function.update s.hd h pc }

def setContent (s : State c) (n : ℕ) (content : Content) : State c :=
  { s with content := Function.update s.content n content }

def allocate (s : State c) (content : Content) : State c :=
  { s.setContent s.nextNode content with nextNode := s.nextNode + 1 }

def enqueueRxToHd (s : State c) (j : Fin c.streamCount) (n : ℕ) : State c :=
  { s with rxToHd := Function.update s.rxToHd j (s.rxToHd j ++ [n]) }

def enqueueHdToRx (s : State c) (j : Fin c.streamCount) (n : ℕ) : State c :=
  { s with hdToRx := Function.update s.hdToRx j (s.hdToRx j ++ [n]) }

def free (s : State c) (n : ℕ) : State c := { s with freed := s.freed ++ [n] }

def nodes (s : State c) : Multiset ℕ :=
  gather RxPc.nodes s.rx + gather id s.rxToHd + gather HdPc.nodes s.hd + gather id s.hdToRx +
    (s.freed : Multiset ℕ)

end State

inductive RxStep (s : State c) (r : Fin c.receiveNum) : State c → Prop
  | enter (h : s.rx r = .head) (hstop : s.stop r = false) : RxStep s r (s.rxGoto r .inside)
  | exit (h : s.rx r = .head) (hstop : s.stop r = true) : RxStep s r (s.rxGoto r .exited)
  | leave (h : s.rx r = .inside) : RxStep s r (s.rxGoto r .head)
  | pop {n : ℕ} {rest : List ℕ} (h : s.rx r = .inside)
      (hpool : s.hdToRx (c.receiveStreams r) = n :: rest) :
    RxStep s r { s.rxGoto r (.taken n) with
      hdToRx := Function.update s.hdToRx (c.receiveStreams r) rest }
  /-- `stream_pop` has returned NULL.  Since then the stream may have got a node. -/
  | allocate (h : s.rx r = .inside) :
    RxStep s r ((s.allocate (some allocateHandleRequest)).rxGoto r (.taken s.nextNode))
  /-- There is no memory for the request.  The loop is left and the node enqueued. -/
  | allocateNull (h : s.rx r = .inside) :
    RxStep s r ((s.allocate none).rxGoto r (.holding s.nextNode))
  | fill {n : ℕ} {req : HdReq (Option ℕ)} (client : ℕ) (h : s.rx r = .taken n)
      (hreq : s.content n = some req) :
    RxStep s r ((s.setContent n (some (openFor req client))).rxGoto r (.holding n))
  | fillNull {n : ℕ} (client : ℕ) (h : s.rx r = .taken n) (hreq : s.content n = none) :
    RxStep s r
      ((s.setContent n (some (openFor allocateHandleRequest client))).rxGoto r (.holding n))
  | copy {n : ℕ} {req req' : HdReq (Option ℕ)} (d : Datagram) (h : s.rx r = .holding n)
      (hreq : s.content n = some req) (hpush : req.push d = some req') :
    RxStep s r (s.setContent n (some req'))
  | enqueue {n : ℕ} (h : s.rx r = .holding n) :
    RxStep s r
      { (s.enqueueRxToHd (c.receiveStreams r) n).rxGoto r .inside with
        sent := Function.update s.sent (c.receiveStreams r)
          (s.sent (c.receiveStreams r) ++ [(n, s.content n)]) }

inductive HdStep (s : State c) (h : Fin c.handleNum) : State c → Prop
  | pop {n : ℕ} {rest : List ℕ} (hpc : s.hd h = .idle)
      (hqueue : s.rxToHd (c.handleStreams h) = n :: rest) :
    HdStep s h
      { s.hdGoto h (.popped n) with
        rxToHd := Function.update s.rxToHd (c.handleStreams h) rest
        received := Function.update s.received (c.handleStreams h)
          (s.received (c.handleStreams h) ++ [(n, s.content n)]) }
  /-- `enqueue_or_free`, which never frees. -/
  | recycle {n : ℕ} {req : HdReq (Option ℕ)} (hpc : s.hd h = .popped n)
      (hreq : s.content n = some req) (hstop : req.stop = false) :
    HdStep s h ((s.enqueueHdToRx (c.handleStreams h) n).hdGoto h .idle)
  | freeNull {n : ℕ} (hpc : s.hd h = .popped n) (hreq : s.content n = none) :
    HdStep s h ((s.free n).hdGoto h .idle)
  | exit {n : ℕ} (hpc : s.hd h = .popped n) (hstop : Stops (s.content n)) :
    HdStep s h ((s.free n).hdGoto h .exited)

inductive MainStep (s : State c) : State c → Prop
  | sigint (h : s.main = .running) : MainStep s { s with main := .stopRx 0 }
  | stopRx {i : ℕ} (h : s.main = .stopRx i) (hi : i < c.receiveNum) :
    MainStep s { s with stop := Function.update s.stop ⟨i, hi⟩ true, main := .joinRx i }
  | joinRx {i : ℕ} (h : s.main = .joinRx i) (hi : i < c.receiveNum)
      (hexit : s.rx ⟨i, hi⟩ = .exited) : MainStep s { s with main := .stopRx (i + 1) }
  | rxJoined {i : ℕ} (h : s.main = .stopRx i) (hi : ¬ i < c.receiveNum) :
    MainStep s { s with main := .enqueueStop 0 0 }
  | enqueueStop {i j : ℕ} (h : s.main = .enqueueStop i j) (hi : i < c.handleNum)
      (hj : j < c.streamCount) :
    MainStep s
      { (s.allocate (some stopRequest)).enqueueRxToHd ⟨j, hj⟩ s.nextNode with
        main := .enqueueStop i (j + 1) }
  | nextHd {i j : ℕ} (h : s.main = .enqueueStop i j) (hi : i < c.handleNum)
      (hj : ¬ j < c.streamCount) : MainStep s { s with main := .enqueueStop (i + 1) 0 }
  | stopsSent {i j : ℕ} (h : s.main = .enqueueStop i j) (hi : ¬ i < c.handleNum) :
    MainStep s { s with main := .joinHd 0 }
  | joinHd {i : ℕ} (h : s.main = .joinHd i) (hi : i < c.handleNum)
      (hexit : s.hd ⟨i, hi⟩ = .exited) : MainStep s { s with main := .joinHd (i + 1) }
  | hdJoined {i : ℕ} (h : s.main = .joinHd i) (hi : ¬ i < c.handleNum) :
    MainStep s { s with main := .deallocRxToHd 0 }
  | freeRxToHd {j n : ℕ} {rest : List ℕ} (h : s.main = .deallocRxToHd j)
      (hj : j < c.streamCount) (hqueue : s.rxToHd ⟨j, hj⟩ = n :: rest) :
    MainStep s
      { s.free n with
        rxToHd := Function.update s.rxToHd ⟨j, hj⟩ rest
        discarded := Function.update s.discarded ⟨j, hj⟩
          (s.discarded ⟨j, hj⟩ ++ [(n, s.content n)]) }
  | nextRxToHd {j : ℕ} (h : s.main = .deallocRxToHd j) (hj : j < c.streamCount)
      (hqueue : s.rxToHd ⟨j, hj⟩ = []) : MainStep s { s with main := .deallocRxToHd (j + 1) }
  | rxToHdFreed {j : ℕ} (h : s.main = .deallocRxToHd j) (hj : ¬ j < c.streamCount) :
    MainStep s { s with main := .deallocHdToRx 0 }
  | freeHdToRx {j n : ℕ} {rest : List ℕ} (h : s.main = .deallocHdToRx j)
      (hj : j < c.streamCount) (hqueue : s.hdToRx ⟨j, hj⟩ = n :: rest) :
    MainStep s { s.free n with hdToRx := Function.update s.hdToRx ⟨j, hj⟩ rest }
  | nextHdToRx {j : ℕ} (h : s.main = .deallocHdToRx j) (hj : j < c.streamCount)
      (hqueue : s.hdToRx ⟨j, hj⟩ = []) : MainStep s { s with main := .deallocHdToRx (j + 1) }
  | hdToRxFreed {j : ℕ} (h : s.main = .deallocHdToRx j) (hj : ¬ j < c.streamCount) :
    MainStep s { s with main := .done }

inductive Step (s : State c) : Thread c → State c → Prop
  | rx {r : Fin c.receiveNum} {s' : State c} (h : RxStep s r s') : Step s (.rx r) s'
  | hd {h : Fin c.handleNum} {s' : State c} (hs : HdStep s h s') : Step s (.hd h) s'
  | main {s' : State c} (h : MainStep s s') : Step s .main s'

structure Initial (s : State c) : Prop where
  nextNode : s.nextNode = 0
  stop : ∀ r, s.stop r = false
  rx : ∀ r, s.rx r = .head
  hd : ∀ h, s.hd h = .idle
  rxToHd : ∀ j, s.rxToHd j = []
  hdToRx : ∀ j, s.hdToRx j = []
  main : s.main = .running
  freed : s.freed = []
  sent : ∀ j, s.sent j = []
  received : ∀ j, s.received j = []
  discarded : ∀ j, s.discarded j = []

abbrev Reached : State c → Prop := ReachBy Initial Step fun _ _ => True

/-! ## A run -/

/-- One receiver, one handler and the stream between them. -/
def single : Config :=
  { receiveNum := 1, handleNum := 1, streamCount := 1, receiveStreams := fun _ => (0 : Fin 1),
    handleStreams := fun _ => (0 : Fin 1) }

def started : State single :=
  { content := fun _ => none, nextNode := 0, stop := fun _ => false, rx := fun _ => .head
    hd := fun _ => .idle, rxToHd := fun _ => [], hdToRx := fun _ => [], main := .running
    freed := [], sent := fun _ => [], received := fun _ => [], discarded := fun _ => [] }

def emptyRequest : HdReq (Option ℕ) := openFor allocateHandleRequest 7

/-- The receiver enqueues a request and ends, and the handler is told to stop before it pops
the request.  From there the run goes on to the end. -/
theorem run_reached : ∃ stopping freeing done : State single,
    (Reached stopping ∧ stopping.main = .joinHd 0 ∧ stopping.nextNode = 2 ∧
      stopping.sent (0 : Fin 1) = [(0, some emptyRequest)]) ∧
    (Reached freeing ∧ freeing.main = .deallocRxToHd 0 ∧
      freeing.sent (0 : Fin 1) = [(0, some emptyRequest)]) ∧
    Reached done ∧ done.main = .done ∧ done.nextNode = 2 := by
  have h0 : Reached started :=
    .start ⟨rfl, fun _ => rfl, fun _ => rfl, fun _ => rfl, fun _ => rfl, fun _ => rfl, rfl, rfl,
      fun _ => rfl, fun _ => rfl, fun _ => rfl⟩
  have h1 := ReachBy.step h0 trivial (.rx (.enter (r := (0 : Fin 1)) rfl rfl))
  have h2 := ReachBy.step h1 trivial (.rx (.allocate (r := (0 : Fin 1)) rfl))
  have h3 := ReachBy.step h2 trivial (.rx (.fill (r := (0 : Fin 1)) 7 rfl rfl))
  have h4 := ReachBy.step h3 trivial (.rx (.enqueue (r := (0 : Fin 1)) rfl))
  have h5 := ReachBy.step h4 trivial (.main (.sigint rfl))
  have h6 := ReachBy.step h5 trivial (.rx (.leave (r := (0 : Fin 1)) rfl))
  have h7 := ReachBy.step h6 trivial (.main (.stopRx rfl (by decide)))
  have h8 := ReachBy.step h7 trivial (.rx (.exit (r := (0 : Fin 1)) rfl rfl))
  have h9 := ReachBy.step h8 trivial (.main (.joinRx rfl (by decide) rfl))
  have h10 := ReachBy.step h9 trivial (.main (.rxJoined rfl (by decide)))
  have h11 := ReachBy.step h10 trivial (.main (.enqueueStop rfl (by decide) (by decide)))
  have h12 := ReachBy.step h11 trivial (.main (.nextHd rfl (by decide) (by decide)))
  have h13 := ReachBy.step h12 trivial (.main (.stopsSent rfl (by decide)))
  have h14 := ReachBy.step h13 trivial (.hd (.pop (h := (0 : Fin 1)) rfl rfl))
  have h15 := ReachBy.step h14 trivial (.hd (.recycle (h := (0 : Fin 1)) rfl rfl rfl))
  have h16 := ReachBy.step h15 trivial (.hd (.pop (h := (0 : Fin 1)) rfl rfl))
  have h17 := ReachBy.step h16 trivial (.hd (.exit (h := (0 : Fin 1)) rfl ⟨_, rfl, rfl⟩))
  have h18 := ReachBy.step h17 trivial (.main (.joinHd rfl (by decide) rfl))
  have h19 := ReachBy.step h18 trivial (.main (.hdJoined rfl (by decide)))
  have h20 := ReachBy.step h19 trivial (.main (.nextRxToHd rfl (by decide) rfl))
  have h21 := ReachBy.step h20 trivial (.main (.rxToHdFreed rfl (by decide)))
  have h22 := ReachBy.step h21 trivial (.main (.freeHdToRx rfl (by decide) rfl))
  have h23 := ReachBy.step h22 trivial (.main (.nextHdToRx rfl (by decide) rfl))
  have h24 := ReachBy.step h23 trivial (.main (.hdToRxFreed rfl (by decide)))
  exact ⟨_, _, _, ⟨h13, rfl, rfl, rfl⟩, ⟨h19, rfl, rfl⟩, h24, rfl, rfl⟩

/-! ## Every node is in one place -/

variable {s s' : State c} {t : Thread c} {r : Fin c.receiveNum} {h : Fin c.handleNum}

def Moves (s s' : State c) : Prop :=
  s'.nodes = s.nodes ∧ s'.nextNode = s.nextNode ∨
    s'.nodes = s.nextNode ::ₘ s.nodes ∧ s'.nextNode = s.nextNode + 1

theorem nodes_rxGoto {pc : RxPc} (hpc : pc.nodes = (s.rx r).nodes) :
    (s.rxGoto r pc).nodes = s.nodes := by
  simp only [State.nodes, State.rxGoto, gather_keep hpc]

theorem RxStep.moves (hstep : RxStep s r s') : Moves s s' := by
  have hgain : ∀ (pc : RxPc) {n : ℕ}, pc.nodes = [n] → (s.rx r).nodes = [] →
      gather RxPc.nodes (Function.update s.rx r pc) = n ::ₘ gather RxPc.nodes s.rx := by
    intro pc n hpc hnone
    apply gather_gain
    rw [hpc, hnone]
  cases hstep with
  | enter h => exact .inl ⟨nodes_rxGoto (by rw [h]; rfl), rfl⟩
  | exit h => exact .inl ⟨nodes_rxGoto (by rw [h]; rfl), rfl⟩
  | leave h => exact .inl ⟨nodes_rxGoto (by rw [h]; rfl), rfl⟩
  | @pop n rest h hpool =>
    refine .inl ⟨?_, rfl⟩
    have hrx := hgain (.taken n) rfl (by rw [h]; rfl)
    have hstream := gather_pop hpool
    simp only [State.nodes, State.rxGoto, hrx]
    rw [hstream]
    simp only [Multiset.cons_add, Multiset.add_cons]
  | allocate h =>
    refine .inr ⟨?_, rfl⟩
    have hrx := hgain (.taken s.nextNode) rfl (by rw [h]; rfl)
    simp only [State.nodes, State.rxGoto, State.allocate, State.setContent, hrx,
      Multiset.cons_add]
  | allocateNull h =>
    refine .inr ⟨?_, rfl⟩
    have hrx := hgain (.holding s.nextNode) rfl (by rw [h]; rfl)
    simp only [State.nodes, State.rxGoto, State.allocate, State.setContent, hrx,
      Multiset.cons_add]
  | @fill n req client h =>
    exact .inl ⟨nodes_rxGoto (s := s.setContent n _) (by rw [State.setContent, h]; rfl), rfl⟩
  | @fillNull n client h =>
    exact .inl ⟨nodes_rxGoto (s := s.setContent n _) (by rw [State.setContent, h]; rfl), rfl⟩
  | copy => exact .inl ⟨rfl, rfl⟩
  | @enqueue n h =>
    refine .inl ⟨?_, rfl⟩
    have hrx := gather_lose (p := RxPc.nodes) (f := s.rx) (i := r) (a := .inside) (x := n)
      (by rw [h]; rfl)
    have hstream := gather_push s.rxToHd (c.receiveStreams r) n
    simp only [State.nodes, State.rxGoto, State.enqueueRxToHd, hstream]
    rw [hrx]
    simp only [Multiset.cons_add, Multiset.add_cons]

theorem coe_append_singleton (l : List ℕ) (n : ℕ) : ((l ++ [n] : List ℕ) : Multiset ℕ) = n ::ₘ l :=
  Multiset.coe_eq_coe.mpr (List.perm_append_singleton n l)

theorem HdStep.moves (hstep : HdStep s h s') : Moves s s' := by
  have hlose : ∀ (pc : HdPc) (n : ℕ), (s.hd h).nodes = [n] → pc.nodes = [] →
      gather HdPc.nodes s.hd = n ::ₘ gather HdPc.nodes (Function.update s.hd h pc) := by
    intro pc n hpc hnone
    apply gather_lose
    rw [hpc, hnone]
  cases hstep with
  | @pop n rest hpc hqueue =>
    refine .inl ⟨?_, rfl⟩
    have hhd := gather_gain (p := HdPc.nodes) (f := s.hd) (i := h) (a := .popped n) (x := n)
      (by rw [hpc]; rfl)
    have hstream := gather_pop hqueue
    simp only [State.nodes, State.hdGoto, hhd]
    rw [hstream]
    simp only [Multiset.cons_add, Multiset.add_cons]
  | @recycle n req hpc =>
    refine .inl ⟨?_, rfl⟩
    have hhd := hlose .idle n (by rw [hpc]; rfl) rfl
    have hstream := gather_push s.hdToRx (c.handleStreams h) n
    simp only [State.nodes, State.hdGoto, State.enqueueHdToRx, hstream]
    rw [hhd]
    simp only [Multiset.cons_add, Multiset.add_cons]
  | @freeNull n hpc =>
    refine .inl ⟨?_, rfl⟩
    have hhd := hlose .idle n (by rw [hpc]; rfl) rfl
    simp only [State.nodes, State.hdGoto, State.free, coe_append_singleton]
    rw [hhd]
    simp only [Multiset.cons_add, Multiset.add_cons]
  | @exit n hpc =>
    refine .inl ⟨?_, rfl⟩
    have hhd := hlose .exited n (by rw [hpc]; rfl) rfl
    simp only [State.nodes, State.hdGoto, State.free, coe_append_singleton]
    rw [hhd]
    simp only [Multiset.cons_add, Multiset.add_cons]

theorem MainStep.moves (hstep : MainStep s s') : Moves s s' := by
  cases hstep with
  | @enqueueStop i j h hi hj =>
    refine .inr ⟨?_, rfl⟩
    have hstream := gather_push s.rxToHd ⟨j, hj⟩ s.nextNode
    simp only [State.nodes, State.enqueueRxToHd, State.allocate, State.setContent, hstream]
    simp only [Multiset.cons_add, Multiset.add_cons]
  | @freeRxToHd j n rest h hj hqueue =>
    refine .inl ⟨?_, rfl⟩
    have hstream := gather_pop hqueue
    simp only [State.nodes, State.free, coe_append_singleton]
    rw [hstream]
    simp only [Multiset.cons_add, Multiset.add_cons]
  | @freeHdToRx j n rest h hj hqueue =>
    refine .inl ⟨?_, rfl⟩
    have hstream := gather_pop hqueue
    simp only [State.nodes, State.free, coe_append_singleton]
    rw [hstream]
    simp only [Multiset.cons_add, Multiset.add_cons]
  | sigint => exact .inl ⟨rfl, rfl⟩
  | stopRx => exact .inl ⟨rfl, rfl⟩
  | joinRx => exact .inl ⟨rfl, rfl⟩
  | rxJoined => exact .inl ⟨rfl, rfl⟩
  | nextHd => exact .inl ⟨rfl, rfl⟩
  | stopsSent => exact .inl ⟨rfl, rfl⟩
  | joinHd => exact .inl ⟨rfl, rfl⟩
  | hdJoined => exact .inl ⟨rfl, rfl⟩
  | nextRxToHd => exact .inl ⟨rfl, rfl⟩
  | rxToHdFreed => exact .inl ⟨rfl, rfl⟩
  | nextHdToRx => exact .inl ⟨rfl, rfl⟩
  | hdToRxFreed => exact .inl ⟨rfl, rfl⟩

theorem Step.moves (hstep : Step s t s') : Moves s s' := by
  cases hstep with
  | rx h => exact h.moves
  | hd h => exact h.moves
  | main h => exact h.moves

/-- The nodes are those that have been allocated, each of them once. -/
def Conserved (s : State c) : Prop := s.nodes = Multiset.range s.nextNode

theorem Initial.conserved (hs : Initial s) : Conserved s := by
  have hrx : gather RxPc.nodes s.rx = 0 := gather_eq_zero fun r => by rw [hs.rx r]; rfl
  have hhd : gather HdPc.nodes s.hd = 0 := gather_eq_zero fun h => by rw [hs.hd h]; rfl
  have hrxToHd : gather id s.rxToHd = 0 := gather_eq_zero hs.rxToHd
  have hhdToRx : gather id s.hdToRx = 0 := gather_eq_zero hs.hdToRx
  rw [Conserved, State.nodes, hrx, hhd, hrxToHd, hhdToRx, hs.freed, hs.nextNode]
  rfl

theorem Conserved.step (hs : Conserved s) (hstep : Step s t s') : Conserved s' := by
  rcases hstep.moves with ⟨hnodes, hnext⟩ | ⟨hnodes, hnext⟩
  · rw [Conserved, hnodes, hnext]
    exact hs
  · rw [Conserved, hnodes, hnext, hs, Multiset.range_succ]

/-- In every run, whatever the threads do and in whatever order, the nodes held by
receivers, in the streams to the handlers, held by handlers, in the streams to the receivers
and freed are together the nodes allocated so far, each of them once. -/
theorem nodes_conserved (s : State c) (hs : Reached s) : Conserved s := by
  refine hs.invariant (fun _ h => h.conserved) ?_
  intro s t s' h _ hstep
  exact h.step hstep

theorem nodes_conserved_run : ∃ s : State single, Reached s ∧ s.nextNode = 2 ∧ Conserved s := by
  obtain ⟨s, -, -, ⟨hs, -, hnext, -⟩, -⟩ := run_reached
  exact ⟨s, hs, hnext, nodes_conserved s hs⟩

end Trtp.Nodes
