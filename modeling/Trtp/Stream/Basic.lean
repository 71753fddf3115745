import Trtp.Lib.Chain

/-!
# The stream

`stream_enqueue` and `stream_pop` of `src/stream.c` as a step relation.  Every load
and store of a shared variable, every compare-and-swap, fetch-and-add and
fetch-and-sub and every operation on the mutex and the condition variable is one
step of one thread; memory is sequentially consistent.

Producers push nodes on the list `in_queue` without a lock.  A consumer that finds
`out_queue` empty takes the whole of `in_queue` and reverses it into `out_queue`,
node by node, under the lock.

A node may be enqueued by whoever owns it.  It belongs to the thread that enqueues
it until the compare-and-swap succeeds, and to the consumer from the moment it is
taken off `out_queue` until `stream_pop` returns.  The counters `length` and
`waiting` are unbounded here, where the code has the type `int`.
-/

namespace Trtp.Stream

open Lib

/-- Where a thread is and the values of its locals.  Each constructor names the
next access to shared memory. -/
inductive Pc (ν : Type) where
  | idle
  -- stream_enqueue
  | enqLoadIn (node : ν)
  | enqStoreNext (node : ν) (inQueue : Ptr ν)
  | enqCas (node : ν) (inQueue : Ptr ν)
  | enqAddLength
  | enqLoadWaiting
  | enqSignal
  -- stream_pop, up to the end of the wait loop
  | popLock (wait : Bool)
  | popAddWaiting (wait : Bool)
  | popLoadLength (wait : Bool)
  | popWait
  | popAsleep
  | popRelock
  | popSubWaiting
  -- the transfer of `in_queue` to `out_queue`
  | popLoadOut
  | popLoadIn
  | popCas (head : ν)
  | popLoadNext (head : ν)
  | popReadOut (head : ν) (next : Ptr ν)
  | popStoreNext (head : ν) (next outQueue : Ptr ν)
  | popStoreOut (head : ν) (next : Ptr ν)
  -- the removal of the first node
  | popSubLength
  | popLoadHead
  | popLoadHeadNext (head : ν)
  | popTake (head : ν) (next : Ptr ν)
  | popUnlock (head : Option ν)
  | popPoison (head : ν)
  deriving DecidableEq

inductive Owner (τ : Type) where
  | free
  | held (t : τ)
  | queued
  deriving DecidableEq

/-- The memory, the threads `τ` and the nodes `ν`.  The last four fields are not in
the code: who owns a node, the nodes in the order of their successful
compare-and-swap, the nodes removed from `out_queue` with the thread that took each,
and the nodes that the calls of a thread have returned. -/
structure State (τ ν : Type) where
  inQueue : Ptr ν
  outQueue : Ptr ν
  next : ν → Ptr ν
  lock : Option τ
  length : Int
  waiting : Int
  pc : τ → Pc ν
  owner : ν → Owner τ
  enqueued : List ν
  taken : List (τ × ν)
  returned : τ → List ν

variable {τ ν : Type} [DecidableEq τ] [DecidableEq ν]

/-- `initialize_stream`, with every thread outside of the stream. -/
def State.initial (next : ν → Ptr ν) : State τ ν :=
  { inQueue := .null, outQueue := .null, next := next, lock := none, length := 0, waiting := 0
    pc := fun _ => .idle, owner := fun _ => .free, enqueued := [], taken := []
    returned := fun _ => [] }

/-- The part of `stream_pop` that runs with the mutex held. -/
def Pc.critical : Pc ν → Bool
  | .popAddWaiting _ | .popLoadLength _ | .popWait | .popSubWaiting | .popLoadOut | .popLoadIn
  | .popCas _ | .popLoadNext _ | .popReadOut _ _ | .popStoreNext _ _ _ | .popStoreOut _ _
  | .popSubLength | .popLoadHead | .popLoadHeadNext _ | .popTake _ _ | .popUnlock _ => true
  | _ => false

def State.goto (s : State τ ν) (t : τ) (pc : Pc ν) : State τ ν :=
  { s with pc := Function.update s.pc t pc }

/-- One step of thread `t`.  A step that would follow a poisoned pointer is missing,
as it has no meaning in the code. -/
inductive Step (s : State τ ν) (t : τ) : State τ ν → Prop
  | enqueue (node : ν) (h : s.pc t = .idle) (hn : s.owner node = .free) :
    Step s t
      { s.goto t (.enqLoadIn node) with owner := Function.update s.owner node (.held t) }
  | enqLoadIn {node : ν} (h : s.pc t = .enqLoadIn node) :
    Step s t (s.goto t (.enqStoreNext node s.inQueue))
  | enqStoreNext {node : ν} {inQueue : Ptr ν} (h : s.pc t = .enqStoreNext node inQueue) :
    Step s t
      { s.goto t (.enqCas node inQueue) with next := Function.update s.next node inQueue }
  | enqCas {node : ν} {inQueue : Ptr ν} (h : s.pc t = .enqCas node inQueue)
      (heq : s.inQueue = inQueue) :
    Step s t { s.goto t .enqAddLength with
      inQueue := .node node
      owner := Function.update s.owner node .queued
      enqueued := s.enqueued ++ [node] }
  | enqCasFail {node : ν} {inQueue : Ptr ν} (h : s.pc t = .enqCas node inQueue)
      (hne : s.inQueue ≠ inQueue) :
    Step s t (s.goto t (.enqLoadIn node))
  | enqAddLength (h : s.pc t = .enqAddLength) :
    Step s t { s.goto t .enqLoadWaiting with length := s.length + 1 }
  | enqLoadWaiting (h : s.pc t = .enqLoadWaiting) :
    Step s t (s.goto t (if s.waiting > 0 then .enqSignal else .idle))
  | enqSignal {u : τ} (h : s.pc t = .enqSignal) (hu : s.pc u = .popAsleep) :
    Step s t ((s.goto t .idle).goto u .popRelock)
  | enqSignalLost (h : s.pc t = .enqSignal) (hnone : ∀ u, s.pc u ≠ .popAsleep) :
    Step s t (s.goto t .idle)
  | pop (wait : Bool) (h : s.pc t = .idle) : Step s t (s.goto t (.popLock wait))
  | popLock {wait : Bool} (h : s.pc t = .popLock wait) (hl : s.lock = none) :
    Step s t { s.goto t (.popAddWaiting wait) with lock := some t }
  | popAddWaiting {wait : Bool} (h : s.pc t = .popAddWaiting wait) :
    Step s t { s.goto t (.popLoadLength wait) with waiting := s.waiting + 1 }
  | popLoadLength {wait : Bool} (h : s.pc t = .popLoadLength wait) :
    Step s t (s.goto t (if wait ∧ s.length = 0 then .popWait else .popSubWaiting))
  | popWait (h : s.pc t = .popWait) :
    Step s t { s.goto t .popAsleep with lock := none }
  | popRelock (h : s.pc t = .popRelock) (hl : s.lock = none) :
    Step s t { s.goto t (.popLoadLength true) with lock := some t }
  | popSubWaiting (h : s.pc t = .popSubWaiting) :
    Step s t { s.goto t .popLoadOut with waiting := s.waiting - 1 }
  | popLoadOut (h : s.pc t = .popLoadOut) :
    Step s t (s.goto t (if s.outQueue = .null then .popLoadIn else .popSubLength))
  | popLoadIn {head : ν} (h : s.pc t = .popLoadIn) (hh : s.inQueue = .node head) :
    Step s t (s.goto t (.popCas head))
  | popLoadInNull (h : s.pc t = .popLoadIn) (hh : s.inQueue = .null) :
    Step s t (s.goto t .popSubLength)
  | popCas {head : ν} (h : s.pc t = .popCas head) (heq : s.inQueue = .node head) :
    Step s t { s.goto t (.popLoadNext head) with inQueue := .null }
  | popCasFail {head : ν} (h : s.pc t = .popCas head) (hne : s.inQueue ≠ .node head) :
    Step s t (s.goto t .popLoadIn)
  | popLoadNext {head : ν} (h : s.pc t = .popLoadNext head) :
    Step s t (s.goto t (.popReadOut head (s.next head)))
  | popReadOut {head : ν} {next : Ptr ν} (h : s.pc t = .popReadOut head next) :
    Step s t (s.goto t (.popStoreNext head next s.outQueue))
  | popStoreNext {head : ν} {next outQueue : Ptr ν}
      (h : s.pc t = .popStoreNext head next outQueue) :
    Step s t
      { s.goto t (.popStoreOut head next) with next := Function.update s.next head outQueue }
  | popStoreOut {head next : ν} (h : s.pc t = .popStoreOut head (.node next)) :
    Step s t { s.goto t (.popLoadNext next) with outQueue := .node head }
  | popStoreOutLast {head : ν} (h : s.pc t = .popStoreOut head .null) :
    Step s t { s.goto t .popSubLength with outQueue := .node head }
  | popSubLength (h : s.pc t = .popSubLength) :
    Step s t { s.goto t .popLoadHead with length := s.length - 1 }
  | popLoadHead {head : ν} (h : s.pc t = .popLoadHead) (hh : s.outQueue = .node head) :
    Step s t (s.goto t (.popLoadHeadNext head))
  | popLoadHeadNull (h : s.pc t = .popLoadHead) (hh : s.outQueue = .null) :
    Step s t (s.goto t (.popUnlock none))
  | popLoadHeadNext {head : ν} (h : s.pc t = .popLoadHeadNext head) :
    Step s t (s.goto t (.popTake head (s.next head)))
  | popTake {head : ν} {next : Ptr ν} (h : s.pc t = .popTake head next) :
    Step s t { s.goto t (.popUnlock (some head)) with
      outQueue := next
      owner := Function.update s.owner head (.held t)
      taken := s.taken ++ [(t, head)] }
  | popUnlock {head : Option ν} (h : s.pc t = .popUnlock head) :
    Step s t { s.goto t (head.elim .idle .popPoison) with lock := none }
  | popPoison {head : ν} (h : s.pc t = .popPoison head) :
    Step s t { s.goto t .idle with
      next := Function.update s.next head .poison
      owner := Function.update s.owner head .free
      returned := Function.update s.returned t (s.returned t ++ [head]) }

omit [DecidableEq τ] [DecidableEq ν] in
/-- A producer wakes another thread, never itself. -/
theorem ne_of_asleep {s : State τ ν} {t u : τ} (ht : s.pc t = .enqSignal)
    (hu : s.pc u = .popAsleep) : u ≠ t := by
  intro he
  rw [he, ht] at hu
  cases hu

/-- The states reached by steps that all meet `P`, a condition on the state before
the step and the thread that takes it. -/
inductive ReachableBy (P : State τ ν → τ → Prop) : State τ ν → Prop
  | initial (next : ν → Ptr ν) : ReachableBy P (State.initial next)
  | step {s s' : State τ ν} {t : τ} (h : ReachableBy P s) (hp : P s t) (hs : Step s t s') :
    ReachableBy P s'

def Reachable (s : State τ ν) : Prop := ReachableBy (fun _ _ => True) s

end Trtp.Stream
