import Mathlib.Data.List.Nodup
import Mathlib.Logic.Relation
import Trtp.Lib.Runs
import Trtp.Stream.Basic
import Trtp.Stream.Single

/-!
# A thread that has the stream to itself

The step relation of the stream and its functions on lists describe the same code.  As
long as the other threads stay outside of the stream, the steps of a call of one thread
lead to the state that the function of the call computes, with the chains of the heap for
the lists.
-/

namespace Trtp.Stream

open Lib

variable {τ ν : Type} [DecidableEq τ] [DecidableEq ν]

abbrev Runs (t : τ) : State τ ν → State τ ν → Prop :=
  Relation.ReflTransGen fun s s' => Step s t s'

/-- Thread `t` is at `pc` and the others are not in the stream, which holds `q`. -/
structure Alone (s : State τ ν) (t : τ) (pc : Pc ν) (q : Queue ν) : Prop where
  lock : s.lock = if pc.critical then some t else none
  pc : s.pc = Function.update (fun _ => .idle) t pc
  waiting : s.waiting = 0
  length : s.length = q.length
  inQueue : Chain s.next s.inQueue q.inQueue
  outQueue : Chain s.next s.outQueue q.outQueue
  nodup : (q.inQueue ++ q.outQueue).Nodup
  owner : ∀ n, n ∉ q.inQueue ++ q.outQueue → s.owner n = .free

variable {s : State τ ν} {t : τ} {pc : Pc ν} {q : Queue ν} {node : ν}

omit [DecidableEq ν] in
theorem Alone.pc_self (h : Alone s t pc q) : s.pc t = pc := by
  rw [h.pc, Function.update_self]

theorem Alone.enqueue (h : Alone s t .idle q) (hnode : node ∉ q.inQueue ++ q.outQueue) :
    ∃ s', Runs t s s' ∧ Alone s' t .idle (q.enqueue node) ∧ s'.returned t = s.returned t := by
  have hcalled : Runs t s _ := .single (.enqueue node h.pc_self (h.owner node hnode))
  have hloaded := hcalled.tail (.enqLoadIn (Function.update_self ..))
  have hlinked := hloaded.tail (.enqStoreNext (Function.update_self ..))
  have hswapped := hlinked.tail (.enqCas (Function.update_self ..) rfl)
  have hcounted := hswapped.tail (.enqAddLength (Function.update_self ..))
  have hdone := hcounted.tail (.enqLoadWaiting (Function.update_self ..))
  have hin : node ∉ q.inQueue := fun hn => hnode (List.mem_append_left _ hn)
  have hout : node ∉ q.outQueue := fun hn => hnode (List.mem_append_right _ hn)
  refine ⟨_, hdone, ⟨h.lock, ?_, h.waiting, congrArg (· + 1) h.length, h.inQueue.push hin,
    h.outQueue.update hout _, List.nodup_cons.mpr ⟨hnode, h.nodup⟩, fun n hn => ?_⟩, rfl⟩
  · have hwaiting : ¬ s.waiting > 0 := by rw [h.waiting]; decide
    simp [State.goto, h.pc, hwaiting]
  · have hne : n ≠ node := List.ne_of_not_mem_cons hn
    show Function.update (Function.update s.owner node (.held t)) node .queued n = .free
    rw [Function.update_of_ne hne, Function.update_of_ne hne]
    exact h.owner n (List.not_mem_of_not_mem_cons hn)

/-! ## `stream_pop` -/

/-- Up to the end of the wait loop, when it is not entered. -/
theorem Alone.begin (h : Alone s t .idle q) {wait : Bool} (hwait : wait = true → q.length ≠ 0) :
    ∃ s', Runs t (s.goto t (.popLock wait)) s' ∧ Alone s' t .popLoadOut q ∧
      s'.returned = s.returned := by
  have hlocked : Runs t (s.goto t (.popLock wait)) _ :=
    .single (.popLock (Function.update_self ..) h.lock)
  have hadded := hlocked.tail (.popAddWaiting (Function.update_self ..))
  have htested := hadded.tail (.popLoadLength (Function.update_self ..))
  have hgo : ¬ (wait = true ∧ s.length = 0) := by
    rw [h.length]
    exact fun hw => hwait hw.1 hw.2
  have hdone := htested.tail (.popSubWaiting (by simp [State.goto, hgo]))
  refine ⟨_, hdone, ⟨rfl, ?_, ?_, h.length, h.inQueue, h.outQueue, h.nodup, h.owner⟩, rfl⟩
  · simp [State.goto, h.pc]
  · show s.waiting + 1 - 1 = 0
    rw [h.waiting]
    rfl

/-- A consumer that waits while the counter is zero goes to sleep. -/
theorem Alone.sleep (h : Alone s t .idle q) (hlength : q.length = 0) :
    ∃ s', Runs t (s.goto t (.popLock true)) s' ∧ s'.pc t = .popAsleep ∧ s'.lock = none := by
  have hlocked : Runs t (s.goto t (.popLock true)) _ :=
    .single (.popLock (Function.update_self ..) h.lock)
  have hadded := hlocked.tail (.popAddWaiting (Function.update_self ..))
  have htested := hadded.tail (.popLoadLength (Function.update_self ..))
  have hzero : s.length = 0 := h.length.trans hlength
  have hasleep := htested.tail (.popWait (by simp [State.goto, hzero]))
  exact ⟨_, hasleep, Function.update_self .., rfl⟩

omit [DecidableEq ν] in
@[simp] theorem goto_goto (s : State τ ν) (t : τ) (pc pc' : Pc ν) :
    (s.goto t pc).goto t pc' = s.goto t pc' := by
  simp [State.goto]

/-- A round of the loop, up to the store to `out_queue`. -/
theorem link_runs {head : ν} (hpc : s.pc t = .popLoadNext head) :
    Runs t s { s.goto t (.popStoreOut head (s.next head)) with
      next := Function.update s.next head s.outQueue } := by
  have hnext : Runs t s _ := .single (.popLoadNext hpc)
  have hread := hnext.tail (.popReadOut (Function.update_self ..))
  have hlinked := hread.tail (.popStoreNext (Function.update_self ..))
  simp only [goto_goto] at hlinked
  exact hlinked

/-- The loop that moves the nodes `head :: rest` in front of `done`. -/
theorem move_runs {head : ν} {rest done : List ν} (hpc : s.pc t = .popLoadNext head)
    (hrest : Chain s.next (s.next head) rest) (hdone : Chain s.next s.outQueue done)
    (hnodup : (head :: rest ++ done).Nodup) :
    ∃ next outQueue,
      Runs t s { s.goto t .popSubLength with next := next, outQueue := outQueue } ∧
        Chain next outQueue ((head :: rest).reverse ++ done) := by
  induction rest generalizing s head done with
  | nil =>
    have hlinked := link_runs hpc
    have hlast : s.next head = .null := hrest
    rw [hlast] at hlinked
    have hstored := hlinked.tail (.popStoreOutLast (Function.update_self ..))
    refine ⟨Function.update s.next head s.outQueue, .node head, ?_,
      hdone.push (List.nodup_cons.mp hnodup).1⟩
    simpa [State.goto] using hstored
  | cons n rest ih =>
    obtain ⟨hn, hrest'⟩ := hrest
    have hlinked := link_runs hpc
    rw [hn] at hlinked
    have hstored : Runs t s { s.goto t (.popLoadNext n) with
        next := Function.update s.next head s.outQueue, outQueue := .node head } := by
      have := hlinked.tail (.popStoreOut (Function.update_self ..))
      simpa [State.goto] using this
    have hhead := (List.nodup_cons.mp hnodup).1
    have hhead' : head ∉ done := fun h => hhead (List.mem_append_right _ h)
    have hnext : head ∉ n :: rest := fun h => hhead (List.mem_append_left _ h)
    have hchain : Chain s.next (.node n) (n :: rest) := ⟨rfl, hrest'⟩
    have hnodup' : (n :: rest ++ head :: done).Nodup := List.perm_middle.symm.nodup hnodup
    obtain ⟨next, outQueue, hruns, hdone'⟩ := ih
      (s := { s.goto t (.popLoadNext n) with
        next := Function.update s.next head s.outQueue, outQueue := .node head })
      (Function.update_self ..) (hchain.update hnext s.outQueue).2 (hdone.push hhead') hnodup'
    refine ⟨next, outQueue, ?_, by simpa using hdone'⟩
    have hall := hstored.trans hruns
    simpa [State.goto] using hall

theorem Alone.transfer (h : Alone s t .popLoadOut q) :
    ∃ s', Runs t s s' ∧ Alone s' t .popSubLength q.transfer ∧ s'.returned = s.returned := by
  have htested : Runs t s _ := .single (.popLoadOut h.pc_self)
  have hin := h.inQueue
  have hout := h.outQueue
  have hnodup := h.nodup
  have howner := h.owner
  cases hq : q.outQueue with
  | cons head next =>
    have htransfer : q.transfer = q := by simp [Queue.transfer, hq]
    have hne : s.outQueue = .node head := by
      rw [hq] at hout
      exact hout.1
    rw [if_neg (by simp [hne])] at htested
    rw [htransfer]
    refine ⟨_, htested, ⟨h.lock, ?_, h.waiting, h.length, hin, hout, hnodup, howner⟩, rfl⟩
    simp [State.goto, h.pc]
  | nil =>
    rw [hq] at hout
    rw [hq, List.append_nil] at hnodup howner
    rw [if_pos (show s.outQueue = .null from hout)] at htested
    have htransfer : q.transfer = { q with inQueue := [], outQueue := q.inQueue.reverse } := by
      simp [Queue.transfer, hq]
    rw [htransfer]
    cases hq' : q.inQueue with
    | nil =>
      rw [hq'] at hin howner
      have hdone := htested.tail (.popLoadInNull (Function.update_self ..) hin)
      refine ⟨_, hdone, ⟨h.lock, ?_, h.waiting, h.length, hin, hout, List.nodup_nil, howner⟩, rfl⟩
      simp [State.goto, h.pc]
    | cons head rest =>
      rw [hq'] at hin hnodup howner
      have hloaded := htested.tail (.popLoadIn (Function.update_self ..) hin.1)
      have hswapped : Runs t s { s.goto t (.popLoadNext head) with inQueue := .null } := by
        have := hloaded.tail (.popCas (Function.update_self ..) hin.1)
        simpa [State.goto] using this
      obtain ⟨next, outQueue, hruns, hdone⟩ := move_runs
        (s := { s.goto t (.popLoadNext head) with inQueue := .null }) (Function.update_self ..)
        hin.2 hout (by rwa [List.append_nil])
      refine ⟨_, hswapped.trans hruns, ⟨h.lock, ?_, h.waiting, h.length, rfl, ?_,
        List.nodup_reverse.mpr hnodup, fun n hn => ?_⟩, rfl⟩
      · simp [State.goto, h.pc]
      · simpa using hdone
      · exact howner n fun hmem => hn (List.mem_reverse.mpr hmem)

theorem Alone.take (h : Alone s t .popSubLength q) :
    ∃ s', Runs t s s' ∧
      Alone s' t .idle { q with outQueue := q.outQueue.tail, length := q.length - 1 } ∧
      s'.returned t = s.returned t ++ q.outQueue.head?.toList := by
  have hcounted : Runs t s _ := .single (.popSubLength h.pc_self)
  have hlength : s.length - 1 = q.length - 1 := congrArg (· - 1) h.length
  have hout := h.outQueue
  have hnodup := h.nodup
  have howner := h.owner
  cases hq : q.outQueue with
  | nil =>
    rw [hq] at hout hnodup howner
    have hloaded := hcounted.tail (.popLoadHeadNull (Function.update_self ..) hout)
    have hdone := hloaded.tail (.popUnlock (Function.update_self ..))
    refine ⟨_, hdone, ⟨rfl, ?_, h.waiting, hlength, h.inQueue, hout, hnodup, howner⟩,
      (List.append_nil _).symm⟩
    simp [State.goto, h.pc]
  | cons head next =>
    rw [hq] at hout hnodup howner
    have hloaded := hcounted.tail (.popLoadHead (Function.update_self ..) hout.1)
    have hnext := hloaded.tail (.popLoadHeadNext (Function.update_self ..))
    have htaken := hnext.tail (.popTake (Function.update_self ..))
    have hunlocked := htaken.tail (.popUnlock (Function.update_self ..))
    have hdone := hunlocked.tail (.popPoison (Function.update_self ..))
    obtain ⟨hhead, hrest⟩ := List.nodup_cons.mp (List.perm_middle.nodup hnodup)
    have hin : head ∉ q.inQueue := fun hn => hhead (List.mem_append_left _ hn)
    have hnext : head ∉ next := fun hn => hhead (List.mem_append_right _ hn)
    refine ⟨_, hdone, ⟨rfl, ?_, h.waiting, hlength, h.inQueue.update hin _,
      hout.2.update hnext _, hrest, fun n hn => ?_⟩, Function.update_self ..⟩
    · simp [State.goto, h.pc]
    · show Function.update (Function.update s.owner head (.held t)) head .free n = .free
      by_cases hne : n = head
      · rw [hne, Function.update_self]
      · rw [Function.update_of_ne hne, Function.update_of_ne hne]
        refine howner n fun hmem => ?_
        rcases List.mem_cons.mp (List.perm_middle.mem_iff.mp hmem) with heq | hmem
        · exact hne heq
        · exact hn hmem

/-- `stream_pop` without going to sleep. -/
theorem Alone.pop (h : Alone s t .idle q) {wait : Bool} (hwait : wait = true → q.length ≠ 0) :
    ∃ s', Runs t (s.goto t (.popLock wait)) s' ∧ Alone s' t .idle q.pop.2 ∧
      s'.returned t = s.returned t ++ q.pop.1.toList := by
  obtain ⟨s₁, hs₁, h₁, hreturned₁⟩ := h.begin hwait
  obtain ⟨s₂, hs₂, h₂, hreturned₂⟩ := h₁.transfer
  obtain ⟨s₃, hs₃, h₃, hreturned₃⟩ := h₂.take
  have hlength : q.transfer.length = q.length := by
    unfold Queue.transfer
    split <;> rfl
  have hpop : q.pop = (q.transfer.outQueue.head?,
      { q.transfer with outQueue := q.transfer.outQueue.tail, length := q.length - 1 }) := by
    unfold Queue.pop
    split <;> rename_i hq <;> simp [hq]
  rw [hpop]
  rw [hlength] at h₃
  refine ⟨s₃, (hs₁.trans hs₂).trans hs₃, h₃, ?_⟩
  rw [hreturned₃, hreturned₂, hreturned₁]

/-! ## Any calls -/

theorem Reachable.runs {s s' : State τ ν} (h : Reachable s) (hruns : Runs t s s') :
    Reachable s' := by
  induction hruns with
  | refl => exact h
  | tail _ hstep ih => exact .step ih trivial hstep

inductive Op (ν : Type) where
  | enqueue (node : ν)
  | pop

def call (p : Queue ν × List ν) : Op ν → Queue ν × List ν
  | .enqueue node => (p.1.enqueue node, p.2)
  | .pop => (p.1.pop.2, p.2 ++ p.1.pop.1.toList)

/-- A node is enqueued only when it is not in the stream. -/
def Fresh (p : Queue ν × List ν) : Op ν → Prop
  | .enqueue node => node ∉ p.1.inQueue ++ p.1.outQueue
  | .pop => True

/-- Whatever one thread calls, the steps of the stream lead to the lists that the functions
compute, and return the nodes that they return. -/
theorem calls_run (t : τ) (next : ν → Ptr ν) {ops : List (Op ν)}
    (hops : Along call Fresh (.empty, []) ops) :
    ∃ s : State τ ν, Reachable s ∧ Alone s t .idle (ops.foldl call (.empty, [])).1 ∧
      s.returned t = (ops.foldl call (.empty, [])).2 := by
  refine Along.invariant (I := fun p => ∃ s : State τ ν, Reachable s ∧ Alone s t .idle p.1 ∧
    s.returned t = p.2) ?_ ?_ hops
  · rintro p op ⟨s, hs, h, hreturned⟩ hop
    cases op with
    | enqueue node =>
      obtain ⟨s', hruns, h', hkept⟩ := h.enqueue hop
      exact ⟨s', hs.runs hruns, h', hkept.trans hreturned⟩
    | pop =>
      have hcalled : Runs t s _ := .single (.pop false h.pc_self)
      obtain ⟨s', hruns, h', hpopped⟩ := h.pop fun hwait : false = true => nomatch hwait
      refine ⟨s', hs.runs (hcalled.trans hruns), h', ?_⟩
      rw [hpopped, hreturned]
      rfl
  · refine ⟨State.initial next, .initial next, ⟨rfl, ?_, rfl, rfl, rfl, rfl, List.nodup_nil,
      fun _ _ => rfl⟩, rfl⟩
    exact (Function.update_eq_self t fun _ => Pc.idle).symm

end Trtp.Stream
