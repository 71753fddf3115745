import Trtp.Stream.Basic

/-!
# The stream is a queue

`Rep s q` relates a state of the stream to the three lists it stands for: the nodes
pushed on `in_queue`, newest first; the segment that a consumer is reversing; and
`out_queue`, oldest first.  Every step keeps such a `q` (`rep_step`), and the nodes
taken, followed by those of `q` in their order, are the nodes enqueued.

A compare-and-swap that succeeds on a pointer which has been away and come back
does no harm: a producer only needs `in_queue` to be what it wrote to `next`, and a
consumer takes whatever list starts at `in_queue` at that moment.
-/

namespace Trtp.Stream

open Lib

variable {τ ν : Type}

structure Lists (ν : Type) where
  incoming : List ν
  segment : List ν
  outgoing : List ν

namespace Lists

def all (q : Lists ν) : List ν := q.incoming ++ (q.segment ++ q.outgoing)

/-- The abstract queue, oldest node first. -/
def queue (q : Lists ν) : List ν := q.segment.reverse ++ (q.outgoing ++ q.incoming.reverse)

end Lists

/-- What thread `t` knows at a point of its program. -/
def PcOk (s : State τ ν) (q : Lists ν) (t : τ) : Pc ν → Prop
  | .enqLoadIn node => s.owner node = .held t
  | .enqStoreNext node _ => s.owner node = .held t
  | .enqCas node inQueue => s.owner node = .held t ∧ s.next node = inQueue
  | .popAddWaiting _ => q.segment = []
  | .popLoadLength _ => q.segment = []
  | .popWait => q.segment = []
  | .popSubWaiting => q.segment = []
  | .popLoadOut => q.segment = []
  | .popLoadIn => q.segment = [] ∧ q.outgoing = []
  | .popCas _ => q.segment = [] ∧ q.outgoing = []
  | .popLoadNext head => ∃ rest, q.segment = head :: rest ∧ Chain s.next (s.next head) rest
  | .popReadOut head next => ∃ rest, q.segment = head :: rest ∧ Chain s.next next rest
  | .popStoreNext head next outQueue =>
    (∃ rest, q.segment = head :: rest ∧ Chain s.next next rest) ∧ s.outQueue = outQueue
  | .popStoreOut head next =>
    (∃ rest, q.segment = head :: rest ∧ Chain s.next next rest) ∧ s.next head = s.outQueue
  | .popSubLength => q.segment = []
  | .popLoadHead => q.segment = []
  | .popLoadHeadNext head => q.segment = [] ∧ s.outQueue = .node head
  | .popTake head next => q.segment = [] ∧ s.outQueue = .node head ∧ s.next head = next
  | .popUnlock none => q.segment = []
  | .popUnlock (some head) => q.segment = [] ∧ s.owner head = .held t
  | .popPoison head => s.owner head = .held t
  | _ => True

/-- The state stands for the lists of `q`. -/
structure Rep (s : State τ ν) (q : Lists ν) : Prop where
  incoming : Chain s.next s.inQueue q.incoming
  outgoing : Chain s.next s.outQueue q.outgoing
  nodup : q.all.Nodup
  queued : ∀ n, s.owner n = .queued ↔ n ∈ q.all
  mutex : ∀ t, s.lock = some t ↔ (s.pc t).critical = true
  unlocked : s.lock = none → q.segment = []
  threads : ∀ t, PcOk s q t (s.pc t)
  fifo : s.enqueued = s.taken.map Prod.snd ++ q.queue

namespace Rep

variable {s s' : State τ ν} {q q' : Lists ν} {t u : τ} {pc : Pc ν}

theorem initial (next : ν → Ptr ν) :
    Rep (State.initial next : State τ ν) { incoming := [], segment := [], outgoing := [] } where
  incoming := rfl
  outgoing := rfl
  nodup := List.nodup_nil
  queued _ := ⟨nofun, nofun⟩
  mutex _ := ⟨nofun, nofun⟩
  unlocked _ := rfl
  threads _ := trivial
  fifo := rfl

theorem pcOk (h : Rep s q) (hpc : s.pc t = pc) : PcOk s q t pc := by
  rw [← hpc]
  exact h.threads t

theorem locked (h : Rep s q) (hc : (s.pc t).critical = true) : s.lock ≠ none := by
  rw [(h.mutex t).mpr hc]
  exact Option.some_ne_none t

theorem segment_queued (h : Rep s q) {n : ν} (hn : n ∈ q.segment) : s.owner n = .queued := by
  rw [h.queued, Lists.all]
  simp [hn]

theorem outgoing_queued (h : Rep s q) {n : ν} (hn : n ∈ q.outgoing) : s.owner n = .queued := by
  rw [h.queued, Lists.all]
  simp [hn]

theorem head_queued (h : Rep s q) {n : ν} (hn : s.outQueue = .node n) : s.owner n = .queued := by
  have hout := h.outgoing
  rw [hn] at hout
  obtain ⟨rest, hq, -⟩ := hout.of_node
  apply h.outgoing_queued
  rw [hq]
  exact List.mem_cons_self

/-! ## Threads that do not move -/

/-- A thread outside of the critical section knows only about the node it holds. -/
theorem frame_held (h : Rep s q) (hc : (s.pc u).critical = false)
    (howner : ∀ n, s.owner n = .held u → s'.owner n = .held u)
    (hnext : ∀ n, s.owner n = .held u → s'.next n = s.next n) : PcOk s' q' u (s.pc u) := by
  have hu := h.threads u
  cases hpc : s.pc u <;> rw [hpc] at hu hc
  case enqLoadIn node => exact howner node hu
  case enqStoreNext node inQueue => exact howner node hu
  case enqCas node inQueue => exact ⟨howner node hu.1, (hnext node hu.1).trans hu.2⟩
  case popPoison head => exact howner head hu
  all_goals trivial

theorem frame (h : Rep s q) (hseg : q'.segment = q.segment) (hout : q'.outgoing = q.outgoing)
    (houtQueue : s'.outQueue = s.outQueue)
    (howner : ∀ n, s.owner n = .held u → s'.owner n = .held u)
    (hnext : ∀ n, s.owner n = .held u ∨ s.owner n = .queued → s'.next n = s.next n) :
    PcOk s' q' u (s.pc u) := by
  have hchain : ∀ head p, (∃ rest, q.segment = head :: rest ∧ Chain s.next p rest) →
      ∃ rest, q'.segment = head :: rest ∧ Chain s'.next p rest := by
    intro head p hex
    obtain ⟨rest, hq, hc⟩ := hex
    refine ⟨rest, hseg.trans hq, hc.congr fun n hn => hnext n (.inr (h.segment_queued ?_))⟩
    rw [hq]
    exact List.mem_cons_of_mem head hn
  have hfirst : ∀ head p, (∃ rest, q.segment = head :: rest ∧ Chain s.next p rest) →
      s'.next head = s.next head := by
    intro head p hex
    obtain ⟨rest, hq, -⟩ := hex
    apply hnext head (.inr (h.segment_queued ?_))
    rw [hq]
    exact List.mem_cons_self
  cases hcrit : (s.pc u).critical with
  | false => exact h.frame_held hcrit howner fun n hn => hnext n (.inl hn)
  | true =>
    have hu := h.threads u
    cases hpc : s.pc u <;> rw [hpc] at hu hcrit
    case popLoadIn => exact ⟨hseg.trans hu.1, hout.trans hu.2⟩
    case popCas => exact ⟨hseg.trans hu.1, hout.trans hu.2⟩
    case popLoadNext head =>
      have := hchain head _ hu
      rwa [← hfirst head _ hu] at this
    case popReadOut head next => exact hchain head next hu
    case popStoreNext head next outQueue => exact ⟨hchain head next hu.1, houtQueue.trans hu.2⟩
    case popStoreOut head next =>
      exact ⟨hchain head next hu.1, (hfirst head next hu.1).trans (hu.2.trans houtQueue.symm)⟩
    case popLoadHeadNext head => exact ⟨hseg.trans hu.1, houtQueue.trans hu.2⟩
    case popTake head next =>
      obtain ⟨h1, h2, h3⟩ := hu
      exact ⟨hseg.trans h1, houtQueue.trans h2, (hnext head (.inr (h.head_queued h2))).trans h3⟩
    case popUnlock head =>
      cases head with
      | none => exact hseg.trans hu
      | some head => exact ⟨hseg.trans hu.1, howner head hu.2⟩
    all_goals first
      | exact hseg.trans hu
      | cases hcrit

theorem not_critical (h : Rep s q) (ht : (s.pc t).critical = true) (hu : u ≠ t) :
    (s.pc u).critical = false := by
  rw [Bool.eq_false_iff]
  intro hc
  have h1 := (h.mutex t).mpr ht
  have h2 := (h.mutex u).mpr hc
  rw [h1] at h2
  exact hu (Option.some.inj h2).symm

theorem not_mem_of_held (h : Rep s q) {node : ν} (hn : s.owner node = .held t) : node ∉ q.all := by
  rw [← h.queued, hn]
  exact nofun

theorem held_ne {node : ν} (hn : s.owner node = .held t) (hu : u ≠ t) : s.owner node ≠ .held u := by
  rw [hn]
  intro he
  exact hu (Owner.held.inj he).symm

section Update

variable [DecidableEq ν] {node : ν}

theorem chain_update_of_held (h : Rep s q) (hn : s.owner node = .held t) (x : Ptr ν) :
    Chain (Function.update s.next node x) s.inQueue q.incoming ∧
      Chain (Function.update s.next node x) s.outQueue q.outgoing := by
  have hmem := h.not_mem_of_held hn
  simp only [Lists.all, List.mem_append, not_or] at hmem
  exact ⟨h.incoming.update hmem.1 x, h.outgoing.update hmem.2.2 x⟩

theorem update_next_ne (hn : s.owner node = .held t) (hu : u ≠ t) (x : Ptr ν) (m : ν)
    (hm : s.owner m = .held u ∨ s.owner m = .queued) :
    Function.update s.next node x m = s.next m := by
  apply Function.update_of_ne
  intro he
  rw [he, hn] at hm
  rcases hm with hm | hm
  · exact hu (Owner.held.inj hm).symm
  · cases hm

theorem update_owner_ne (hn : s.owner node ≠ .held u) (o : Owner τ) (m : ν)
    (hm : s.owner m = .held u) : Function.update s.owner node o m = .held u := by
  rw [Function.update_of_ne, hm]
  intro he
  rw [he] at hm
  exact hn hm

theorem queued_update (h : Rep s q) (hn : s.owner node ≠ .queued) {o : Owner τ} (ho : o ≠ .queued)
    (m : ν) : Function.update s.owner node o m = .queued ↔ m ∈ q.all := by
  by_cases hm : m = node
  · subst hm
    rw [Function.update_self, ← h.queued m]
    exact ⟨fun he => absurd he ho, fun he => absurd he hn⟩
  · rw [Function.update_of_ne hm, h.queued m]

end Update

variable [DecidableEq τ]

theorem threads_goto (hu : ∀ u, u ≠ t → PcOk s' q' u (s.pc u)) (ht : PcOk s' q' t pc) (u : τ) :
    PcOk s' q' u (Function.update s.pc t pc u) := by
  by_cases h : u = t
  · subst h
    rwa [Function.update_self]
  · rw [Function.update_of_ne h]
    exact hu u h

theorem mutex_goto (h : Rep s q) (hc : pc.critical = (s.pc t).critical) (u : τ) :
    s.lock = some u ↔ (Function.update s.pc t pc u).critical = true := by
  by_cases hut : u = t
  · subst hut
    rw [Function.update_self, hc]
    exact h.mutex u
  · rw [Function.update_of_ne hut]
    exact h.mutex u

/-! ## Steps that leave the lists alone -/

theorem goto (h : Rep s q) (hc : pc.critical = (s.pc t).critical) (hok : PcOk s q t pc) :
    Rep (s.goto t pc) q where
  incoming := h.incoming
  outgoing := h.outgoing
  nodup := h.nodup
  queued := h.queued
  mutex := h.mutex_goto hc
  unlocked := h.unlocked
  threads := threads_goto (fun u _ => h.threads u) hok
  fifo := h.fifo

theorem acquire (h : Rep s q) (hl : s.lock = none) (hc : pc.critical = true)
    (hok : PcOk s q t pc) : Rep { s.goto t pc with lock := some t } q where
  incoming := h.incoming
  outgoing := h.outgoing
  nodup := h.nodup
  queued := h.queued
  mutex u := by
    show some t = some u ↔ (Function.update s.pc t pc u).critical = true
    by_cases hu : u = t
    · subst hu
      simp [hc]
    · have hn : ¬ (s.pc u).critical = true := by
        rw [← h.mutex u, hl]
        simp
      rw [Function.update_of_ne hu, Option.some.injEq]
      exact ⟨fun he => absurd he.symm hu, fun he => absurd he hn⟩
  unlocked hn := by cases hn
  threads := threads_goto (fun u _ => h.threads u) hok
  fifo := h.fifo

theorem release (h : Rep s q) (ht : (s.pc t).critical = true) (hc : pc.critical = false)
    (hseg : q.segment = []) (hok : PcOk s q t pc) :
    Rep { s.goto t pc with lock := none } q where
  incoming := h.incoming
  outgoing := h.outgoing
  nodup := h.nodup
  queued := h.queued
  mutex u := by
    show none = some u ↔ (Function.update s.pc t pc u).critical = true
    by_cases hu : u = t
    · subst hu
      simp [hc]
    · rw [Function.update_of_ne hu, h.not_critical ht hu]
      simp
  unlocked _ := hseg
  threads := threads_goto (fun u _ => h.threads u) hok
  fifo := h.fifo

/-! ## Steps on a node of one's own -/

section Own

variable [DecidableEq ν] {node head : ν} {next : Ptr ν}

theorem enqueue (h : Rep s q) (hpc : s.pc t = .idle) (hn : s.owner node = .free) :
    Rep { s.goto t (.enqLoadIn node) with owner := Function.update s.owner node (.held t) } q where
  incoming := h.incoming
  outgoing := h.outgoing
  nodup := h.nodup
  queued := h.queued_update (by rw [hn]; exact nofun) nofun
  mutex := h.mutex_goto (by rw [hpc]; rfl)
  unlocked := h.unlocked
  threads := by
    refine threads_goto (fun u _ => h.frame rfl rfl rfl ?_ fun _ _ => rfl) ?_
    · exact update_owner_ne (by rw [hn]; exact nofun) _
    · exact Function.update_self ..
  fifo := h.fifo

theorem storeNext (h : Rep s q) (hpc : s.pc t = .enqStoreNext node next) :
    Rep { s.goto t (.enqCas node next) with next := Function.update s.next node next } q := by
  have hn : s.owner node = .held t := h.pcOk hpc
  exact
    { incoming := (h.chain_update_of_held hn next).1
      outgoing := (h.chain_update_of_held hn next).2
      nodup := h.nodup
      queued := h.queued
      mutex := h.mutex_goto (by rw [hpc]; rfl)
      unlocked := h.unlocked
      threads := threads_goto
        (fun u hu => h.frame rfl rfl rfl (fun _ hm => hm) (update_next_ne hn hu next))
        ⟨hn, Function.update_self ..⟩
      fifo := h.fifo }

theorem poison (h : Rep s q) (hpc : s.pc t = .popPoison head) :
    Rep { s.goto t .idle with
      next := Function.update s.next head .poison
      owner := Function.update s.owner head .free
      returned := Function.update s.returned t (s.returned t ++ [head]) } q := by
  have hn : s.owner head = .held t := h.pcOk hpc
  exact
    { incoming := (h.chain_update_of_held hn .poison).1
      outgoing := (h.chain_update_of_held hn .poison).2
      nodup := h.nodup
      queued := h.queued_update (by rw [hn]; exact nofun) nofun
      mutex := h.mutex_goto (by rw [hpc]; rfl)
      unlocked := h.unlocked
      threads := threads_goto
        (fun u hu => h.frame rfl rfl rfl (update_owner_ne (held_ne hn hu) _)
          (update_next_ne hn hu .poison)) trivial
      fifo := h.fifo }

/-- The compare-and-swap of a producer that succeeds. -/
theorem push (h : Rep s q) (hpc : s.pc t = .enqCas node next) (heq : s.inQueue = next) :
    Rep { s.goto t .enqAddLength with
      inQueue := .node node
      owner := Function.update s.owner node .queued
      enqueued := s.enqueued ++ [node] } { q with incoming := node :: q.incoming } := by
  obtain ⟨hn, hnext⟩ : s.owner node = .held t ∧ s.next node = next := h.pcOk hpc
  exact
    { incoming := by
        refine ⟨rfl, ?_⟩
        show Chain s.next (s.next node) q.incoming
        rw [hnext, ← heq]
        exact h.incoming
      outgoing := h.outgoing
      nodup := List.nodup_cons.mpr ⟨h.not_mem_of_held hn, h.nodup⟩
      queued := by
        intro m
        show Function.update s.owner node .queued m = .queued ↔ m ∈ node :: q.all
        by_cases hm : m = node
        · subst hm
          simp
        · rw [Function.update_of_ne hm, h.queued m, List.mem_cons]
          exact ⟨.inr, fun he => he.resolve_left hm⟩
      mutex := h.mutex_goto (by rw [hpc]; rfl)
      unlocked := h.unlocked
      threads := threads_goto
        (fun u hu => h.frame rfl rfl rfl (update_owner_ne (held_ne hn hu) _) fun _ _ => rfl) trivial
      fifo := by
        show s.enqueued ++ [node] =
          s.taken.map Prod.snd ++ Lists.queue { q with incoming := node :: q.incoming }
        rw [h.fifo]
        simp [Lists.queue] }

end Own

/-! ## Steps under the lock -/

section Locked

variable {head : ν} {next : Ptr ν}

theorem steal (h : Rep s q) (hpc : s.pc t = .popCas head) (heq : s.inQueue = .node head) :
    Rep { s.goto t (.popLoadNext head) with inQueue := .null }
      { incoming := [], segment := q.incoming, outgoing := q.outgoing } := by
  obtain ⟨hseg, hout⟩ : q.segment = [] ∧ q.outgoing = [] := h.pcOk hpc
  have hin := h.incoming
  rw [heq] at hin
  obtain ⟨rest, hq, hrest⟩ := hin.of_node
  have hall :
      Lists.all { incoming := [], segment := q.incoming, outgoing := q.outgoing } = q.all := by
    simp [Lists.all, hseg]
  have hc : (s.pc t).critical = true := by rw [hpc]; rfl
  exact
    { incoming := rfl
      outgoing := h.outgoing
      nodup := by rw [hall]; exact h.nodup
      queued := by rw [hall]; exact h.queued
      mutex := h.mutex_goto (by rw [hpc]; rfl)
      unlocked := fun hn => absurd hn (h.locked hc)
      threads := threads_goto
        (fun u hu => h.frame_held (h.not_critical hc hu) (fun _ hm => hm) fun _ _ => rfl)
        ⟨rest, hq, hrest⟩
      fifo := by
        show s.enqueued = s.taken.map Prod.snd ++ _
        rw [h.fifo]
        simp [Lists.queue, hseg, hout] }

theorem relink [DecidableEq ν] (h : Rep s q) {outQueue : Ptr ν}
    (hpc : s.pc t = .popStoreNext head next outQueue) :
    Rep { s.goto t (.popStoreOut head next) with
      next := Function.update s.next head outQueue } q := by
  obtain ⟨⟨rest, hq, hrest⟩, hout⟩ :
      (∃ rest, q.segment = head :: rest ∧ Chain s.next next rest) ∧ s.outQueue = outQueue :=
    h.pcOk hpc
  have hnd := h.nodup
  simp only [Lists.all, hq, List.cons_append, List.nodup_append, List.nodup_cons, List.mem_append,
    List.mem_cons, not_or] at hnd
  obtain ⟨-, ⟨⟨hnrest, hnout⟩, -⟩, hdisj⟩ := hnd
  have hnin : head ∉ q.incoming := fun hm => hdisj head hm head (.inl rfl) rfl
  have hc : (s.pc t).critical = true := by rw [hpc]; rfl
  have hqueued : s.owner head = .queued := h.segment_queued (by rw [hq]; exact List.mem_cons_self)
  exact
    { incoming := h.incoming.update hnin outQueue
      outgoing := h.outgoing.update hnout outQueue
      nodup := h.nodup
      queued := h.queued
      mutex := h.mutex_goto (by rw [hpc]; rfl)
      unlocked := h.unlocked
      threads := by
        refine threads_goto (fun u hu => h.frame_held (h.not_critical hc hu) (fun _ hm => hm) ?_)
          ⟨⟨rest, hq, hrest.update hnrest outQueue⟩, ?_⟩
        · intro m hm
          apply Function.update_of_ne
          intro he
          rw [he, hqueued] at hm
          cases hm
        · exact (Function.update_self ..).trans hout.symm
      fifo := h.fifo }

theorem moveOut (h : Rep s q) (hpc : s.pc t = .popStoreOut head next) (hcrit : pc.critical = true)
    (hok : ∀ rest, q.segment = head :: rest → Chain s.next next rest →
      PcOk { s.goto t pc with outQueue := .node head }
        { q with segment := rest, outgoing := head :: q.outgoing } t pc) :
    ∃ q', Rep { s.goto t pc with outQueue := .node head } q' := by
  obtain ⟨⟨rest, hq, hrest⟩, hlink⟩ :
      (∃ rest, q.segment = head :: rest ∧ Chain s.next next rest) ∧ s.next head = s.outQueue :=
    h.pcOk hpc
  have hc : (s.pc t).critical = true := by rw [hpc]; rfl
  have hperm :
      (Lists.all { q with segment := rest, outgoing := head :: q.outgoing }).Perm q.all := by
    simp only [Lists.all, hq, List.cons_append]
    exact List.Perm.append_left _ List.perm_middle
  refine ⟨{ q with segment := rest, outgoing := head :: q.outgoing },
    { incoming := h.incoming
      outgoing := by
        refine ⟨rfl, ?_⟩
        show Chain s.next (s.next head) q.outgoing
        rw [hlink]
        exact h.outgoing
      nodup := hperm.nodup_iff.mpr h.nodup
      queued := fun n => by rw [hperm.mem_iff]; exact h.queued n
      mutex := h.mutex_goto (by rw [hc, hcrit])
      unlocked := fun hn => absurd hn (h.locked hc)
      threads := threads_goto
        (fun u hu => h.frame_held (h.not_critical hc hu) (fun _ hm => hm) fun _ _ => rfl)
        (hok rest hq hrest)
      fifo := by
        show s.enqueued = s.taken.map Prod.snd ++ _
        rw [h.fifo]
        simp [Lists.queue, hq] }⟩

theorem take [DecidableEq ν] (h : Rep s q) (hpc : s.pc t = .popTake head next) :
    ∃ q', Rep { s.goto t (.popUnlock (some head)) with
      outQueue := next
      owner := Function.update s.owner head (.held t)
      taken := s.taken ++ [(t, head)] } q' := by
  obtain ⟨hseg, hout, hnext⟩ :
      q.segment = [] ∧ s.outQueue = .node head ∧ s.next head = next := h.pcOk hpc
  have hchain := h.outgoing
  rw [hout] at hchain
  obtain ⟨rest, hq, hrest⟩ := hchain.of_node
  have hc : (s.pc t).critical = true := by rw [hpc]; rfl
  have hqueued : s.owner head = .queued := h.head_queued hout
  have hperm : q.all.Perm (head :: (q.incoming ++ rest)) := by
    simp only [Lists.all, hseg, hq, List.nil_append]
    exact List.perm_middle
  have hnd := hperm.nodup_iff.mp h.nodup
  refine ⟨{ q with outgoing := rest },
    { incoming := h.incoming
      outgoing := by rw [← hnext]; exact hrest
      nodup := by
        simp only [Lists.all, hseg, List.nil_append]
        exact (List.nodup_cons.mp hnd).2
      queued := fun n => ?_
      mutex := h.mutex_goto (by rw [hc]; rfl)
      unlocked := fun _ => hseg
      threads := threads_goto
        (fun u hu => h.frame_held (h.not_critical hc hu)
          (update_owner_ne (by rw [hqueued]; exact nofun) _) fun _ _ => rfl)
        ⟨hseg, Function.update_self ..⟩
      fifo := by
        show s.enqueued = (s.taken ++ [(t, head)]).map Prod.snd ++ _
        rw [h.fifo]
        simp [Lists.queue, hseg, hq] }⟩
  show Function.update s.owner head (.held t) n = .queued ↔
    n ∈ q.incoming ++ (q.segment ++ rest)
  rw [hseg, List.nil_append]
  by_cases hn : n = head
  · subst hn
    rw [Function.update_self]
    exact ⟨fun he => (nomatch he), fun hm => absurd hm (List.nodup_cons.mp hnd).1⟩
  · rw [Function.update_of_ne hn, h.queued n, hperm.mem_iff, List.mem_cons]
    exact ⟨fun he => he.resolve_left hn, .inr⟩

end Locked

end Rep

variable [DecidableEq τ] [DecidableEq ν] {s s' : State τ ν} {q : Lists ν} {t : τ}

/-- Every step of every thread leads to a state that stands for a queue. -/
theorem rep_step (h : Rep s q) (hs : Step s t s') : ∃ q', Rep s' q' := by
  cases hs with
  | enqueue node hpc hn => exact ⟨q, h.enqueue hpc hn⟩
  | enqLoadIn hpc =>
    have ht := h.pcOk hpc
    exact ⟨q, h.goto (by rw [hpc]; rfl) ht⟩
  | enqStoreNext hpc => exact ⟨q, h.storeNext hpc⟩
  | enqCas hpc heq => exact ⟨_, h.push hpc heq⟩
  | enqCasFail hpc hne =>
    have ht := h.pcOk hpc
    exact ⟨q, h.goto (by rw [hpc]; rfl) ht.1⟩
  | enqAddLength hpc =>
    have : Rep (s.goto t .enqLoadWaiting) q := h.goto (by rw [hpc]; rfl) trivial
    exact ⟨q, { this with }⟩
  | enqLoadWaiting hpc =>
    refine ⟨q, h.goto ?_ ?_⟩
    · rw [hpc]
      split <;> rfl
    · split <;> trivial
  | enqSignal hpc hu =>
    rename_i u
    have h1 : Rep (s.goto t .idle) q := h.goto (by rw [hpc]; rfl) trivial
    refine ⟨q, h1.goto ?_ trivial⟩
    show _ = (Function.update s.pc t .idle u).critical
    rw [Function.update_of_ne (ne_of_asleep hpc hu), hu]
    rfl
  | enqSignalLost hpc hnone => exact ⟨q, h.goto (by rw [hpc]; rfl) trivial⟩
  | pop wait hpc => exact ⟨q, h.goto (by rw [hpc]; rfl) trivial⟩
  | popLock hpc hl => exact ⟨q, h.acquire hl rfl (h.unlocked hl)⟩
  | popAddWaiting hpc =>
    rename_i wait
    have ht := h.pcOk hpc
    have : Rep (s.goto t (.popLoadLength wait)) q := h.goto (by rw [hpc]; rfl) ht
    exact ⟨q, { this with }⟩
  | popLoadLength hpc =>
    have ht := h.pcOk hpc
    refine ⟨q, h.goto ?_ ?_⟩
    · rw [hpc]
      split <;> rfl
    · split <;> exact ht
  | popWait hpc =>
    have ht := h.pcOk hpc
    exact ⟨q, h.release (by rw [hpc]; rfl) rfl ht trivial⟩
  | popRelock hpc hl => exact ⟨q, h.acquire hl rfl (h.unlocked hl)⟩
  | popSubWaiting hpc =>
    have ht := h.pcOk hpc
    have : Rep (s.goto t .popLoadOut) q := h.goto (by rw [hpc]; rfl) ht
    exact ⟨q, { this with }⟩
  | popLoadOut hpc =>
    have ht := h.pcOk hpc
    refine ⟨q, h.goto ?_ ?_⟩
    · rw [hpc]
      split <;> rfl
    · split
      · rename_i hout
        have hchain := h.outgoing
        rw [hout] at hchain
        exact ⟨ht, chain_null_iff.mp hchain⟩
      · exact ht
  | popLoadIn hpc hh =>
    have ht := h.pcOk hpc
    exact ⟨q, h.goto (by rw [hpc]; rfl) ht⟩
  | popLoadInNull hpc hh =>
    have ht := h.pcOk hpc
    exact ⟨q, h.goto (by rw [hpc]; rfl) ht.1⟩
  | popCas hpc heq => exact ⟨_, h.steal hpc heq⟩
  | popCasFail hpc hne =>
    have ht := h.pcOk hpc
    exact ⟨q, h.goto (by rw [hpc]; rfl) ht⟩
  | popLoadNext hpc =>
    have ht := h.pcOk hpc
    exact ⟨q, h.goto (by rw [hpc]; rfl) ht⟩
  | popReadOut hpc =>
    have ht := h.pcOk hpc
    exact ⟨q, h.goto (by rw [hpc]; rfl) ⟨ht, rfl⟩⟩
  | popStoreNext hpc => exact ⟨q, h.relink hpc⟩
  | popStoreOut hpc =>
    refine h.moveOut hpc rfl fun rest hq hrest => ?_
    obtain ⟨rest', hr, hchain⟩ := hrest.of_node
    exact ⟨rest', hr, hchain⟩
  | popStoreOutLast hpc =>
    exact h.moveOut hpc rfl fun rest hq hrest => chain_null_iff.mp hrest
  | popSubLength hpc =>
    have ht := h.pcOk hpc
    have : Rep (s.goto t .popLoadHead) q := h.goto (by rw [hpc]; rfl) ht
    exact ⟨q, { this with }⟩
  | popLoadHead hpc hh =>
    have ht := h.pcOk hpc
    exact ⟨q, h.goto (by rw [hpc]; rfl) ⟨ht, hh⟩⟩
  | popLoadHeadNull hpc hh =>
    have ht := h.pcOk hpc
    exact ⟨q, h.goto (by rw [hpc]; rfl) ht⟩
  | popLoadHeadNext hpc =>
    have ht := h.pcOk hpc
    exact ⟨q, h.goto (by rw [hpc]; rfl) ⟨ht.1, ht.2, rfl⟩⟩
  | popTake hpc => exact h.take hpc
  | popUnlock hpc =>
    rename_i head
    have ht := h.pcOk hpc
    cases head with
    | none => exact ⟨q, h.release (by rw [hpc]; rfl) rfl ht trivial⟩
    | some head => exact ⟨q, h.release (by rw [hpc]; rfl) rfl ht.1 ht.2⟩
  | popPoison hpc => exact ⟨q, h.poison hpc⟩

theorem rep_of_reachable (h : Reachable s) : ∃ q, Rep s q := by
  induction h with
  | initial next => exact ⟨_, Rep.initial next⟩
  | step _ _ hs ih =>
    obtain ⟨q, hq⟩ := ih
    exact rep_step hq hs

/-! ## What the calls return -/

/-- The node a call of `stream_pop` has taken and not returned yet. -/
def Pc.inFlight : Pc ν → List ν
  | .popUnlock (some head) => [head]
  | .popPoison head => [head]
  | _ => []

/-- The nodes a thread has taken are those its calls have returned, and the one in
flight. -/
def Returns (s : State τ ν) : Prop :=
  ∀ t, (s.taken.filter fun x => x.1 = t).map Prod.snd = s.returned t ++ (s.pc t).inFlight

omit [DecidableEq ν] in
theorem Returns.goto {pc : Pc ν} (h : Returns s) (hpc : pc.inFlight = (s.pc t).inFlight) :
    Returns (s.goto t pc) := by
  intro u
  have := h u
  by_cases hu : u = t
  · subst hu
    show _ = s.returned u ++ (Function.update s.pc u pc u).inFlight
    rwa [Function.update_self, hpc]
  · show _ = s.returned u ++ (Function.update s.pc t pc u).inFlight
    rwa [Function.update_of_ne hu]

theorem returns_step (h : Returns s) (hs : Step s t s') : Returns s' := by
  cases hs with
  | popTake hpc =>
    rename_i head next
    intro u
    have hu := h u
    show ((s.taken ++ [(t, head)]).filter fun x => x.1 = u).map Prod.snd =
      s.returned u ++ (Function.update s.pc t (.popUnlock (some head)) u).inFlight
    rw [List.filter_append, List.map_append, hu]
    by_cases hut : u = t
    · subst hut
      simp [hpc, Pc.inFlight]
    · simp [hut, Ne.symm hut]
  | popPoison hpc =>
    rename_i head
    intro u
    have hu := h u
    show _ = Function.update s.returned t (s.returned t ++ [head]) u ++
      (Function.update s.pc t .idle u).inFlight
    by_cases hut : u = t
    · subst hut
      rw [Function.update_self, Function.update_self]
      rw [hpc] at hu
      exact hu.trans (List.append_nil _).symm
    · rw [Function.update_of_ne hut, Function.update_of_ne hut]
      exact hu
  | enqLoadWaiting hpc =>
    apply h.goto
    rw [hpc]
    split <;> rfl
  | popLoadLength hpc =>
    apply h.goto
    rw [hpc]
    split <;> rfl
  | popLoadOut hpc =>
    apply h.goto
    rw [hpc]
    split <;> rfl
  | popUnlock hpc =>
    rename_i head
    have : Returns (s.goto t (head.elim .idle .popPoison)) := by
      apply h.goto
      rw [hpc]
      cases head <;> rfl
    exact this
  | enqSignal hpc hu =>
    rename_i u
    have h1 : Returns (s.goto t .idle) := h.goto (by rw [hpc]; rfl)
    apply h1.goto
    show _ = (Function.update s.pc t .idle u).inFlight
    rw [Function.update_of_ne (ne_of_asleep hpc hu), hu]
    rfl
  | _ => exact h.goto (by simp [*, Pc.inFlight])

theorem returns_of_reachable (h : Reachable s) : Returns s := by
  induction h with
  | initial next => exact fun _ => rfl
  | step _ _ hs ih => exact returns_step ih hs

/-- In every state that any number of threads can reach, the nodes taken are a prefix
of the nodes enqueued, and the rest is the queue: the segment being reversed, then
`out_queue`, then the reverse of `in_queue`. -/
theorem stream_fifo (s : State τ ν) (h : Reachable s) :
    s.taken.map Prod.snd <+: s.enqueued ∧
      (∃ q, Rep s q ∧ s.enqueued = s.taken.map Prod.snd ++
        (q.segment.reverse ++ (q.outgoing ++ q.incoming.reverse))) ∧
      ∀ t, (s.taken.filter fun x => x.1 = t).map Prod.snd = s.returned t ++ (s.pc t).inFlight := by
  obtain ⟨q, hq⟩ := rep_of_reachable h
  exact ⟨⟨q.queue, hq.fifo.symm⟩, ⟨q, hq, hq.fifo⟩, returns_of_reachable h⟩

/-- A producer enqueues a node, a consumer takes it and is about to return it. -/
theorem stream_fifo_oneNode :
    ∃ s : State Bool Unit, Reachable s ∧ s.enqueued = [()] ∧ s.taken = [(false, ())] ∧
      s.taken.map Prod.snd <+: s.enqueued := by
  have h : Reachable (State.initial fun _ => .poison : State Bool Unit) := .initial _
  replace h := h.step trivial (.enqueue (t := true) () rfl rfl)
  replace h := h.step trivial (.enqLoadIn (t := true) rfl)
  replace h := h.step trivial (.enqStoreNext (t := true) rfl)
  replace h := h.step trivial (.enqCas (t := true) rfl rfl)
  replace h := h.step trivial (.pop (t := false) true rfl)
  replace h := h.step trivial (.enqAddLength (t := true) rfl)
  replace h := h.step trivial (.popLock (t := false) rfl rfl)
  replace h := h.step trivial (.popAddWaiting (t := false) rfl)
  replace h := h.step trivial (.popLoadLength (t := false) rfl)
  replace h := h.step trivial (.popSubWaiting (t := false) rfl)
  replace h := h.step trivial (.popLoadOut (t := false) rfl)
  replace h := h.step trivial (.popLoadIn (t := false) rfl rfl)
  replace h := h.step trivial (.popCas (t := false) rfl rfl)
  replace h := h.step trivial (.popLoadNext (t := false) rfl)
  replace h := h.step trivial (.popReadOut (t := false) rfl)
  replace h := h.step trivial (.popStoreNext (t := false) rfl)
  replace h := h.step trivial (.popStoreOutLast (t := false) rfl)
  replace h := h.step trivial (.popSubLength (t := false) rfl)
  replace h := h.step trivial (.popLoadHead (t := false) rfl rfl)
  replace h := h.step trivial (.popLoadHeadNext (t := false) rfl)
  replace h := h.step trivial (.popTake (t := false) rfl)
  exact ⟨_, h, rfl, rfl, (stream_fifo _ h).1⟩

end Trtp.Stream
