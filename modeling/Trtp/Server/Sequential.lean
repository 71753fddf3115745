import Mathlib.Data.List.ReduceOption
import Trtp.Packet.Crc
import Trtp.Receiver.Dispatch
import Trtp.Server.Basic
import Trtp.Stream.Single

/-!
# The sequential mode

One thread receives a batch, calls `hd_run_once` as long as the counter of the stream says
that there are requests, and reaps at every tenth iteration.  `hd_run_once` pops without
waiting, and a pop decrements the counter whether or not it finds a node: a counter that
were once too high or too low would keep the inner loop from ending.

It is always the number of nodes.  The inner loop pops every request once, in the order in
which `rx_run_once` enqueued them, and ends with the stream empty; so nothing is pending
when clients are deallocated.
-/

namespace Trtp

open Lib

/-- The nodes of `rx_to_hd` are numbers of requests, or `none` for one without a request.
Of `hd_to_rx` only the nodes are kept, in `rx.pool`: it is popped without waiting, and
its counter is not read.  `freed` are the clients deallocated so far; it is not in the
code. -/
structure Sequential where
  rx : Rx
  rxToHd : Queue (Option ℕ)
  decoded : Packet
  exit : Bool
  cnt : ℕ
  freed : List ℕ

/-- What an iteration takes from its surroundings: the batch of `recvmmsg`, what the `k`-th
call of `hd_run_once` meets, and the time of the reaper. -/
structure Round where
  batch : List Arrival
  envs : ℕ → HdEnv ℕ
  now : ℕ

def Round.Allocates (round : Round) : Prop :=
  ∀ a ∈ round.batch, a.calloc = true ∧ a.initializeClient = true ∧ a.initializeNode = .ok

namespace Sequential

def receive (maxClients : ℕ) (s : Sequential) (batch : List Arrival) : Option Sequential :=
  match rxRunOnce maxClients s.rx batch with
  | .error _ => none
  | .ok rx =>
    some { s with
      rx := rx
      rxToHd := rx.sent.foldl (fun q node => q.enqueue (node.map Prod.fst)) s.rxToHd }

section

variable (crc : Crc) (cfg : HdCfg)

def handle (s : Sequential) (env : HdEnv ℕ) : Option (Option (HdReq ℕ)) × Sequential :=
  let (node, rxToHd) := s.rxToHd.pop
  let popped := node.map fun n => n.map s.rx.reqs
  let (hd, _, fate) := hdRunOnce crc cfg env popped
    { clients := s.rx.clients, decoded := s.decoded, exit := s.exit }
  (popped,
    { s with
      rx := { s.rx with
        clients := hd.clients
        pool := if fate = .recycled then s.rx.pool ++ node.toList else s.rx.pool }
      rxToHd := rxToHd
      decoded := hd.decoded
      exit := hd.exit })

/-- The inner loop, from its call `k` on, with what the calls have popped.  It stops after
`fuel` rounds. -/
def drain (envs : ℕ → HdEnv ℕ) : ℕ → ℕ → Sequential →
    Option (List (Option (Option (HdReq ℕ))) × Sequential)
  | 0, _, _ => none
  | fuel + 1, k, s =>
    if s.rxToHd.length ≠ 0 then do
      let (log, t) ← drain envs fuel (k + 1) (s.handle crc cfg (envs k)).2
      some ((s.handle crc cfg (envs k)).1 :: log, t)
    else some ([], s)

/-- The body of the loop over `client_to_remove`.  The transfer of the client has ended, so that
`deallocate_client` does not close its file. -/
def reapOne (s : Sequential) (client : ℕ) : Option Sequential := do
  let (_, freed, table) ← s.rx.table.remove (s.rx.clients client).address
  some { s with rx := { s.rx with table := table }, freed := s.freed ++ freed ++ [client] }

def toRemove (s : Sequential) (now : ℕ) : List ℕ :=
  if s.cnt % 10 = 0 then clientToRemove expiredSequential s.rx.table s.rx.clients now else []

def reap (s : Sequential) (now : ℕ) : Option Sequential := (s.toRemove now).foldlM reapOne s

def iterate (maxClients fuel : ℕ) (s : Sequential) (round : Round) : Option Sequential := do
  let s ← { s with cnt := s.cnt + 1 }.receive maxClients round.batch
  let (_, s) ← s.drain crc cfg round.envs fuel 0
  s.reap round.now

end

def initial : Sequential :=
  { rx := .initial, rxToHd := .empty, decoded := initPacket, exit := false, cnt := 0, freed := [] }

def pending (s : Sequential) : List (HdReq ℕ) :=
  s.rxToHd.nodes.filterMap fun node => node.map s.rx.reqs

end Sequential

/-! ## The requests of a batch -/

namespace Rx

variable {s s' : Rx} {a : Arrival} {client maxClients : ℕ}

def NoStop (s : Rx) : Prop := ∀ n, (s.reqs n).stop = false

theorem NoStop.update (h : s.NoStop) (n : ℕ) {req : HdReq ℕ} (hreq : req.stop = false) :
    ∀ k, (Function.update s.reqs n req k).stop = false :=
  (Function.forall_update_iff s.reqs fun _ req => req.stop = false).mpr ⟨hreq, fun k _ => h k⟩

theorem NoStop.openNode (h : s.NoStop) (n client : ℕ) : (s.openNode n client).NoStop :=
  h.update n (h n)

theorem NoStop.takeNode (h : s.NoStop) (a : Arrival) (client : ℕ) :
    (s.takeNode a client).NoStop := by
  unfold Rx.takeNode
  split
  · exact NoStop.openNode (s := { s with pool := _ }) h _ _
  · dsimp only
    split
    · refine NoStop.openNode (s := { s with pool := _, nextNode := _, reqs := _ }) ?_ _ _
      exact h.update _ rfl
    · exact h
    · exact h

theorem NoStop.copy (h : s.NoStop) (hcopy : s.copy a = .ok s') : s'.NoStop := by
  rcases copy_cases hcopy with rfl | ⟨n, req, hpush, rfl⟩
  · exact h
  · refine h.update n ?_
    rw [(HdReq.push_spec hpush).1]
    exact h n

theorem NoStop.serve (h : s.NoStop) (hserve : s.serve a client = .ok s') : s'.NoStop := by
  have htaken : (Rx.takeNode { s with contained := some client } a client).NoStop :=
    NoStop.takeNode (s := { s with contained := some client }) h a client
  rcases serve_cases hserve with rfl | hcopy
  · exact htaken
  · exact htaken.copy hcopy

theorem NoStop.enqueue (h : s.NoStop) : s.enqueue.NoStop := by
  rw [enqueue_eq]
  exact h

theorem NoStop.step (h : s.NoStop) (hstep : s.step maxClients a = .ok s') : s'.NoStop := by
  rcases step_cases hstep with rfl | ⟨t, rfl, hcopy | hlookup⟩
  · exact h
  · have ht : t.NoStop := h.copy hcopy
    exact ht
  · have hq := h.enqueue
    have ht : t.NoStop := by
      rcases lookup_cases hlookup with
        ⟨client, -, hserve⟩ | ⟨-, rfl⟩ |
          ⟨-, -, ⟨-, -, old, freed, table, -, hserve⟩ | ⟨-, hreqs, -⟩⟩
      · exact hq.serve hserve
      · exact hq
      · exact NoStop.serve (s := s.enqueue.withClient table a.address) hq hserve
      · intro n
        rw [hreqs]
        exact hq n
    exact ht

def taken (s : Rx) : ℕ := s.sent.length + s.node.toList.length

theorem enqueue_sent_length (s : Rx) : s.enqueue.sent.length = s.taken := by
  unfold Rx.enqueue taken
  split <;> rename_i h <;> simp [h]

theorem takeNode_sent (s : Rx) (a : Arrival) (client : ℕ) :
    (s.takeNode a client).sent = s.sent := by
  rcases takeNode_cases s a client with
    ⟨n, stop, pool, nextNode, htake, -⟩ | ⟨-, node, -, htake⟩
  · rw [htake]
    rfl
  · rw [htake]

theorem serve_taken (hserve : s.serve a client = .ok s') : s'.taken ≤ s.sent.length + 1 := by
  have hnode : ∀ o : Option (Option ℕ), o.toList.length ≤ 1 := by
    intro o
    cases o <;> simp
  have hsent : s'.sent = s.sent := by
    have htaken := takeNode_sent { s with contained := some client } a client
    rcases serve_cases hserve with rfl | hcopy
    · exact htaken
    · rcases copy_cases hcopy with rfl | ⟨n, req, -, rfl⟩ <;> exact htaken
  rw [taken, hsent]
  exact Nat.add_le_add_left (hnode _) _

theorem step_taken (hstep : s.step maxClients a = .ok s') : s'.taken ≤ s.taken + 1 := by
  rcases step_cases hstep with rfl | ⟨t, rfl, hcopy | hlookup⟩
  · exact Nat.le_succ _
  · show t.taken ≤ s.taken + 1
    rcases copy_cases hcopy with rfl | ⟨n, req, -, rfl⟩ <;> exact Nat.le_succ _
  · show t.taken ≤ s.taken + 1
    rw [← enqueue_sent_length s]
    have hnode := enqueue_node s
    rcases lookup_cases hlookup with
      ⟨client, -, hserve⟩ | ⟨-, rfl⟩ | ⟨-, -, ⟨-, -, old, freed, table, -, hserve⟩ | ⟨-, -, hn, hs⟩⟩
    · exact serve_taken hserve
    · simp [taken, hnode]
    · exact serve_taken (s := s.enqueue.withClient table a.address) hserve
    · simp [taken, hn, hs, hnode]

/-- The requests of a batch: none of them tells the handler to stop, and there are at most as
many as datagrams. -/
theorem NoStop.rxRunOnce (h : s.NoStop) {batch : List Arrival}
    (hrun : rxRunOnce maxClients s batch = .ok s') :
    s'.NoStop ∧ s'.sent.length ≤ batch.length := by
  unfold Trtp.rxRunOnce at hrun
  cases hfold : batch.foldlM (Rx.step maxClients) s.begin with
  | error fault =>
    rw [hfold] at hrun
    cases hrun
  | ok t =>
    rw [hfold] at hrun
    rw [← Except.ok.inj hrun]
    have hinv : t.NoStop ∧ t.taken ≤ 0 + batch.length := by
      refine foldlM_invariant (I := fun n (t : Rx) => t.NoStop ∧ t.taken ≤ n) ?_
        (s := s.begin) ⟨h, Nat.le_refl 0⟩ hfold
      intro n t a t' ht hstep
      exact ⟨ht.1.step hstep, (step_taken hstep).trans (Nat.succ_le_succ ht.2)⟩
    refine ⟨hinv.1.enqueue, ?_⟩
    rw [enqueue_sent_length]
    omega

end Rx

/-! ## The inner loop -/

namespace Sequential

variable (crc : Crc) (cfg : HdCfg) {s : Sequential} {n : ℕ} {ns : List ℕ}

/-- The nodes `ns` are in the stream, each with a request, and the counter is right. -/
structure Draining (s : Sequential) (ns : List ℕ) : Prop where
  nodes : s.rxToHd.nodes = ns.map some
  counted : s.rxToHd.Counted
  unlocked : s.rx.locked = false
  nodup : (s.rx.pool.reduceOption ++ ns).Nodup
  lt : ∀ n ∈ s.rx.pool.reduceOption ++ ns, n < s.rx.nextNode
  noStop : s.rx.NoStop

/-- The state after `k` calls of `hd_run_once`, the first of them being the `i`-th of the
loop. -/
def handles (crc : Crc) (cfg : HdCfg) (envs : ℕ → HdEnv ℕ) : ℕ → ℕ → Sequential → Sequential
  | _, 0, s => s
  | i, k + 1, s => handles crc cfg envs (i + 1) k (s.handle crc cfg (envs i)).2

theorem Draining.length_eq (h : s.Draining ns) : s.rxToHd.length = ns.length := by
  rw [h.counted, h.nodes, List.length_map]

theorem Draining.pending_eq (h : s.Draining ns) : s.pending = ns.map s.rx.reqs := by
  rw [pending, h.nodes, List.filterMap_map]
  simp

theorem Draining.handle_eq (h : s.Draining (n :: ns)) (env : HdEnv ℕ) :
    s.handle crc cfg env = (some (some (s.rx.reqs n)),
      let r := handleRequest crc cfg env.toEnv (s.rx.clients (s.rx.reqs n).client) s.decoded
        (s.rx.reqs n).datagrams
      { s with
        rx := { s.rx with
          clients := writeBack env.reuses s.rx.clients (s.rx.reqs n).client r.client
          pool := s.rx.pool ++ [some n] }
        rxToHd := s.rxToHd.pop.2
        decoded := r.decoded }) := by
  have hpop := (Queue.pop_spec h.nodes).1
  have hstop : ¬ (s.rx.reqs n).stop = true := by
    rw [h.noStop n]
    decide
  unfold handle
  dsimp only
  rw [hpop]
  simp [hdRunOnce, hstop]

theorem Draining.handle (h : s.Draining (n :: ns)) (env : HdEnv ℕ) :
    (s.handle crc cfg env).2.Draining ns := by
  obtain ⟨-, hnodes, hlength⟩ := Queue.pop_spec h.nodes
  have hperm : ((s.rx.pool ++ [some n]).reduceOption ++ ns).Perm
      (s.rx.pool.reduceOption ++ n :: ns) := by
    rw [List.reduceOption_append, List.append_assoc]
    rfl
  rw [h.handle_eq]
  refine ⟨hnodes, ?_, h.unlocked, hperm.symm.nodup h.nodup, fun k hk => ?_, h.noStop⟩
  · have hcount := h.length_eq
    show s.rxToHd.pop.2.length = s.rxToHd.pop.2.nodes.length
    rw [hlength, hnodes, List.length_map, hcount, List.length_cons]
    omega
  · exact h.lt k (hperm.subset hk)

theorem Draining.handles (h : s.Draining ns) (envs : ℕ → HdEnv ℕ) (i : ℕ) {k : ℕ}
    (hk : k ≤ ns.length) :
    (s.handles crc cfg envs i k).Draining (ns.drop k) ∧
      (s.handles crc cfg envs i k).rx.reqs = s.rx.reqs ∧
      (s.handles crc cfg envs i k).rx.table = s.rx.table ∧
      (s.handles crc cfg envs i k).freed = s.freed := by
  induction k generalizing s ns i with
  | zero => exact ⟨h, rfl, rfl, rfl⟩
  | succ k ih =>
    cases ns with
    | nil => exact absurd hk (Nat.not_succ_le_zero k)
    | cons n ns =>
      obtain ⟨hrest, hreqs, htable, hfreed⟩ :=
        ih (h.handle crc cfg (envs i)) (i + 1) (Nat.le_of_succ_le_succ hk)
      exact ⟨hrest, hreqs, htable, hfreed⟩

/-- The inner loop pops every node once and ends. -/
theorem Draining.drain (h : s.Draining ns) (envs : ℕ → HdEnv ℕ) (i : ℕ) {fuel : ℕ}
    (hfuel : ns.length < fuel) :
    s.drain crc cfg envs fuel i =
      some (ns.map fun n => some (some (s.rx.reqs n)), s.handles crc cfg envs i ns.length) := by
  induction fuel generalizing s ns i with
  | zero => exact absurd hfuel (Nat.not_lt_zero _)
  | succ fuel ih =>
    have hlength := h.length_eq
    cases ns with
    | nil =>
      have hzero : ¬ s.rxToHd.length ≠ 0 := by simpa using hlength
      rw [Sequential.drain, if_neg hzero]
      rfl
    | cons n ns =>
      have hne : s.rxToHd.length ≠ 0 := by
        rw [hlength, List.length_cons]
        omega
      have hrest := ih (h.handle crc cfg (envs i)) (i + 1)
        (Nat.lt_of_succ_lt_succ hfuel)
      have hpopped : (s.handle crc cfg (envs i)).1 = some (some (s.rx.reqs n)) := by
        rw [h.handle_eq]
      rw [Sequential.drain, if_pos hne, hrest, hpopped]
      rfl

/-! ## Iterations -/

/-- Between two iterations: nothing is pending, and the table is within its cap. -/
structure Idle (s : Sequential) : Prop extends Draining s [] where
  loaded : ∃ m, Ht.Loaded s.rx.table m ∧ m.keys.card ≤ 65535

theorem initial_idle : initial.Idle := by
  refine ⟨⟨rfl, rfl, rfl, List.nodup_nil, fun n hn => absurd hn List.not_mem_nil, fun _ => rfl⟩, ?_⟩
  exact ⟨∅, Ht.allocateHt_loaded, Nat.zero_le _⟩

def sentNodes (s : Sequential) : List ℕ := s.rx.sent.filterMap fun node => node.map Prod.fst

theorem requests_eq (h : ∀ n req, some (n, req) ∈ s.rx.sent → s.rx.reqs n = req) :
    s.rx.requests = s.sentNodes.map s.rx.reqs := by
  rw [Rx.requests, sentNodes, List.map_filterMap]
  apply List.filterMap_congr
  intro node hnode
  cases node with
  | none => rfl
  | some p => exact congrArg some (h p.1 p.2 hnode).symm

theorem enqueue_sent {sent : List (Option (ℕ × HdReq ℕ))} (hcontent : none ∉ sent)
    (q : Queue (Option ℕ)) :
    (sent.foldl (fun q node => q.enqueue (node.map Prod.fst)) q).nodes =
      q.nodes ++ (sent.filterMap fun node => node.map Prod.fst).map some := by
  rw [← List.foldl_map, Queue.foldl_enqueue_nodes, List.map_filterMap]
  congr 1
  rw [← List.filterMap_eq_map]
  apply List.filterMap_congr
  intro node hnode
  cases node with
  | none => exact absurd hnode hcontent
  | some p => rfl

theorem Idle.receive (h : s.Idle) {maxClients : ℕ} (hmax : maxClients ≤ 65535)
    {round : Round} (hok : round.Allocates) :
    ∃ t, s.receive maxClients round.batch = some t ∧ t.Draining t.sentNodes ∧
      t.rx.requests = t.sentNodes.map t.rx.reqs ∧ t.sentNodes.length ≤ round.batch.length ∧
      t.freed = s.freed ∧ ∃ m, Ht.Loaded t.rx.table m ∧ m.keys.card ≤ 65535 := by
  obtain ⟨m, hloaded, hcap⟩ := h.loaded
  have hready : s.rx.Ready := ⟨h.unlocked, by simpa using h.nodup, by simpa using h.lt⟩
  obtain ⟨clients, r, m', hr, hloaded', hcap'⟩ :=
    Registry.enrollAll_returns (r := s.rx.registry) hloaded hcap hmax round.batch
  obtain ⟨t, ht, hreg, hinv, -⟩ := (hready.begin.foldlM_spec maxClients hok).2 clients r hr
  have hrun : rxRunOnce maxClients s.rx round.batch = .ok t.enqueue := by
    rw [rxRunOnce, ht]
    rfl
  have hbetween := hinv.enqueue
  obtain ⟨hnoStop, hle⟩ := h.noStop.rxRunOnce hrun
  have hheld : t.enqueue.held = t.enqueue.pool.reduceOption ++
      t.enqueue.sent.filterMap fun node => node.map Prod.fst := by
    simp [Rx.held, hbetween.node]
  have hnodes := enqueue_sent hbetween.content s.rxToHd
  rw [h.nodes, List.map_nil, List.nil_append] at hnodes
  have hreceive : s.receive maxClients round.batch = some { s with
      rx := t.enqueue
      rxToHd := t.enqueue.sent.foldl (fun q node => q.enqueue (node.map Prod.fst)) s.rxToHd } := by
    rw [Sequential.receive, hrun]
  refine ⟨_, hreceive, ⟨hnodes, ?_, hbetween.unlocked, ?_, ?_, hnoStop⟩,
    requests_eq hbetween.kept, (List.length_filterMap_le _ _).trans hle, rfl, m', ?_, hcap'⟩
  · show (t.enqueue.sent.foldl _ s.rxToHd).Counted
    rw [← List.foldl_map]
    exact h.counted.foldl_enqueue _
  · have hnodup := hbetween.nodup
    rwa [hheld] at hnodup
  · have hlt := hbetween.lt
    rwa [hheld] at hlt
  · rw [Rx.enqueue_eq]
    show Ht.Loaded t.registry.table m'
    rw [hreg]
    exact hloaded'

theorem Idle.reapOne (h : s.Idle) (client : ℕ) :
    ∃ t, s.reapOne client = some t ∧ t.Idle ∧ t.freed = s.freed ++ [client] := by
  obtain ⟨m, hloaded, hcap⟩ := h.loaded
  obtain ⟨table, hremove, hloaded'⟩ := hloaded.remove hcap (s.rx.clients client).address
  refine ⟨{ s with rx := { s.rx with table := table }, freed := s.freed ++ [] ++ [client] },
    ?_, ?_, ?_⟩
  · rw [Sequential.reapOne, hremove]
    rfl
  · exact ⟨⟨h.nodes, h.counted, h.unlocked, h.nodup, h.lt, h.noStop⟩, m.erase _, hloaded',
      (Ht.card_erase_le m _).trans hcap⟩
  · rw [List.append_nil]

theorem Idle.foldlM_reapOne (h : s.Idle) (clients : List ℕ) :
    ∃ t, clients.foldlM Sequential.reapOne s = some t ∧ t.Idle ∧ t.freed = s.freed ++ clients := by
  induction clients generalizing s with
  | nil => exact ⟨s, rfl, h, (List.append_nil _).symm⟩
  | cons client clients ih =>
    obtain ⟨t, ht, hidle, hfreed⟩ := h.reapOne client
    obtain ⟨u, hu, hidle', hfreed'⟩ := ih hidle
    refine ⟨u, ?_, hidle', ?_⟩
    · rw [List.foldlM_cons, ht]
      exact hu
    · rw [hfreed', hfreed, List.append_assoc]
      rfl

/-- What the iteration that begins in `s` does: `s₁` is the state after `rx_run_once`, `s₂`
the one after the inner loop and `s₃` the one after the reaper. -/
structure Iteration (crc : Crc) (cfg : HdCfg) (maxClients fuel : ℕ) (round : Round)
    (s s₁ s₂ s₃ : Sequential) : Prop where
  /-- Nothing is pending at the beginning. -/
  empty : s.rxToHd.nodes = []
  counted : s.rxToHd.Counted
  received : { s with cnt := s.cnt + 1 }.receive maxClients round.batch = some s₁
  /-- The stream holds the requests of the batch. -/
  pending : s₁.pending = s₁.rx.requests
  /-- After `k` calls of `hd_run_once` the counter is right and the first `k` requests are
  gone. -/
  handled : ∀ k ≤ s₁.rx.requests.length, (s₁.handles crc cfg round.envs 0 k).rxToHd.Counted ∧
    (s₁.handles crc cfg round.envs 0 k).pending = s₁.rx.requests.drop k
  /-- The inner loop pops each request once, in order, finds a node at every pop, and ends. -/
  drained : s₁.drain crc cfg round.envs fuel 0 =
    some (s₁.rx.requests.map fun req => some (some req), s₂)
  emptied : s₂.rxToHd.nodes = [] ∧ s₂.rxToHd.length = 0
  reaped : s₂.reap round.now = some s₃
  freed : s₃.freed = s.freed ++ s₂.toRemove round.now
  /-- No pending request is left without its client. -/
  safe : ∀ client ∈ s₂.toRemove round.now, ∀ req ∈ s₂.pending, req.client ≠ client
  iterated : s.iterate crc cfg maxClients fuel round = some s₃

theorem Idle.iteration (h : s.Idle) {maxClients fuel : ℕ} (hmax : maxClients ≤ 65535)
    {round : Round} (hok : round.Allocates) (hfuel : round.batch.length < fuel) :
    ∃ s₁ s₂ s₃, Iteration crc cfg maxClients fuel round s s₁ s₂ s₃ ∧ s₃.Idle := by
  have hnext : Idle { s with cnt := s.cnt + 1 } :=
    ⟨⟨h.nodes, h.counted, h.unlocked, h.nodup, h.lt, h.noStop⟩, h.loaded⟩
  obtain ⟨s₁, hreceived, hdraining, hrequests, hle, hfreed₁, hloaded⟩ := hnext.receive hmax hok
  have hlength : s₁.rx.requests.length = s₁.sentNodes.length := by
    rw [hrequests, List.length_map]
  have hdrain := hdraining.drain crc cfg round.envs 0 (lt_of_le_of_lt hle hfuel)
  have hlog : (s₁.sentNodes.map fun n => some (some (s₁.rx.reqs n))) =
      s₁.rx.requests.map fun req => some (some req) := by
    rw [hrequests, List.map_map]
    rfl
  rw [hlog] at hdrain
  obtain ⟨hend, -, htable, hfreed₂⟩ :=
    hdraining.handles crc cfg round.envs 0 (Nat.le_refl _)
  rw [List.drop_length] at hend
  have hidle : Idle (s₁.handles crc cfg round.envs 0 s₁.sentNodes.length) :=
    ⟨hend, by rw [htable]; exact hloaded⟩
  obtain ⟨s₃, hreap, hidle₃, hfreed₃⟩ := hidle.foldlM_reapOne
    ((s₁.handles crc cfg round.envs 0 s₁.sentNodes.length).toRemove round.now)
  refine ⟨s₁, s₁.handles crc cfg round.envs 0 s₁.sentNodes.length, s₃, ?_, hidle₃⟩
  exact
    { empty := h.nodes
      counted := h.counted
      received := hreceived
      pending := hdraining.pending_eq.trans hrequests.symm
      handled := by
        intro k hk
        rw [hlength] at hk
        obtain ⟨hk', hreqs, -⟩ := hdraining.handles crc cfg round.envs 0 hk
        refine ⟨hk'.counted, ?_⟩
        rw [hk'.pending_eq, hreqs, hrequests, List.map_drop]
      drained := hdrain
      emptied := ⟨hend.nodes, hend.length_eq⟩
      reaped := hreap
      freed := by rw [hfreed₃, hfreed₂, hfreed₁]
      safe := by
        intro client _ req hreq
        rw [hend.pending_eq] at hreq
        exact absurd hreq List.not_mem_nil
      iterated := by
        rw [Sequential.iterate, hreceived, Option.bind_eq_bind, Option.bind_some, hdrain]
        exact hreap }

theorem Idle.run (h : s.Idle) {maxClients fuel : ℕ} (hmax : maxClients ≤ 65535)
    {rounds : List Round} (hok : ∀ round ∈ rounds, round.Allocates ∧ round.batch.length < fuel) :
    ∃ t, rounds.foldlM (iterate crc cfg maxClients fuel) s = some t ∧ t.Idle := by
  induction rounds generalizing s with
  | nil => exact ⟨s, rfl, h⟩
  | cons round rounds ih =>
    obtain ⟨hallocates, hfuel⟩ := hok round List.mem_cons_self
    obtain ⟨_, _, s₃, hiteration, hidle⟩ :=
      h.iteration crc cfg hmax hallocates hfuel
    obtain ⟨t, ht, hidle'⟩ := ih hidle fun r hr => hok r (List.mem_cons_of_mem round hr)
    refine ⟨t, ?_, hidle'⟩
    rw [List.foldlM_cons, hiteration.iterated]
    exact ht

/-- The sequential main loop drains before it reaps.  The run comes to the iteration
`round` whatever the iterations `before` it were, and this iteration ends: its inner loop
handles the requests of the batch, and clients are deallocated when none is pending.  A
number of rounds above the size of the batches is enough for the inner loop, and
`max_clients` is read as a `uint16_t`. -/
theorem drains_before_reaping (crc : Crc) (cfg : HdCfg) (maxClients fuel : ℕ)
    (hmax : maxClients ≤ 65535) (before : List Round) (round : Round)
    (hok : ∀ r ∈ before ++ [round], r.Allocates ∧ r.batch.length < fuel) :
    ∃ s s₁ s₂ s₃, before.foldlM (iterate crc cfg maxClients fuel) initial = some s ∧
      Iteration crc cfg maxClients fuel round s s₁ s₂ s₃ := by
  obtain ⟨s, hs, hidle⟩ := initial_idle.run crc cfg hmax
    fun r hr => hok r (List.mem_append_left _ hr)
  obtain ⟨hallocates, hfuel⟩ := hok round (List.mem_append_right _ (List.mem_singleton_self _))
  obtain ⟨s₁, s₂, s₃, hiteration, -⟩ :=
    hidle.iteration crc cfg hmax hallocates hfuel
  exact ⟨s, s₁, s₂, s₃, hs, hiteration⟩

def twoPorts : Round :=
  { batch := [.zeros 1 11, .zeros 2 11]
    envs := fun _ => Env.unshared { accepted := 0, toSend := initPacket, remove := false, now := 0 }
    now := 0 }

/-- The second iteration on such a batch. -/
theorem drains_before_reaping_twoPorts :
    ∃ s s₁ s₂ s₃, [twoPorts].foldlM (iterate bitwiseCrc ⟨31⟩ 5 3) initial = some s ∧
      Iteration bitwiseCrc ⟨31⟩ 5 3 twoPorts s s₁ s₂ s₃ := by
  refine drains_before_reaping bitwiseCrc ⟨31⟩ 5 3 (by decide) [twoPorts] twoPorts ?_
  intro r hr
  have htwo : r = twoPorts := by simpa using hr
  subst htwo
  refine ⟨fun a ha => ?_, by decide⟩
  have hports : a = .zeros 1 11 ∨ a = .zeros 2 11 := by simpa [twoPorts] using ha
  rcases hports with rfl | rfl <;> exact ⟨rfl, rfl, rfl⟩

end Sequential

end Trtp
