import Trtp.HashTable.Removal
import Trtp.Receiver.Basic

/-!
# Batches against single lookups

The reference looks every datagram of a batch up by itself.  `rx_run_once` skips the
lookup for a datagram that joins the current request, and leaves the same table and
hands every datagram to the same client.

A datagram joins a request only at the first 31 places of the batch, so that a request
never takes more than 31 of them however long the batch is.
-/

namespace Trtp

open Lib

/-! ## The reference -/

structure Registry where
  table : Ht ℕ
  nextClient : ℕ

namespace Registry

/-- Look an address up; an unknown one gets a client if there is room. -/
def enroll (maxClients : ℕ) (r : Registry) (address : Address) : Option (Option ℕ × Registry) := do
  match ← r.table.get address with
  | some client => some (some client, r)
  | none =>
    if r.table.length ≥ maxClients then some (none, r)
    else
      let (_, _, table) ← r.table.put address (some r.nextClient)
      some (some r.nextClient, { table := table, nextClient := r.nextClient + 1 })

variable {maxClients : ℕ} {r : Registry} {address : Address}

theorem enroll_known {client : ℕ} (h : r.table.get address = some (some client)) :
    r.enroll maxClients address = some (some client, r) := by
  simp [enroll, h]

theorem enroll_refused (h : r.table.get address = some none) (hfull : r.table.length ≥ maxClients) :
    r.enroll maxClients address = some (none, r) := by
  simp [enroll, h, hfull]

theorem enroll_unknown (h : r.table.get address = some none)
    (hroom : ¬ r.table.length ≥ maxClients) :
    r.enroll maxClients address = (r.table.put address (some r.nextClient)).map fun p =>
      (some r.nextClient, { table := p.2.2, nextClient := r.nextClient + 1 }) := by
  simp only [enroll, h, Option.bind_eq_bind, Option.bind_some, if_neg hroom]
  cases r.table.put address (some r.nextClient) <;> rfl

def enrollAll (maxClients : ℕ) : Registry → List Arrival → Option (List (Option ℕ) × Registry)
  | r, [] => some ([], r)
  | r, a :: batch => do
    let (client, r) ← r.enroll maxClients a.address
    let (clients, r) ← r.enrollAll maxClients batch
    some (client :: clients, r)

end Registry

/-- A datagram in a request of the client, unless it is refused or has a wrong length. -/
def Arrival.dispatch (a : Arrival) (client : Option ℕ) : List (ℕ × Datagram) :=
  match client with
  | some client => if a.fits then [(client, a.datagram)] else []
  | none => []

/-- The datagrams of a batch that get through, with their clients. -/
def dispatched (batch : List Arrival) (clients : List (Option ℕ)) : List (ℕ × Datagram) :=
  (batch.zip clients).flatMap fun p => p.1.dispatch p.2

def HdReq.tagged (req : HdReq ℕ) : List (ℕ × Datagram) := req.datagrams.map (req.client, ·)

namespace Rx

def requests (s : Rx) : List (HdReq ℕ) := s.sent.filterMap fun node => node.map Prod.snd

/-- The datagrams in the requests of the call, the current one included. -/
def out (s : Rx) : List (ℕ × Datagram) := s.enqueue.requests.flatMap HdReq.tagged

/-- The nodes in the hands of the receiver, or enqueued by it. -/
def held (s : Rx) : List ℕ :=
  s.pool.reduceOption ++ s.sent.filterMap (fun node => node.map Prod.fst) ++ s.node.join.toList

/-- No node is in two places, a new one is in none, and every enqueued node has a
request. -/
structure Nodes (s : Rx) : Prop where
  nodup : s.held.Nodup
  lt : ∀ n ∈ s.held, n < s.nextNode
  content : none ∉ s.sent

/-- The current request is that of `contained`, for the address of the last datagram. -/
structure Current (s : Rx) (n client : ℕ) : Prop where
  node : s.node = some (some n)
  req : s.req = some n
  contained : s.contained = some client
  owner : (s.reqs n).client = client
  registered : s.table.get s.prev = some (some client)
  num_le : (s.reqs n).datagrams.length ≤ s.i

/-- The loop has met no failure. -/
structure Inv (s : Rx) : Prop extends Nodes s where
  unlocked : s.locked = false
  running : s.exited = false
  /-- An enqueued request is as it was. -/
  kept : ∀ n req, some (n, req) ∈ s.sent → s.reqs n = req
  current : (s.node = none ∧ s.contained = none) ∨ ∃ n client, s.Current n client

structure Between (s : Rx) : Prop extends Nodes s where
  unlocked : s.locked = false
  running : s.exited = false
  kept : ∀ n req, some (n, req) ∈ s.sent → s.reqs n = req
  node : s.node = none

variable {s : Rx} {a : Arrival} {client n : ℕ}

/-! ## Enqueuing -/

theorem enqueue_of_none (h : s.node = none) : s.enqueue = s := by
  unfold enqueue
  rw [h]

theorem enqueue_of_some (h : s.node = some (some n)) :
    s.enqueue = { s with node := none, sent := s.sent ++ [some (n, s.reqs n)] } := by
  unfold enqueue
  rw [h]

theorem enqueue_node (s : Rx) : s.enqueue.node = none := by
  unfold enqueue
  split <;> first | assumption | rfl

/-- Only `node` and `sent` change. -/
theorem enqueue_eq (s : Rx) : s.enqueue = { s with node := none, sent := s.enqueue.sent } := by
  unfold enqueue
  split
  · rename_i h
    rw [← h]
  · rfl
  · rfl

theorem out_enqueue (s : Rx) : s.enqueue.out = s.out := by
  rw [out, enqueue_of_none (enqueue_node s)]
  rfl

theorem out_congr {s t : Rx} (hnode : s.node = t.node) (hsent : s.sent = t.sent)
    (hreqs : s.reqs = t.reqs) : s.out = t.out := by
  unfold out requests enqueue
  rw [hnode]
  split <;> simp [hsent, hreqs]

theorem held_enqueue (s : Rx) : s.enqueue.held = s.held := by
  unfold enqueue held
  split
  · rfl
  · rename_i h
    simp [h]
  · rename_i h
    simp [h]

theorem Inv.enqueue_cases (h : s.Inv) :
    s.enqueue = s ∨
      ∃ n, s.enqueue = { s with node := none, sent := s.sent ++ [some (n, s.reqs n)] } := by
  rcases h.current with ⟨hnode, -⟩ | ⟨n, client, hn⟩
  · exact .inl (enqueue_of_none hnode)
  · exact .inr ⟨n, enqueue_of_some hn.node⟩

theorem Inv.enqueue (h : s.Inv) : s.enqueue.Between := by
  have hheld := held_enqueue s
  have hnode := enqueue_node s
  rcases h.enqueue_cases with heq | ⟨n, heq⟩
  · rw [heq] at hnode ⊢
    exact ⟨h.toNodes, h.unlocked, h.running, h.kept, hnode⟩
  · rw [heq] at hheld hnode ⊢
    refine ⟨⟨?_, ?_, ?_⟩, h.unlocked, h.running, ?_, hnode⟩
    · rw [hheld]
      exact h.nodup
    · rw [hheld]
      exact h.lt
    · simpa using h.content
    · intro k req hreq
      rcases List.mem_append.mp hreq with hreq | hreq
      · exact h.kept k req hreq
      · cases List.mem_singleton.mp hreq
        rfl

/-! ## Copying a datagram -/

theorem kept_update (hkept : ∀ k req, some (k, req) ∈ s.sent → s.reqs k = req)
    (hsent : ∀ req, some (n, req) ∉ s.sent) (new : HdReq ℕ) :
    ∀ k req, some (k, req) ∈ s.sent → Function.update s.reqs n new k = req := by
  intro k req hreq
  have hne : k ≠ n := by
    rintro rfl
    exact hsent req hreq
  rw [Function.update_of_ne hne]
  exact hkept k req hreq

theorem push_eq {req : HdReq ℕ} (h : req.datagrams.length < maxWindowSize) (d : Datagram) :
    ∃ req', req.push d = some req' ∧ req'.stop = req.stop ∧ req'.client = req.client ∧
      req'.datagrams = req.datagrams ++ [d] := by
  have hpush : ∃ req', req.push d = some req' := by
    unfold HdReq.push
    rw [dif_pos h]
    exact ⟨_, rfl⟩
  obtain ⟨req', hpush⟩ := hpush
  exact ⟨req', hpush, HdReq.push_spec hpush⟩

def copied (s : Rx) (n : ℕ) (a : Arrival) : Rx :=
  if a.fits then
    { s with
      reqs := Function.update s.reqs n (((s.reqs n).push a.datagram).getD (s.reqs n))
      origins := Function.update s.origins n (s.origins n ++ [a.address]) }
  else s

theorem copy_eq (hreq : s.req = some n) (hroom : (s.reqs n).datagrams.length < maxWindowSize) :
    s.copy a = .ok (s.copied n a) := by
  obtain ⟨req', hpush, -⟩ := push_eq hroom a.datagram
  unfold copy copied
  split
  · simp [hreq, hpush]
  · rfl

structure Open (s : Rx) (n client : ℕ) : Prop extends Nodes s where
  unlocked : s.locked = false
  running : s.exited = false
  kept : ∀ n req, some (n, req) ∈ s.sent → s.reqs n = req
  node : s.node = some (some n)
  req : s.req = some n
  contained : s.contained = some client
  owner : (s.reqs n).client = client

theorem Open.notMem_sent (h : s.Open n client) (req : HdReq ℕ) : some (n, req) ∉ s.sent := by
  intro hreq
  have hsent : n ∈ s.sent.filterMap (fun node => node.map Prod.fst) :=
    List.mem_filterMap.mpr ⟨_, hreq, rfl⟩
  have hnodup := h.nodup
  rw [held, h.node] at hnodup
  exact (List.nodup_append.mp hnodup).2.2 n (List.mem_append_right _ hsent) n
    (List.mem_singleton_self n) rfl

theorem Open.out_eq (h : s.Open n client) :
    s.out = s.requests.flatMap HdReq.tagged ++ (s.reqs n).tagged := by
  rw [out, enqueue_of_some h.node]
  simp [requests]

theorem Open.copied (h : s.Open n client) (hroom : (s.reqs n).datagrams.length < maxWindowSize) :
    (s.copied n a).Open n client ∧ (s.copied n a).out = s.out ++ a.dispatch (some client) ∧
      ((s.copied n a).reqs n).datagrams.length ≤ (s.reqs n).datagrams.length + 1 := by
  unfold Rx.copied
  cases hfits : a.fits with
  | false =>
    refine ⟨h, ?_, Nat.le_succ _⟩
    simp [Arrival.dispatch, hfits]
  | true =>
    obtain ⟨req', hpush, -, howner, hdata⟩ := push_eq hroom a.datagram
    rw [if_pos rfl, hpush, Option.getD_some]
    have hopen : Open { s with
        reqs := Function.update s.reqs n req'
        origins := Function.update s.origins n (s.origins n ++ [a.address]) } n client := by
      refine ⟨⟨h.nodup, h.lt, h.content⟩, h.unlocked, h.running,
        kept_update h.kept h.notMem_sent req', h.node, h.req, h.contained, ?_⟩
      show (Function.update s.reqs n req' n).client = client
      rw [Function.update_self, howner, h.owner]
    refine ⟨hopen, ?_, ?_⟩
    · rw [hopen.out_eq, h.out_eq]
      show _ ++ (Function.update s.reqs n req' n).tagged = _
      rw [Function.update_self, HdReq.tagged, HdReq.tagged, hdata, howner, h.owner]
      simp [Arrival.dispatch, hfits, requests]
    · show (Function.update s.reqs n req' n).datagrams.length ≤ _
      rw [Function.update_self, hdata, List.length_append]
      rfl

/-! ## Taking a node -/

def opened (s : Rx) (n client : ℕ) (stop : Bool) (pool : List (Option ℕ)) (nextNode : ℕ) : Rx :=
  { s with
    pool := pool
    nextNode := nextNode
    node := some (some n)
    req := some n
    reqs := Function.update s.reqs n
      { stop := stop, client := client, datagrams := [], num_le := Nat.zero_le _ }
    origins := Function.update s.origins n [] }

theorem takeNode_cases (s : Rx) (a : Arrival) (client : ℕ) :
    (∃ n stop pool nextNode, s.takeNode a client = s.opened n client stop pool nextNode ∧
      (s.pool = some n :: pool ∧ nextNode = s.nextNode ∨
        s.pool.reduceOption = pool.reduceOption ∧ n = s.nextNode ∧ nextNode = s.nextNode + 1)) ∨
      (a.initializeNode ≠ .ok ∧ ∃ node, node.join = none ∧
        s.takeNode a client = { s with pool := s.pool.tail, node := node, exited := true }) := by
  by_cases hpool : ∃ n pool, s.pool = some n :: pool
  · obtain ⟨n, pool, hpool⟩ := hpool
    exact .inl ⟨n, (s.reqs n).stop, pool, s.nextNode, by simp [takeNode, hpool, openNode, opened],
      .inl ⟨hpool, rfl⟩⟩
  -- a failed pop takes at most a failed node from the pool
  have hempty : s.pool = [] ∨ ∃ pool, s.pool = none :: pool := by
    rcases hp : s.pool with _ | ⟨_ | n, pool⟩
    · exact .inl rfl
    · exact .inr ⟨pool, rfl⟩
    · exact absurd ⟨n, pool, hp⟩ hpool
  have htail : s.pool.reduceOption = s.pool.tail.reduceOption := by
    rcases hempty with hp | ⟨pool, hp⟩ <;> rw [hp] <;> rfl
  cases hinit : a.initializeNode with
  | ok =>
    have htake : s.takeNode a client =
        s.opened s.nextNode client false s.pool.tail (s.nextNode + 1) := by
      rcases hempty with hp | ⟨pool, hp⟩ <;> simp [takeNode, hp, hinit, openNode, opened]
    exact .inl ⟨s.nextNode, false, s.pool.tail, s.nextNode + 1, htake, .inr ⟨htail, rfl, rfl⟩⟩
  | noContent =>
    refine .inr ⟨by decide, some none, rfl, ?_⟩
    rcases hempty with hp | ⟨pool, hp⟩ <;> simp [takeNode, hp, hinit]
  | null =>
    refine .inr ⟨by decide, none, rfl, ?_⟩
    rcases hempty with hp | ⟨pool, hp⟩ <;> simp [takeNode, hp, hinit]

theorem Between.opened {pool : List (Option ℕ)} {nextNode : ℕ} (h : s.Between) (client : ℕ)
    (stop : Bool)
    (hn : s.pool = some n :: pool ∧ nextNode = s.nextNode ∨
      s.pool.reduceOption = pool.reduceOption ∧ n = s.nextNode ∧ nextNode = s.nextNode + 1) :
    Nodes (s.opened n client stop pool nextNode) ∧ ∀ req, some (n, req) ∉ s.sent := by
  have hheld : s.held =
      s.pool.reduceOption ++ s.sent.filterMap (fun node => node.map Prod.fst) := by
    simp [held, h.node]
  have hopened : (s.opened n client stop pool nextNode).held =
      pool.reduceOption ++ s.sent.filterMap (fun node => node.map Prod.fst) ++ [n] := rfl
  have hsent : ∀ req, some (n, req) ∈ s.sent →
      n ∈ s.sent.filterMap (fun node => node.map Prod.fst) := by
    intro req hreq
    exact List.mem_filterMap.mpr ⟨_, hreq, rfl⟩
  have hnodup := h.nodup
  have hlt := h.lt
  rw [hheld] at hnodup hlt
  rcases hn with ⟨hpool, rfl⟩ | ⟨hpool, rfl, rfl⟩
  · have hcons : s.pool.reduceOption = n :: pool.reduceOption := by rw [hpool]; rfl
    rw [hcons] at hnodup hlt
    have hperm : (n :: pool.reduceOption ++ s.sent.filterMap (fun node => node.map Prod.fst)).Perm
        (pool.reduceOption ++ s.sent.filterMap (fun node => node.map Prod.fst) ++ [n]) := by
      rw [List.cons_append]
      exact (List.perm_append_singleton _ _).symm
    refine ⟨⟨?_, ?_, h.content⟩, ?_⟩
    · rw [hopened]
      exact hperm.nodup hnodup
    · intro k hk
      rw [hopened] at hk
      exact hlt k (hperm.symm.subset hk)
    · intro req hreq
      rw [List.cons_append, List.nodup_cons] at hnodup
      exact hnodup.1 (List.mem_append_right _ (hsent req hreq))
  · rw [hpool] at hnodup hlt
    refine ⟨⟨?_, ?_, h.content⟩, ?_⟩
    · rw [hopened]
      refine List.nodup_append.mpr ⟨hnodup, List.nodup_singleton _, ?_⟩
      intro k hk j hj
      rw [List.mem_singleton] at hj
      have := hlt k hk
      omega
    · intro k hk
      rw [hopened, List.mem_append, List.mem_singleton] at hk
      show k < s.nextNode + 1
      rcases hk with hk | rfl
      · exact Nat.lt_succ_of_lt (hlt k hk)
      · exact Nat.lt_succ_self _
    · intro req hreq
      have := hlt _ (List.mem_append_right _ (hsent req hreq))
      omega

theorem opened_out {stop : Bool} {pool : List (Option ℕ)} {nextNode : ℕ} (h : s.Between)
    (hopen : (s.opened n client stop pool nextNode).Open n client) :
    (s.opened n client stop pool nextNode).out = s.out := by
  rw [hopen.out_eq, out, enqueue_of_none h.node]
  simp [Rx.opened, requests, HdReq.tagged]

/-- The request of a client is opened and takes the datagram, or there is no node for
it and the loop is left. -/
theorem Between.serve_cases (h : s.Between) (a : Arrival) (client : ℕ) :
    (∃ n stop pool nextNode t, t = { s with contained := some client }.opened n client stop pool
        nextNode ∧ s.serve a client = .ok (t.copied n a) ∧ t.Open n client ∧ t.out = s.out ∧
        (t.reqs n).datagrams = []) ∨
      (a.initializeNode ≠ .ok ∧ ∃ node pool, node.join = none ∧ s.serve a client =
        .ok { s with contained := some client, pool := pool, node := node, exited := true }) := by
  have h' : Between { s with contained := some client } :=
    ⟨⟨h.nodup, h.lt, h.content⟩, h.unlocked, h.running, h.kept, h.node⟩
  unfold serve
  rcases takeNode_cases { s with contained := some client } a client with
    ⟨n, stop, pool, nextNode, htake, hn⟩ | ⟨hnode, node, hjoin, htake⟩
  · left
    obtain ⟨hnodes, hsent⟩ := h'.opened client stop hn
    have hopen : Open ({ s with contained := some client }.opened n client stop pool nextNode) n
        client := by
      refine ⟨hnodes, h.unlocked, h.running, kept_update h.kept hsent _, rfl, rfl, rfl, ?_⟩
      simp [Rx.opened]
    have hempty : (({ s with contained := some client }.opened n client stop pool
        nextNode).reqs n).datagrams = [] := by
      simp [Rx.opened]
    refine ⟨n, stop, pool, nextNode, _, rfl, ?_, hopen,
      (opened_out h' hopen).trans (out_congr rfl rfl rfl), hempty⟩
    rw [htake, if_neg (by rw [hopen.running]; decide)]
    exact copy_eq hopen.req (by rw [hempty]; decide)
  · right
    refine ⟨hnode, node, s.pool.tail, hjoin, ?_⟩
    rw [htake]
    rfl

/-! ## What a call that returns has done -/

theorem copy_cases {s' : Rx} (hcopy : s.copy a = .ok s') :
    s' = s ∨ ∃ n req, (s.reqs n).push a.datagram = some req ∧
      s' = { s with
        reqs := Function.update s.reqs n req
        origins := Function.update s.origins n (s.origins n ++ [a.address]) } := by
  unfold Rx.copy at hcopy
  split_ifs at hcopy
  · cases hreq : s.req with
    | none => simp [hreq] at hcopy
    | some n =>
      cases hpush : (s.reqs n).push a.datagram with
      | none => simp [hreq, hpush] at hcopy
      | some req =>
        simp only [hreq, hpush, Except.ok.injEq] at hcopy
        exact .inr ⟨n, req, hpush, hcopy.symm⟩
  · exact .inl (Except.ok.inj hcopy).symm

theorem serve_cases {s' : Rx} (hserve : s.serve a client = .ok s') :
    s' = { s with contained := some client }.takeNode a client ∨
      ({ s with contained := some client }.takeNode a client).copy a = .ok s' := by
  unfold Rx.serve at hserve
  dsimp only at hserve
  split_ifs at hserve
  · exact .inl (Except.ok.inj hserve).symm
  · exact .inr hserve

def withClient (s : Rx) (table : Ht ℕ) (address : Address) : Rx :=
  { s with
    table := table
    clients := Function.update s.clients s.nextClient (Trtp.initializeClient s.idx address)
    nextClient := s.nextClient + 1
    idx := s.idx + 1 }

theorem Between.withClient (h : s.Between) (table : Ht ℕ) (address : Address) :
    (s.withClient table address).Between :=
  ⟨⟨h.nodup, h.lt, h.content⟩, h.unlocked, h.running, h.kept, h.node⟩

theorem lookup_cases {maxClients : ℕ} {s' : Rx} (hlookup : s.lookup maxClients a = .ok s') :
    (∃ client, s.table.get a.address = some (some client) ∧ s.serve a client = .ok s') ∨
      (s.table.length ≥ maxClients ∧ s' = { s with contained := none }) ∨
      (s.table.get a.address = some none ∧ s.table.length < maxClients ∧
        ((a.calloc = true ∧ a.initializeClient = true ∧ ∃ old freed table,
            s.table.put a.address (some s.nextClient) = some (old, freed, table) ∧
            (s.withClient table a.address).serve a s.nextClient = .ok s') ∨
          (¬ (a.calloc = true ∧ a.initializeClient = true) ∧ s'.reqs = s.reqs ∧ s'.node = s.node ∧
            s'.sent = s.sent))) := by
  unfold lookup at hlookup
  have hlocked : ¬ s.locked = true := by
    intro hlocked
    rw [if_pos hlocked] at hlookup
    cases hlookup
  rw [if_neg hlocked] at hlookup
  cases hget : s.table.get a.address with
  | none => simp [hget] at hlookup
  | some found =>
    rw [hget] at hlookup
    cases found with
    | some client => exact .inl ⟨client, rfl, hlookup⟩
    | none =>
      right
      dsimp only at hlookup
      split_ifs at hlookup with hfull hcalloc hinit
      · exact .inl ⟨hfull, (Except.ok.inj hlookup).symm⟩
      · refine .inr ⟨rfl, not_le.mp hfull, .inr ⟨by simp_all, ?_⟩⟩
        rw [← Except.ok.inj hlookup]
        exact ⟨rfl, rfl, rfl⟩
      · refine .inr ⟨rfl, not_le.mp hfull, .inr ⟨by simp_all, ?_⟩⟩
        rw [← Except.ok.inj hlookup]
        exact ⟨rfl, rfl, rfl⟩
      · refine .inr ⟨rfl, not_le.mp hfull, .inl ⟨by simpa using hcalloc, by simpa using hinit, ?_⟩⟩
        cases hput : s.table.put a.address (some s.nextClient) with
        | none => simp [hput] at hlookup
        | some r =>
          rw [hput] at hlookup
          exact ⟨r.1, r.2.1, r.2.2, rfl, hlookup⟩

theorem step_cases {s' : Rx} {maxClients : ℕ} (hstep : s.step maxClients a = .ok s') :
    s' = s ∨ ∃ t, s' = t.next (s.i + 1) a.address ∧
      (s.copy a = .ok t ∨ s.enqueue.lookup maxClients a = .ok t) := by
  unfold Rx.step at hstep
  split_ifs at hstep
  · exact .inl (Except.ok.inj hstep).symm
  · cases hbody : s.body maxClients a with
    | error fault =>
      rw [hbody] at hstep
      cases hstep
    | ok t =>
      rw [hbody] at hstep
      refine .inr ⟨t, (Except.ok.inj hstep).symm, ?_⟩
      unfold Rx.body at hbody
      split_ifs at hbody
      · exact .inl hbody
      · exact .inr hbody

/-! ## One datagram -/

/-- A client is to be created for the datagram. -/
def Creates (maxClients : ℕ) (s : Rx) (a : Arrival) : Prop :=
  s.exited = false ∧ ¬ s.Joins a ∧ s.table.get a.address = some none ∧
    s.table.length < maxClients

/-- Neither `calloc` nor `initialize_client` fails for the datagram, if they are called. -/
def CreateOk (maxClients : ℕ) (s : Rx) (a : Arrival) : Prop :=
  s.Creates maxClients a → a.calloc = true ∧ a.initializeClient = true

def registry (s : Rx) : Registry := ⟨s.table, s.nextClient⟩

structure Stopped (s : Rx) : Prop where
  unlocked : s.locked = false
  exited : s.exited = true
  kept : ∀ n req, some (n, req) ∈ s.sent → s.reqs n = req
  node : s.node.join = none

theorem Open.inv (h : s.Open n client) {i : ℕ} {prev : Address}
    (hreg : s.table.get prev = some (some client)) (hnum : (s.reqs n).datagrams.length ≤ i) :
    (s.next i prev).Inv :=
  ⟨⟨h.nodup, h.lt, h.content⟩, h.unlocked, h.running, h.kept,
    .inr ⟨n, client, h.node, h.req, h.contained, h.owner, hreg, hnum⟩⟩

theorem Inv.open (h : s.Inv) (hc : s.Current n client) : s.Open n client :=
  ⟨⟨h.nodup, h.lt, h.content⟩, h.unlocked, h.running, h.kept, hc.node, hc.req, hc.contained,
    hc.owner⟩

@[simp] theorem copied_table (s : Rx) (n : ℕ) (a : Arrival) : (s.copied n a).table = s.table := by
  unfold copied
  split <;> rfl

@[simp] theorem copied_nextClient (s : Rx) (n : ℕ) (a : Arrival) :
    (s.copied n a).nextClient = s.nextClient := by
  unfold copied
  split <;> rfl

theorem next_out (s : Rx) (i : ℕ) (prev : Address) : (s.next i prev).out = s.out :=
  out_congr rfl rfl rfl

theorem step_of_joins {maxClients : ℕ} (hrun : s.exited = false) (hj : s.Joins a) :
    s.step maxClients a = (s.copy a).map fun s' => s'.next (s.i + 1) a.address := by
  rw [step, hrun, if_neg Bool.false_ne_true, body, if_pos hj]

theorem step_of_not_joins {maxClients : ℕ} (hrun : s.exited = false) (hj : ¬ s.Joins a) :
    s.step maxClients a =
      (s.enqueue.lookup maxClients a).map fun s' => s'.next (s.i + 1) a.address := by
  rw [step, hrun, if_neg Bool.false_ne_true, body, if_neg hj]

theorem Inv.step_joins (h : s.Inv) (maxClients : ℕ) (hj : s.Joins a) :
    ∃ s' client, s.step maxClients a = .ok s' ∧ s.table.get a.address = some (some client) ∧
      s'.registry = s.registry ∧ s'.Inv ∧ s'.out = s.out ++ a.dispatch (some client) := by
  rw [step_of_joins h.running hj]
  obtain ⟨hsome, hprev, hi⟩ := hj
  rcases h.current with ⟨-, hnone⟩ | ⟨n, client, hc⟩
  · rw [hnone] at hsome
    cases hsome
  have hroom : (s.reqs n).datagrams.length < maxWindowSize := lt_of_le_of_lt hc.num_le hi
  obtain ⟨hopen, hout, hnum⟩ := (h.open hc).copied (a := a) hroom
  have hreg : (s.copied n a).table.get a.address = some (some client) := by
    rw [copied_table, hprev]
    exact hc.registered
  refine ⟨(s.copied n a).next (s.i + 1) a.address, client, ?_, ?_, ?_,
    hopen.inv hreg (hnum.trans (Nat.succ_le_succ hc.num_le)), (next_out _ _ _).trans hout⟩
  · rw [copy_eq hc.req hroom]
    rfl
  · rw [hprev]
    exact hc.registered
  · simp [registry, Rx.next]

/-- The state after the datagram of a client that is not the current one. -/
theorem Between.serve_spec (h : s.Between) (hreg : s.table.get a.address = some (some client))
    (i : ℕ) :
    ∃ s', s.serve a client = .ok s' ∧ s'.registry = s.registry ∧
      (((s'.next (i + 1) a.address).Inv ∧ s'.out = s.out ++ a.dispatch (some client)) ∨
        (a.initializeNode ≠ .ok ∧ (s'.next (i + 1) a.address).Stopped)) := by
  rcases h.serve_cases a client with
    ⟨n, stop, pool, nextNode, t, ht, hserve, hopen, hout, hempty⟩ |
      ⟨hnode, node, pool, hjoin, hserve⟩
  · obtain ⟨hopen', hout', hnum⟩ := hopen.copied (a := a) (by rw [hempty]; decide)
    have htable : t.table = s.table := by rw [ht]; rfl
    have hnext : t.nextClient = s.nextClient := by rw [ht]; rfl
    refine ⟨_, hserve, by simp [registry, htable, hnext], .inl ⟨hopen'.inv ?_ ?_, ?_⟩⟩
    · rw [copied_table, htable]
      exact hreg
    · rw [hempty] at hnum
      exact hnum.trans (Nat.succ_le_succ (Nat.zero_le i))
    · rw [hout', hout]
  · exact ⟨_, hserve, rfl, .inr ⟨hnode, h.unlocked, rfl, h.kept, hjoin⟩⟩

/-- A datagram that is looked up, against the reference. -/
theorem Between.lookup_spec (h : s.Between) (maxClients i : ℕ)
    (hcreate : s.table.get a.address = some none → s.table.length < maxClients →
      a.calloc = true ∧ a.initializeClient = true) :
    match s.registry.enroll maxClients a.address with
    | none => s.lookup maxClients a = .error .spin
    | some (client, r) => ∃ s', s.lookup maxClients a = .ok s' ∧ s'.registry = r ∧
        (((s'.next (i + 1) a.address).Inv ∧ s'.out = s.out ++ a.dispatch client) ∨
          (a.initializeNode ≠ .ok ∧ (s'.next (i + 1) a.address).Stopped)) := by
  have hlocked : ¬ s.locked = true := by rw [h.unlocked]; decide
  unfold lookup
  rw [if_neg hlocked]
  cases hget : s.table.get a.address with
  | none => simp [Registry.enroll, registry, hget]
  | some found =>
    cases found with
    | some client =>
      rw [Registry.enroll_known (r := s.registry) hget]
      exact h.serve_spec hget i
    | none =>
      dsimp only
      by_cases hfull : s.table.length ≥ maxClients
      · rw [Registry.enroll_refused (r := s.registry) hget hfull, if_pos hfull]
        refine ⟨_, rfl, rfl, .inl ⟨⟨⟨h.nodup, h.lt, h.content⟩, h.unlocked, h.running, h.kept,
          .inl ⟨h.node, rfl⟩⟩, ?_⟩⟩
        rw [Arrival.dispatch, List.append_nil]
        exact out_congr rfl rfl rfl
      · obtain ⟨hcalloc, hinit⟩ := hcreate hget (not_le.mp hfull)
        rw [Registry.enroll_unknown (r := s.registry) hget hfull, if_neg hfull, hcalloc, hinit,
          if_neg (by decide), if_neg (by decide)]
        have hreg : s.registry.table.put a.address (some s.registry.nextClient) =
            s.table.put a.address (some s.nextClient) := rfl
        rw [hreg]
        cases hput : s.table.put a.address (some s.nextClient) with
        | none => rfl
        | some r =>
          obtain ⟨old, freed, table⟩ := r
          have hout : (s.withClient table a.address).out = s.out := out_congr rfl rfl rfl
          rw [← hout]
          exact (h.withClient table a.address).serve_spec (Ht.get_of_put hput) i

/-- A round of the loop against the reference, as long as no client fails to be
created. -/
theorem Inv.step_spec (h : s.Inv) (maxClients : ℕ) (hcreate : s.CreateOk maxClients a) :
    match s.registry.enroll maxClients a.address with
    | none => s.step maxClients a = .error .spin
    | some (client, r) => ∃ s', s.step maxClients a = .ok s' ∧ s'.registry = r ∧
        ((s'.Inv ∧ s'.out = s.out ++ a.dispatch client) ∨
          (a.initializeNode ≠ .ok ∧ s'.Stopped)) := by
  by_cases hj : s.Joins a
  · obtain ⟨s', client, hstep, hget, hreg, hinv, hout⟩ := h.step_joins maxClients hj
    have henroll : s.registry.enroll maxClients a.address = some (some client, s.registry) := by
      simp [Registry.enroll, registry, hget]
    rw [henroll]
    exact ⟨s', hstep, hreg, .inl ⟨hinv, hout⟩⟩
  · rw [step_of_not_joins h.running hj]
    have hregistry : s.enqueue.registry = s.registry := by rw [enqueue_eq]; rfl
    have hspec := h.enqueue.lookup_spec (a := a) maxClients s.i fun hget hlt => by
      rw [enqueue_eq] at hget hlt
      exact hcreate ⟨h.running, hj, hget, hlt⟩
    rw [hregistry] at hspec
    cases henroll : s.registry.enroll maxClients a.address with
    | none =>
      rw [henroll] at hspec
      rw [hspec]
      rfl
    | some r =>
      obtain ⟨client, r⟩ := r
      rw [henroll] at hspec
      obtain ⟨s', hlookup, hreg, hcase⟩ := hspec
      rw [out_enqueue] at hcase
      refine ⟨s'.next (s.i + 1) a.address, ?_, hreg, ?_⟩
      · rw [hlookup]
        rfl
      · rw [next_out]
        exact hcase

/-! ## Batches -/

theorem dispatched_cons (a : Arrival) (batch : List Arrival) (client : Option ℕ)
    (clients : List (Option ℕ)) :
    dispatched (a :: batch) (client :: clients) = a.dispatch client ++ dispatched batch clients :=
  rfl

/-- The loop over a batch for which every allocation succeeds. -/
theorem Inv.foldlM_spec (h : s.Inv) (maxClients : ℕ) {batch : List Arrival}
    (hok : ∀ a ∈ batch, a.calloc = true ∧ a.initializeClient = true ∧ a.initializeNode = .ok) :
    (s.registry.enrollAll maxClients batch = none →
        batch.foldlM (step maxClients) s = .error .spin) ∧
      ∀ clients r, s.registry.enrollAll maxClients batch = some (clients, r) →
        ∃ s', batch.foldlM (step maxClients) s = .ok s' ∧ s'.registry = r ∧ s'.Inv ∧
          s'.out = s.out ++ dispatched batch clients := by
  induction batch generalizing s with
  | nil =>
    refine ⟨fun hn => absurd hn (Option.some_ne_none _), fun clients r hr => ?_⟩
    cases hr
    exact ⟨s, rfl, rfl, h, (List.append_nil _).symm⟩
  | cons a batch ih =>
    obtain ⟨hcalloc, hinit, hnode⟩ := hok a List.mem_cons_self
    have hstep := h.step_spec (a := a) maxClients fun _ => ⟨hcalloc, hinit⟩
    rw [Registry.enrollAll, List.foldlM_cons]
    cases henroll : s.registry.enroll maxClients a.address with
    | none =>
      rw [henroll] at hstep
      rw [hstep]
      exact ⟨fun _ => rfl, fun clients r hr => absurd hr (by simp)⟩
    | some p =>
      obtain ⟨client, r⟩ := p
      rw [henroll] at hstep
      obtain ⟨s', hs', hreg, hcase⟩ := hstep
      obtain ⟨hinv, hout⟩ := hcase.resolve_right fun hn => hn.1 hnode
      obtain ⟨hspin, hrest⟩ := ih hinv fun b hb => hok b (List.mem_cons_of_mem a hb)
      rw [hreg] at hspin hrest
      rw [hs']
      cases hall : r.enrollAll maxClients batch with
      | none => exact ⟨fun _ => hspin hall, fun clients r' hr => absurd hr (by simp [hall])⟩
      | some p =>
        obtain ⟨clients, r'⟩ := p
        obtain ⟨t, ht, htreg, htinv, htout⟩ := hrest clients r' hall
        refine ⟨fun hn => absurd hn (by simp [hall]), fun clients' r'' hr => ?_⟩
        simp only [Option.bind_eq_bind, Option.bind_some, hall, Option.some.injEq,
          Prod.mk.injEq] at hr
        obtain ⟨rfl, rfl⟩ := hr
        refine ⟨t, ht, htreg, htinv, ?_⟩
        rw [htout, hout, dispatched_cons, List.append_assoc]

/-- The receiver between two calls: the lock is free and the nodes that `stream_pop` will
return are distinct. -/
structure Ready (s : Rx) : Prop where
  unlocked : s.locked = false
  nodup : s.pool.reduceOption.Nodup
  lt : ∀ n ∈ s.pool.reduceOption, n < s.nextNode

theorem Ready.begin (h : s.Ready) : s.begin.Inv := by
  have hheld : s.begin.held = s.pool.reduceOption := by simp [held, Rx.begin]
  refine ⟨⟨?_, ?_, List.not_mem_nil⟩, h.unlocked, rfl, ?_, .inl ⟨rfl, rfl⟩⟩
  · rw [hheld]
    exact h.nodup
  · rw [hheld]
    exact h.lt
  · intro n req hreq
    cases hreq

end Rx

/-! ## Registered clients -/

namespace Registry

variable {maxClients : ℕ} {r r' : Registry} {address : Address} {m : Ht.Map ℕ}

theorem enroll_loaded (h : Ht.Loaded r.table m) {client : Option ℕ}
    (henroll : r.enroll maxClients address = some (client, r')) :
    ∃ m' : Ht.Map ℕ, Ht.Loaded r'.table m' ∧
      (∀ k c, m.lookup k = some c → m'.lookup k = some c) ∧
      ∀ c, client = some c → m'.lookup address = some c := by
  cases hget : r.table.get address with
  | none => simp [enroll, hget] at henroll
  | some found =>
    obtain ⟨hlookup, hfree⟩ := h.lookup_of_get hget
    cases found with
    | some c =>
      rw [enroll_known hget, Option.some.injEq, Prod.mk.injEq] at henroll
      obtain ⟨rfl, rfl⟩ := henroll
      refine ⟨m, h, fun _ _ hk => hk, fun c' hc' => ?_⟩
      rw [hlookup, hc']
    | none =>
      by_cases hfull : r.table.length ≥ maxClients
      · rw [enroll_refused hget hfull, Option.some.injEq, Prod.mk.injEq] at henroll
        obtain ⟨rfl, rfl⟩ := henroll
        exact ⟨m, h, fun _ _ hk => hk, fun c hc => absurd hc (Option.some_ne_none c).symm⟩
      · have hcap : m.keys.card ≤ 65535 := by
          have hlt := hfree rfl
          unfold Ht.reach at hlt
          omega
        obtain ⟨table', hput, -, -, -, hloaded⟩ := h.put hcap address (some r.nextClient)
        rw [enroll_unknown hget hfull, hput, Option.map_some, Option.some.injEq,
          Prod.mk.injEq] at henroll
        obtain ⟨rfl, rfl⟩ := henroll
        refine ⟨_, hloaded (.inl hlookup), fun k c hk => ?_, fun c hc => ?_⟩
        · rw [Ht.lookup_write_of_ne m _ (by rintro rfl; rw [hlookup] at hk; cases hk)]
          exact hk
        · rw [Ht.lookup_write_self]
          exact hc

theorem enrollAll_loaded (h : Ht.Loaded r.table m) {batch : List Arrival}
    {clients : List (Option ℕ)} (hall : r.enrollAll maxClients batch = some (clients, r')) :
    ∃ m' : Ht.Map ℕ, Ht.Loaded r'.table m' ∧
      (∀ k c, m.lookup k = some c → m'.lookup k = some c) ∧
      ∀ p ∈ batch.zip clients, ∀ c, p.2 = some c → m'.lookup p.1.address = some c := by
  induction batch generalizing r m clients with
  | nil =>
    cases hall
    exact ⟨m, h, fun _ _ hk => hk, by simp⟩
  | cons a batch ih =>
    rw [enrollAll] at hall
    cases henroll : r.enroll maxClients a.address with
    | none => simp [henroll] at hall
    | some p =>
      obtain ⟨client, r₁⟩ := p
      cases hrest : r₁.enrollAll maxClients batch with
      | none => simp [henroll, hrest] at hall
      | some p =>
        obtain ⟨clients', r₂⟩ := p
        simp only [henroll, hrest, Option.bind_eq_bind, Option.bind_some, Option.some.injEq,
          Prod.mk.injEq] at hall
        obtain ⟨rfl, rfl⟩ := hall
        obtain ⟨m₁, h₁, hkeep₁, hnew₁⟩ := enroll_loaded h henroll
        obtain ⟨m₂, h₂, hkeep₂, hnew₂⟩ := ih h₁ hrest
        refine ⟨m₂, h₂, fun k c hk => hkeep₂ k c (hkeep₁ k c hk), ?_⟩
        intro p hp c hc
        rw [List.zip_cons_cons, List.mem_cons] at hp
        rcases hp with rfl | hp
        · exact hkeep₂ _ c (hnew₁ c hc)
        · exact hnew₂ p hp c hc

theorem enroll_returns (h : Ht.Loaded r.table m) (hcap : m.keys.card ≤ 65535)
    (hmax : maxClients ≤ 65535) (address : Address) :
    ∃ client r' m', r.enroll maxClients address = some (client, r') ∧ Ht.Loaded r'.table m' ∧
      m'.keys.card ≤ 65535 := by
  have hget := h.get_eq (h.card_lt hcap) address
  cases hlookup : m.lookup address with
  | some c =>
    rw [hlookup] at hget
    exact ⟨_, r, m, enroll_known hget, h, hcap⟩
  | none =>
    rw [hlookup] at hget
    by_cases hfull : r.table.length ≥ maxClients
    · exact ⟨_, r, m, enroll_refused hget hfull, h, hcap⟩
    · obtain ⟨table', hput, -, -, -, hloaded⟩ := h.put hcap address (some r.nextClient)
      refine ⟨some r.nextClient, ⟨table', r.nextClient + 1⟩, _, ?_, hloaded (.inl hlookup), ?_⟩
      · rw [enroll_unknown hget hfull, hput]
        rfl
      · have hle := Ht.card_insert_le m address r.nextClient
        have hlength := h.length_eq
        show (m.insert address r.nextClient).keys.card ≤ 65535
        omega

theorem enrollAll_returns (h : Ht.Loaded r.table m) (hcap : m.keys.card ≤ 65535)
    (hmax : maxClients ≤ 65535) (batch : List Arrival) :
    ∃ clients r' m', r.enrollAll maxClients batch = some (clients, r') ∧ Ht.Loaded r'.table m' ∧
      m'.keys.card ≤ 65535 := by
  induction batch generalizing r m with
  | nil => exact ⟨[], r, m, rfl, h, hcap⟩
  | cons a batch ih =>
    obtain ⟨client, r₁, m₁, henroll, h₁, hcap₁⟩ := enroll_returns h hcap hmax a.address
    obtain ⟨clients, r₂, m₂, hrest, h₂, hcap₂⟩ := ih h₁ hcap₁
    exact ⟨client :: clients, r₂, m₂, by simp [enrollAll, henroll, hrest], h₂, hcap₂⟩

end Registry

/-- `rx_run_once` on a batch for which every allocation succeeds, against the reference that
looks every datagram up.  It does not return only where the reference does not, which the
cap of the command line excludes.  Otherwise the tables are equal, and the requests hold
the datagrams that get through, in order and each under the client that is registered for
its address. -/
theorem batch_dispatch (maxClients : ℕ) (s : Rx) (hs : s.Ready) (m : Ht.Map ℕ)
    (ht : Ht.ReachableTable s.table m) (batch : List Arrival)
    (hok : ∀ a ∈ batch, a.calloc = true ∧ a.initializeClient = true ∧ a.initializeNode = .ok) :
    (s.registry.enrollAll maxClients batch = none → rxRunOnce maxClients s batch = .error .spin) ∧
      (maxClients ≤ 65535 → s.registry.enrollAll maxClients batch ≠ none) ∧
      ∀ clients r, s.registry.enrollAll maxClients batch = some (clients, r) →
        ∃ s', rxRunOnce maxClients s batch = .ok s' ∧ s'.table = r.table ∧
          s'.requests.flatMap HdReq.tagged = dispatched batch clients ∧
          (∀ p ∈ batch.zip clients, ∀ c, p.2 = some c →
            s'.table.get p.1.address = some (some c)) ∧
          ∀ node ∈ s'.sent, ∃ n req, node = some (n, req) ∧ s'.reqs n = req ∧
            req.datagrams.length ≤ maxWindowSize := by
  obtain ⟨hloaded, hcap⟩ := ht.loaded
  obtain ⟨hspin, hrun⟩ := hs.begin.foldlM_spec maxClients hok
  refine ⟨fun hn => ?_, fun hmax hn => ?_, fun clients r hr => ?_⟩
  · rw [rxRunOnce, hspin hn]
    rfl
  · obtain ⟨clients, r, -, hr, -⟩ :=
      Registry.enrollAll_returns (r := s.registry) hloaded hcap hmax batch
    rw [hr] at hn
    cases hn
  · obtain ⟨s', hs', hreg, hinv, hout⟩ := hrun clients r hr
    obtain ⟨m', hloaded', -, hnew⟩ := Registry.enrollAll_loaded (r := s.registry) hloaded hr
    have htable : s'.enqueue.table = r.table := by
      rw [Rx.enqueue_eq]
      exact congrArg Registry.table hreg
    refine ⟨s'.enqueue, ?_, htable, hout, ?_, ?_⟩
    · rw [rxRunOnce, hs']
      rfl
    · intro p hp c hc
      rw [htable]
      exact hloaded'.get_of_lookup (hnew p hp c hc)
    · intro node hnode
      cases node with
      | none => exact absurd hnode hinv.enqueue.content
      | some p => exact ⟨p.1, p.2, rfl, hinv.enqueue.kept p.1 p.2 hnode, p.2.num_le⟩

def Rx.initial : Rx :=
  { table := allocateHt, locked := false
    clients := fun _ => initializeClient 0 ⟨0, Vector.replicate 16 0⟩
    nextClient := 0, idx := 0
    reqs := fun _ => { stop := false, client := 0, datagrams := [], num_le := Nat.zero_le _ }
    nextNode := 0, pool := [], contained := none, node := none, req := none, i := 0
    prev := ⟨0, Vector.replicate 16 0⟩, exited := false, sent := [], origins := fun _ => [] }

/-- A datagram of `len` zeros from a port of `::`, for which every allocation succeeds. -/
def Arrival.zeros (port : UInt16) (len : ℕ) : Arrival :=
  { address := ⟨port, Vector.replicate 16 0⟩, msgLen := len, buffer := List.replicate len 0
    calloc := true, initializeClient := true, initializeNode := .ok }

/-- Two ports and room for one client: the second one is refused. -/
theorem batch_dispatch_refused :
    ∃ s', rxRunOnce 1 Rx.initial [.zeros 1 11, .zeros 2 11, .zeros 1 12] = .ok s' ∧
      s'.requests.flatMap HdReq.tagged =
        [(0, (Arrival.zeros 1 11).datagram), (0, (Arrival.zeros 1 12).datagram)] := by
  have hready : Rx.initial.Ready := ⟨rfl, List.nodup_nil, fun _ hn => absurd hn List.not_mem_nil⟩
  have htable : Ht.ReachableTable Rx.initial.table ∅ :=
    ⟨[], [], [], Ht.Map.capped_of_length (by decide), rfl, rfl⟩
  have hok : ∀ a ∈ [Arrival.zeros 1 11, Arrival.zeros 2 11, Arrival.zeros 1 12],
      a.calloc = true ∧ a.initializeClient = true ∧ a.initializeNode = .ok := by
    simp [Arrival.zeros]
  obtain ⟨-, -, h⟩ := batch_dispatch 1 Rx.initial hready ∅ htable _ hok
  obtain ⟨s', hs', -, hout, -⟩ := h [some 0, none, some 0] _ rfl
  exact ⟨s', hs', hout⟩

end Trtp
