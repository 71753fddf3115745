import Mathlib.Logic.Relation
import Trtp.Server.Delivery
import Trtp.Server.Sequential

/-!
# The receiver on the nodes

A call of `rx_run_once`, as it is in the code, moves nodes by steps of its receiver: it pops a
node or allocates one, fills its request, copies datagrams to it and enqueues it
(`rxRunOnce_steps`).  The other threads wait meanwhile.  The request of a node is the same on
both sides as long as the receiver has the node, and of the nodes in the pool it is known that
they have one.

`initialize_client` does not fail here: after such a failure the receiver writes to a request
that it has already enqueued.
-/

namespace Trtp.Nodes

open Lib

variable {c : Config} {s₀ s s' : State c} {r : Fin c.receiveNum} {x x' : Rx} {a : Arrival}
  {n client maxClients : ℕ}

/-- The request of a receiver, as it is in a node. -/
def inNode (req : HdReq ℕ) : HdReq (Option ℕ) :=
  { stop := req.stop, client := some req.client, datagrams := req.datagrams, num_le := req.num_le }

/-- An enqueued node, and what it had in it then. -/
def Records : Option (ℕ × HdReq ℕ) → ℕ × Content → Prop
  | some (n, req), entry => entry = (n, some (inNode req))
  | none, entry => entry.2 = none

/-- `s` is reached from `s₀` by steps of the receiver `r`, in a call that has come to `x`. -/
structure Follows (s₀ s : State c) (r : Fin c.receiveNum) (x : Rx) : Prop where
  run : Relation.ReflTransGen (fun s s' => RxStep s r s') s₀ s
  pool : s.hdToRx (c.receiveStreams r) = x.pool.reduceOption
  sent : ∃ entries, s.sent (c.receiveStreams r) = s₀.sent (c.receiveStreams r) ++ entries ∧
    List.Forall₂ Records x.sent entries

/-- What is known of the nodes before a failure. -/
structure Live (s : State c) (x : Rx) : Prop where
  nextNode : s.nextNode = x.nextNode
  lt : ∀ n ∈ x.pool.reduceOption, n < x.nextNode
  nodup : (x.pool.reduceOption ++ x.node.join.toList).Nodup
  contents : ∀ n ∈ x.pool.reduceOption,
    ∃ req, s.content n = some req ∧ req.stop = (x.reqs n).stop

structure Empty (s : State c) (r : Fin c.receiveNum) (x : Rx) : Prop where
  node : x.node = none
  pc : s.rx r = .inside

structure Holds (s : State c) (r : Fin c.receiveNum) (x : Rx) (n : ℕ) : Prop where
  node : x.node = some (some n)
  req : x.req = some n
  pc : s.rx r = .holding n
  content : s.content n = some (inNode (x.reqs n))

/-- The receiver has a node without a request, and the loop is left. -/
structure HoldsNull (s : State c) (r : Fin c.receiveNum) (x : Rx) (n : ℕ) : Prop where
  node : x.node = some none
  exited : x.exited = true
  pc : s.rx r = .holding n
  content : s.content n = none

theorem push_inNode {req req' : HdReq ℕ} {d : Datagram} (h : req.push d = some req') :
    (inNode req).push d = some (inNode req') := by
  unfold HdReq.push at h ⊢
  split_ifs at h with hroom
  rw [dif_pos (show (inNode req).datagrams.length < maxWindowSize from hroom),
    ← Option.some.inj h]
  rfl

section Congr

variable {y : Rx}

theorem Follows.congr (h : Follows s₀ s r x) (hpool : y.pool.reduceOption = x.pool.reduceOption)
    (hsent : y.sent = x.sent) : Follows s₀ s r y :=
  ⟨h.run, h.pool.trans hpool.symm, by rw [hsent]; exact h.sent⟩

theorem Live.congr (h : Live s x) (hpool : y.pool.reduceOption = x.pool.reduceOption)
    (hnext : y.nextNode = x.nextNode) (hnode : y.node = x.node) (hreqs : y.reqs = x.reqs) :
    Live s y := by
  refine ⟨h.nextNode.trans hnext.symm, ?_, ?_, ?_⟩
  · rw [hpool, hnext]
    exact h.lt
  · rw [hpool, hnode]
    exact h.nodup
  · rw [hpool, hreqs]
    exact h.contents

theorem Empty.congr (h : Empty s r x) (hnode : y.node = x.node) : Empty s r y :=
  ⟨hnode.trans h.node, h.pc⟩

end Congr

theorem Follows.step (h : Follows s₀ s r x) (hstep : RxStep s r s')
    (hpool : s'.hdToRx = s.hdToRx) (hsent : s'.sent = s.sent) (hpool' : x'.pool = x.pool)
    (hsent' : x'.sent = x.sent) : Follows s₀ s' r x' := by
  refine ⟨h.run.tail hstep, ?_, ?_⟩
  · rw [hpool, hpool']
    exact h.pool
  · rw [hsent, hsent']
    exact h.sent

/-- No node is twice in a pool. -/
theorem Conserved.pool_nodup (hs : Conserved s) (j : Fin c.streamCount) : (s.hdToRx j).Nodup := by
  have hnodup := hs.nodup
  have hle : ((s.hdToRx j : List ℕ) : Multiset ℕ) ≤ s.nodes := by
    rw [State.nodes, gather_eq_add id s.hdToRx j]
    refine le_trans ?_ (Multiset.le_add_right _ _)
    exact le_trans (Multiset.le_add_right _ _) (Multiset.le_add_left _ _)
  exact Multiset.coe_nodup.mp (Multiset.nodup_of_le hle hnodup)

/-! ## Copying -/

theorem Follows.copy (h : Follows s₀ s r x) (hlive : Live s x) (hn : Holds s r x n)
    (hcopy : x.copy a = .ok x') : ∃ s', Follows s₀ s' r x' ∧ Live s' x' ∧ Holds s' r x' n := by
  unfold Rx.copy at hcopy
  split_ifs at hcopy
  swap
  · cases hcopy
    exact ⟨s, h, hlive, hn⟩
  rw [hn.req] at hcopy
  cases hpush : (x.reqs n).push a.datagram with
  | none => simp [hpush] at hcopy
  | some req =>
    simp only [hpush, Except.ok.injEq] at hcopy
    subst hcopy
    refine ⟨_, h.step (.copy a.datagram hn.pc hn.content (push_inNode hpush)) rfl rfl rfl rfl,
      ⟨hlive.nextNode, hlive.lt, hlive.nodup, fun k hk => ?_⟩, ⟨hn.node, rfl, hn.pc, ?_⟩⟩
    · have hne : k ≠ n := by
        rintro rfl
        have hnodup := hlive.nodup
        rw [hn.node] at hnodup
        exact List.disjoint_of_nodup_append hnodup hk List.mem_cons_self
      simp only [State.setContent, Function.update_of_ne hne]
      exact hlive.contents k hk
    · simp only [State.setContent, Function.update_self]

/-! ## Enqueuing -/

theorem Follows.enqueueHeld (h : Follows s₀ s r x) (hpc : s.rx r = .holding n)
    (node : Option (ℕ × HdReq ℕ)) (hnode : Records node (n, s.content n)) :
    ∃ s', Follows s₀ s' r { x with node := none, sent := x.sent ++ [node] } ∧
      s'.rx r = .inside ∧ s'.nextNode = s.nextNode ∧ s'.content = s.content := by
  obtain ⟨entries, hsent, hrecords⟩ := h.sent
  refine ⟨_, ⟨h.run.tail (.enqueue hpc), h.pool, entries ++ [(n, s.content n)], ?_, ?_⟩, ?_, rfl,
    rfl⟩
  · rw [← List.append_assoc, ← hsent]
    exact Function.update_self _ _ _
  · exact List.rel_append hrecords (.cons hnode .nil)
  · exact Function.update_self _ _ _

theorem Follows.enqueue (h : Follows s₀ s r x) (hlive : Live s x)
    (hcurrent : Empty s r x ∨ ∃ n, Holds s r x n) :
    ∃ s', Follows s₀ s' r x.enqueue ∧ Live s' x.enqueue ∧ Empty s' r x.enqueue := by
  rcases hcurrent with hempty | ⟨n, hn⟩
  · rw [Rx.enqueue_of_none hempty.node]
    exact ⟨s, h, hlive, hempty⟩
  · obtain ⟨s', h', hpc, hnext, hcontent⟩ :=
      h.enqueueHeld hn.pc (some (n, x.reqs n)) (by rw [hn.content]; rfl)
    rw [Rx.enqueue_of_some hn.node]
    refine ⟨s', h', ⟨hnext.trans hlive.nextNode, hlive.lt, ?_, ?_⟩, rfl, hpc⟩
    · exact (List.nodup_append.mp hlive.nodup).1.append List.nodup_nil (by simp)
    · rw [hcontent]
      exact hlive.contents

/-! ## Taking a node -/

/-- What has happened to the node of the receiver when it has served a datagram. -/
def Served (s : State c) (r : Fin c.receiveNum) (x : Rx) : Prop :=
  (Live s x ∧ ∃ n, Holds s r x n) ∨ (x.exited = true ∧ (Empty s r x ∨ ∃ n, HoldsNull s r x n))

theorem Follows.pop (h : Follows s₀ s r x) (hlive : Live s x) (hempty : Empty s r x)
    {pool : List (Option ℕ)} (hpool : x.pool = some n :: pool) (client : ℕ) :
    ∃ s', Follows s₀ s' r ({ x with pool := pool }.openNode n client) ∧
      Live s' ({ x with pool := pool }.openNode n client) ∧
      Holds s' r ({ x with pool := pool }.openNode n client) n := by
  have hcons : x.pool.reduceOption = n :: pool.reduceOption := by rw [hpool]; rfl
  have hrest : s.hdToRx (c.receiveStreams r) = n :: pool.reduceOption := h.pool.trans hcons
  obtain ⟨req, hreq, hstop⟩ := hlive.contents n (by rw [hcons]; exact List.mem_cons_self)
  have hnodup : (n :: pool.reduceOption).Nodup :=
    hcons ▸ (List.nodup_append.mp hlive.nodup).1
  have hpopped := h.run.tail (.pop hempty.pc hrest)
  refine ⟨_, ⟨hpopped.tail (.fill client (Function.update_self _ _ _) hreq),
    Function.update_self _ _ _, h.sent⟩, ⟨hlive.nextNode, fun k hk => ?_, ?_, fun k hk => ?_⟩,
    ⟨rfl, rfl, Function.update_self _ _ _, ?_⟩⟩
  · exact hlive.lt k (by rw [hcons]; exact List.mem_cons_of_mem n hk)
  · exact (List.perm_append_singleton n pool.reduceOption).symm.nodup hnodup
  · have hne : k ≠ n := fun h => (List.nodup_cons.mp hnodup).1 (h ▸ hk)
    simp only [State.setContent, State.rxGoto, Rx.openNode, Function.update_of_ne hne]
    exact hlive.contents k (by rw [hcons]; exact List.mem_cons_of_mem n hk)
  · simp only [State.setContent, State.rxGoto, Rx.openNode, Function.update_self, inNode,
      openFor, hstop]

theorem Follows.allocate (h : Follows s₀ s r x) (hlive : Live s x) (hempty : Empty s r x)
    (client : ℕ) :
    let new : Rx := { x with
      nextNode := x.nextNode + 1
      reqs := Function.update x.reqs x.nextNode
        { stop := false, client := client, datagrams := [], num_le := Nat.zero_le _ } }
    let y := new.openNode x.nextNode client
    ∃ s', Follows s₀ s' r y ∧ Live s' y ∧ Holds s' r y x.nextNode := by
  intro new y
  have hfresh : ∀ k ∈ x.pool.reduceOption, k ≠ x.nextNode := fun k hk => (hlive.lt k hk).ne
  refine ⟨_, ⟨(h.run.tail (.allocate hempty.pc)).tail
    (.fill (n := s.nextNode) client (Function.update_self _ _ _) (Function.update_self _ _ _)),
    h.pool, h.sent⟩, ⟨congrArg (· + 1) hlive.nextNode, fun k hk => ?_, ?_, fun k hk => ?_⟩,
    ⟨rfl, rfl, ?_, ?_⟩⟩
  · exact Nat.lt_succ_of_lt (hlive.lt k hk)
  · refine (List.nodup_append.mp hlive.nodup).1.append (List.nodup_singleton x.nextNode) ?_
    exact List.disjoint_singleton.mpr fun hmem => hfresh _ hmem rfl
  · have hne : k ≠ x.nextNode := hfresh k hk
    simp only [y, new, State.setContent, State.rxGoto, State.allocate, Rx.openNode, hlive.nextNode,
      Function.update_of_ne hne]
    exact hlive.contents k hk
  · rw [← hlive.nextNode]
    exact Function.update_self _ _ _
  · simp only [y, new, State.setContent, State.rxGoto, State.allocate, Rx.openNode, hlive.nextNode,
      Function.update_self]
    rfl

theorem Follows.takeNode (h : Follows s₀ s r x) (hlive : Live s x) (hempty : Empty s r x)
    (a : Arrival) (client : ℕ) :
    ∃ s', Follows s₀ s' r (x.takeNode a client) ∧ Served s' r (x.takeNode a client) := by
  by_cases hpool : ∃ n pool, x.pool = some n :: pool
  · obtain ⟨n, pool, hpool⟩ := hpool
    have htake : x.takeNode a client = { x with pool := pool }.openNode n client := by
      simp [Rx.takeNode, hpool]
    obtain ⟨s', h', hlive', hn⟩ := h.pop hlive hempty hpool client
    rw [htake]
    exact ⟨s', h', .inl ⟨hlive', n, hn⟩⟩
  -- `stream_pop` returns NULL, and the pool is as it was.
  have hnull : x.pool = [] ∨ ∃ pool, x.pool = none :: pool := by
    rcases hp : x.pool with _ | ⟨_ | n, pool⟩
    · exact .inl rfl
    · exact .inr ⟨pool, rfl⟩
    · exact absurd ⟨n, pool, hp⟩ hpool
  have htail : x.pool.tail.reduceOption = x.pool.reduceOption := by
    rcases hnull with hp | ⟨pool, hp⟩ <;> rw [hp] <;> rfl
  have h₁ : Follows s₀ s r { x with pool := x.pool.tail } := h.congr htail rfl
  cases hinit : a.initializeNode with
  | ok =>
    obtain ⟨s', h', hlive', hn⟩ :=
      h₁.allocate (hlive.congr htail rfl rfl rfl) (hempty.congr rfl) client
    have htake : x.takeNode a client = Rx.openNode { x with
        pool := x.pool.tail
        nextNode := x.nextNode + 1
        reqs := Function.update x.reqs x.nextNode
          { stop := false, client := client, datagrams := [], num_le := Nat.zero_le _ } }
        x.nextNode client := by
      rcases hnull with hp | ⟨pool, hp⟩ <;> simp [Rx.takeNode, hp, hinit]
    rw [htake]
    exact ⟨s', h', .inl ⟨hlive', _, hn⟩⟩
  | noContent =>
    have htake : x.takeNode a client =
        { x with pool := x.pool.tail, node := some none, exited := true } := by
      rcases hnull with hp | ⟨pool, hp⟩ <;> simp [Rx.takeNode, hp, hinit]
    rw [htake]
    exact ⟨_, h₁.step (.allocateNull hempty.pc) rfl rfl rfl rfl, .inr ⟨rfl, .inr ⟨s.nextNode,
      rfl, rfl, Function.update_self .., Function.update_self ..⟩⟩⟩
  | null =>
    have htake : x.takeNode a client =
        { x with pool := x.pool.tail, node := none, exited := true } := by
      rcases hnull with hp | ⟨pool, hp⟩ <;> simp [Rx.takeNode, hp, hinit]
    rw [htake]
    exact ⟨s, h.congr htail rfl, .inr ⟨rfl, .inl ⟨rfl, hempty.pc⟩⟩⟩

theorem Follows.serve (h : Follows s₀ s r x) (hlive : Live s x) (hempty : Empty s r x)
    (hserve : x.serve a client = .ok x') : ∃ s', Follows s₀ s' r x' ∧ Served s' r x' := by
  obtain ⟨s₁, h₁, hserved⟩ := Follows.takeNode (x := { x with contained := some client })
    (h.congr rfl rfl) (hlive.congr rfl rfl rfl rfl) (hempty.congr rfl) a client
  unfold Rx.serve at hserve
  dsimp only at hserve
  split_ifs at hserve with hexited
  · cases hserve
    exact ⟨s₁, h₁, hserved⟩
  · rcases hserved with ⟨hlive₁, n, hn⟩ | ⟨hexit, -⟩
    · obtain ⟨s', h', hlive', hn'⟩ := h₁.copy hlive₁ hn hserve
      exact ⟨s', h', .inl ⟨hlive', n, hn'⟩⟩
    · exact absurd hexit hexited

/-! ## The loop -/

/-- Where the receiver is between two datagrams of its batch. -/
def At (s : State c) (r : Fin c.receiveNum) (x : Rx) : Prop :=
  Served s r x ∨ (Live s x ∧ Empty s r x ∧ x.contained = none)

theorem Follows.lookup (h : Follows s₀ s r x) (hlive : Live s x) (hempty : Empty s r x)
    (hinit : a.initializeClient = true) (hlookup : x.lookup maxClients a = .ok x') :
    ∃ s', Follows s₀ s' r x' ∧ At s' r x' := by
  have hnone : ∀ locked exited, ∃ s', Follows s₀ s' r
      { x with contained := none, locked := locked, exited := exited } ∧
        At s' r { x with contained := none, locked := locked, exited := exited } :=
    fun _ _ => ⟨s, h.congr rfl rfl, .inr ⟨hlive.congr rfl rfl rfl rfl, hempty.congr rfl, rfl⟩⟩
  have hserve : ∀ y : Rx, y.pool = x.pool → y.sent = x.sent → y.nextNode = x.nextNode →
      y.node = x.node → y.reqs = x.reqs → ∀ client, y.serve a client = .ok x' →
        ∃ s', Follows s₀ s' r x' ∧ At s' r x' := by
    intro y hpool hsent hnext hnode hreqs client hy
    have hpool' : y.pool.reduceOption = x.pool.reduceOption := by rw [hpool]
    obtain ⟨s', h', hserved⟩ := (h.congr hpool' hsent).serve
      (hlive.congr hpool' hnext hnode hreqs) (hempty.congr hnode) hy
    exact ⟨s', h', .inl hserved⟩
  unfold Rx.lookup at hlookup
  have hlocked : ¬ x.locked = true := by
    intro hlocked
    rw [if_pos hlocked] at hlookup
    cases hlookup
  rw [if_neg hlocked] at hlookup
  cases hget : x.table.get a.address with
  | none => simp [hget] at hlookup
  | some found =>
    rw [hget] at hlookup
    cases found with
    | some client => exact hserve x rfl rfl rfl rfl rfl client hlookup
    | none =>
      dsimp only at hlookup
      rw [hinit] at hlookup
      split_ifs at hlookup with hfull hcalloc hfails
      · rw [← Except.ok.inj hlookup]
        exact hnone x.locked x.exited
      · rw [← Except.ok.inj hlookup]
        exact hnone true true
      · exact absurd hfails (by decide)
      · cases hput : x.table.put a.address (some x.nextClient) with
        | none => simp [hput] at hlookup
        | some p =>
          rw [hput] at hlookup
          exact hserve (x.withClient p.2.2 a.address) rfl rfl rfl rfl rfl _ hlookup

theorem Follows.round (h : Follows s₀ s r x) (hat : At s r x) (hinit : a.initializeClient = true)
    (hstep : x.step maxClients a = .ok x') : ∃ s', Follows s₀ s' r x' ∧ At s' r x' := by
  have hnext : ∀ y : Rx, (∃ s', Follows s₀ s' r y ∧ At s' r y) →
      ∃ s', Follows s₀ s' r (y.next (x.i + 1) a.address) ∧
        At s' r (y.next (x.i + 1) a.address) := by
    rintro y ⟨s', h', hat'⟩
    refine ⟨s', h'.congr rfl rfl, ?_⟩
    rcases hat' with (⟨hlive, n, hn⟩ | ⟨hexited, hempty | ⟨n, hn⟩⟩) | ⟨hlive, hempty, hnone⟩
    · exact .inl (.inl ⟨hlive.congr rfl rfl rfl rfl, n, ⟨hn.node, hn.req, hn.pc, hn.content⟩⟩)
    · exact .inl (.inr ⟨hexited, .inl (hempty.congr rfl)⟩)
    · exact .inl (.inr ⟨hexited, .inr ⟨n, ⟨hn.node, hn.exited, hn.pc, hn.content⟩⟩⟩)
    · exact .inr ⟨hlive.congr rfl rfl rfl rfl, hempty.congr rfl, hnone⟩
  unfold Rx.step at hstep
  split_ifs at hstep with hexited
  · cases hstep
    exact ⟨s, h, hat⟩
  cases hbody : x.body maxClients a with
  | error fault =>
    rw [hbody] at hstep
    cases hstep
  | ok y =>
    rw [hbody] at hstep
    rw [← Except.ok.inj hstep]
    refine hnext y ?_
    have hlookup : Live s x → (Empty s r x ∨ ∃ n, Holds s r x n) →
        x.enqueue.lookup maxClients a = .ok y → ∃ s', Follows s₀ s' r y ∧ At s' r y := by
      intro hlive hcurrent hy
      obtain ⟨s₁, h₁, hlive₁, hempty₁⟩ := h.enqueue hlive hcurrent
      exact h₁.lookup hlive₁ hempty₁ hinit hy
    unfold Rx.body at hbody
    rcases hat with (⟨hlive, n, hn⟩ | ⟨hexit, -⟩) | ⟨hlive, hempty, hnone⟩
    · split_ifs at hbody
      · obtain ⟨s', h', hlive', hn'⟩ := h.copy hlive hn hbody
        exact ⟨s', h', .inl (.inl ⟨hlive', n, hn'⟩)⟩
      · exact hlookup hlive (.inr ⟨n, hn⟩) hbody
    · exact absurd hexit hexited
    · have hjoins : ¬ x.Joins a := by
        rintro ⟨hsome, -⟩
        rw [hnone] at hsome
        cases hsome
      rw [if_neg hjoins] at hbody
      exact hlookup hlive (.inl hempty) hbody

theorem Follows.rounds (h : Follows s₀ s r x) (hat : At s r x) {batch : List Arrival}
    (hinit : ∀ a ∈ batch, a.initializeClient = true)
    (hrun : batch.foldlM (Rx.step maxClients) x = .ok x') :
    ∃ s', Follows s₀ s' r x' ∧ At s' r x' := by
  induction batch generalizing s x with
  | nil =>
    cases hrun
    exact ⟨s, h, hat⟩
  | cons a batch ih =>
    rw [List.foldlM_cons] at hrun
    cases hstep : x.step maxClients a with
    | error fault =>
      rw [hstep] at hrun
      cases hrun
    | ok y =>
      rw [hstep] at hrun
      obtain ⟨s₁, h₁, hat₁⟩ := h.round hat (hinit a List.mem_cons_self) hstep
      exact ih h₁ hat₁ (fun b hb => hinit b (List.mem_cons_of_mem a hb)) hrun

/-- The end of the call: the node that the receiver has is enqueued, also one without a
request. -/
theorem Follows.finish (h : Follows s₀ s r x) (hat : At s r x) :
    ∃ s', Follows s₀ s' r x.enqueue ∧ s'.rx r = .inside := by
  have hcurrent : Live s x → (Empty s r x ∨ ∃ n, Holds s r x n) →
      ∃ s', Follows s₀ s' r x.enqueue ∧ s'.rx r = .inside := by
    intro hlive hcurrent
    obtain ⟨s', h', -, hempty⟩ := h.enqueue hlive hcurrent
    exact ⟨s', h', hempty.pc⟩
  rcases hat with (⟨hlive, n, hn⟩ | ⟨-, hempty | ⟨n, hn⟩⟩) | ⟨hlive, hempty, -⟩
  · exact hcurrent hlive (.inr ⟨n, hn⟩)
  · rw [Rx.enqueue_of_none hempty.node]
    exact ⟨s, h, hempty.pc⟩
  · obtain ⟨s', h', hpc, -⟩ := h.enqueueHeld hn.pc none hn.content
    have henqueue : x.enqueue = { x with node := none, sent := x.sent ++ [none] } := by
      unfold Rx.enqueue
      rw [hn.node]
    rw [henqueue]
    exact ⟨s', h', hpc⟩
  · exact hcurrent hlive (.inl hempty)

/-- A call of `rx_run_once` that returns, from any state of a run, is a run of steps of its
receiver.  What has been enqueued in it are the nodes that the call has sent, with their
requests as they were then, and the pool is what the call has left of it. -/
theorem rxRunOnce_steps (s : State c) (hs : Reached s) (r : Fin c.receiveNum)
    (hpc : s.rx r = .inside) (x : Rx) (hpool : s.hdToRx (c.receiveStreams r) = x.pool.reduceOption)
    (hnext : s.nextNode = x.nextNode) (hstop : x.NoStop) (maxClients : ℕ) (batch : List Arrival)
    (hinit : ∀ a ∈ batch, a.initializeClient = true) (x' : Rx)
    (hrun : rxRunOnce maxClients x batch = .ok x') :
    ∃ s', Reached s' ∧ Relation.ReflTransGen (fun s s' => RxStep s r s') s s' ∧
      s'.rx r = .inside ∧ s'.hdToRx (c.receiveStreams r) = x'.pool.reduceOption ∧
      ∃ entries, s'.sent (c.receiveStreams r) = s.sent (c.receiveStreams r) ++ entries ∧
        List.Forall₂ Records x'.sent entries := by
  have hmem : ∀ n ∈ x.pool.reduceOption, n ∈ s.hdToRx (c.receiveStreams r) := by
    rw [hpool]
    exact fun n hn => hn
  have hlive : Live s x.begin := by
    refine ⟨hnext, fun n hn => ?_, ?_, fun n hn => ?_⟩
    · show n < x.nextNode
      rw [← hnext]
      refine hs.inv.conserved.lt ?_
      rw [nodes_eq]
      exact Multiset.mem_add.mpr (.inr (mem_elsewhere.mpr (.inr (.inr (.inl ⟨_, hmem n hn⟩)))))
    · show (x.pool.reduceOption ++ []).Nodup
      rw [List.append_nil, ← hpool]
      exact hs.inv.conserved.pool_nodup _
    · obtain ⟨req, hreq, hreqstop⟩ := hs.inv.contents.pool _ n (hmem n hn)
      exact ⟨req, hreq, hreqstop.trans (hstop n).symm⟩
  have hstart : Follows s s r x.begin :=
    ⟨.refl, hpool, [], (List.append_nil _).symm, .nil⟩
  unfold rxRunOnce at hrun
  cases hfold : batch.foldlM (Rx.step maxClients) x.begin with
  | error fault =>
    rw [hfold] at hrun
    cases hrun
  | ok y =>
    rw [hfold] at hrun
    obtain ⟨s₁, h₁, hat₁⟩ := hstart.rounds (.inr ⟨hlive, ⟨rfl, hpc⟩, rfl⟩) hinit hfold
    obtain ⟨s', h', hinside⟩ := h₁.finish hat₁
    rw [← Except.ok.inj hrun]
    refine ⟨s', ?_, h'.run, hinside, h'.pool, h'.sent⟩
    have hreached : ∀ t, Relation.ReflTransGen (fun s s' => RxStep s r s') s t → Reached t := by
      intro t ht
      induction ht with
      | refl => exact hs
      | tail _ hstep ih => exact ih.step trivial (.rx hstep)
    exact hreached s' h'.run

theorem rxRunOnce_steps_first : ∃ s : State single, Reached s ∧
    (s.sent (0 : Fin 1)).length = 1 := by
  have hs : Reached (started.rxGoto (0 : Fin 1) .inside) :=
    .step (.start ⟨rfl, fun _ => rfl, fun _ => rfl, fun _ => rfl, fun _ => rfl, fun _ => rfl, rfl,
      rfl, fun _ => rfl, fun _ => rfl, fun _ => rfl⟩) trivial (.rx (.enter rfl rfl))
  have hcount : (rxRunOnce 5 Rx.initial [Arrival.zeros 1 16]).toOption.map
      (fun x => x.sent.length) = some 1 := by
    decide +kernel
  cases hrun : rxRunOnce 5 Rx.initial [Arrival.zeros 1 16] with
  | error fault =>
    rw [hrun] at hcount
    cases hcount
  | ok x' =>
    rw [hrun] at hcount
    obtain ⟨s', hs', -, -, -, entries, hsent, hrecords⟩ :=
      rxRunOnce_steps _ hs (0 : Fin 1) rfl Rx.initial rfl rfl
        (fun _ => rfl) 5 [Arrival.zeros 1 16] (by simp [Arrival.zeros]) x' hrun
    refine ⟨s', hs', ?_⟩
    have hlength : (s'.sent (0 : Fin 1)).length = entries.length := congrArg List.length hsent
    rw [hlength, ← hrecords.length_eq]
    exact Option.some.inj hcount

/-! ## The handler -/

/-- A call of `hd_run_once` that pops a node is a run of steps of its handler, which does with
the node what the call says. -/
theorem hdRunOnce_steps {h : Fin c.handleNum} (hpc : s.hd h = .idle) {rest : List ℕ}
    (hqueue : s.rxToHd (c.handleStreams h) = n :: rest) (crc : Crc) (cfg : HdCfg)
    (env : HdEnv (Option ℕ)) (state : HdState (Option ℕ)) (hexit : state.exit = false) :
    let (state', _, fate) := hdRunOnce crc cfg env (some (s.content n)) state
    ∃ s', Relation.ReflTransGen (fun s s' => HdStep s h s') s s' ∧
      s'.rxToHd (c.handleStreams h) = rest ∧
      s'.hdToRx (c.handleStreams h) =
        s.hdToRx (c.handleStreams h) ++ (if fate = .recycled then [n] else []) ∧
      s'.freed = s.freed ++ (if fate = .freed then [n] else []) ∧
      s'.hd h = if state'.exit then .exited else .idle := by
  have hpop := Relation.ReflTransGen.single (r := fun s s' => HdStep s h s') (.pop hpc hqueue)
  cases hcontent : s.content n with
  | none =>
    refine ⟨_, hpop.tail (.freeNull (Function.update_self _ _ _) hcontent), Function.update_self ..,
      (List.append_nil _).symm, rfl, ?_⟩
    simp [hexit, State.hdGoto]
  | some req =>
    cases hstop : req.stop with
    | true =>
      simp only [hdRunOnce, hstop, if_true]
      exact ⟨_, hpop.tail (.exit (Function.update_self _ _ _) ⟨req, hcontent, hstop⟩),
        Function.update_self .., (List.append_nil _).symm, rfl, Function.update_self ..⟩
    | false =>
      simp only [hdRunOnce, hstop, hexit, Bool.false_eq_true, if_false]
      exact ⟨_, hpop.tail (.recycle (Function.update_self _ _ _) hcontent hstop),
        Function.update_self .., Function.update_self .., (List.append_nil _).symm,
        Function.update_self ..⟩

end Trtp.Nodes
