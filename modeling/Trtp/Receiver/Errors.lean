import Trtp.Lib.Runs
import Trtp.Receiver.Dispatch

/-!
# Error paths of the receiver

A failed `initialize_node` does no harm.  A failed `calloc` or `initialize_client` for a
client leaves the lock of the table held: in the first case the loop is left at once, in
the second it goes on, and the next lookup waits for ever.  Before that, the datagrams
that follow from the same address are written through `req`, which then points to a
request that was enqueued before, or nowhere.
-/

namespace Trtp

open Lib

namespace Rx

/-- What should hold when `rx_run_once` returns: the lock is free, no request has changed
since it was enqueued, and the datagrams in a request come from the address of its
client. -/
structure Clean (s : Rx) : Prop where
  unlocked : s.locked = false
  kept : ∀ n req, some (n, req) ∈ s.sent → s.reqs n = req
  origin : ∀ n req, some (n, req) ∈ s.sent → ∀ address ∈ s.origins n,
    (s.clients req.client).address = address

/-- A call that ends well.  A search of a full table, which does not end, is no matter of
the error paths. -/
def CleanEnd : Except Fault Rx → Prop
  | .ok s => s.Clean
  | .error .spin => True
  | .error _ => False

def OwnedBy (s : Rx) (address : Address) (client : ℕ) : Prop :=
  client < s.nextClient ∧ (s.clients client).address = address

/-- Every client of the table has the address it is registered under. -/
def Owned (s : Rx) : Prop := s.table.Each s.OwnedBy

/-- The datagrams of a request come from the address of its client. -/
def FromClient (s : Rx) (n client : ℕ) : Prop := ∀ address ∈ s.origins n, s.OwnedBy address client

/-- The sources of the datagrams in the requests. -/
structure Origin (s : Rx) : Prop where
  owned : s.Owned
  sent : ∀ n req, some (n, req) ∈ s.sent → s.FromClient n req.client
  current : ∀ n, s.node = some (some n) → s.FromClient n (s.reqs n).client

variable {s : Rx} {a : Arrival} {client n maxClients : ℕ}

/-! ## The lock -/

theorem copy_locked (s : Rx) (a : Arrival) :
    (∃ s', s.copy a = .ok s' ∧ s'.locked = s.locked) ∨
      ∃ fault, s.copy a = .error fault ∧ fault ≠ .spin := by
  unfold copy
  split
  · split
    · exact .inr ⟨.uninitialised, rfl, by decide⟩
    · split
      · exact .inr ⟨.overflow, rfl, by decide⟩
      · exact .inl ⟨_, rfl, rfl⟩
  · exact .inl ⟨s, rfl, rfl⟩

theorem step_locked (h : s.locked = true) (maxClients : ℕ) (a : Arrival) :
    (∃ s', s.step maxClients a = .ok s' ∧ s'.locked = true) ∨
      ∃ fault, s.step maxClients a = .error fault ∧ fault ≠ .spin := by
  cases hrun : s.exited with
  | true => exact .inl ⟨s, by rw [step, hrun, if_pos rfl], h⟩
  | false =>
    by_cases hj : s.Joins a
    · rw [step_of_joins hrun hj]
      rcases copy_locked s a with ⟨s', hs', hl⟩ | ⟨fault, hf, hne⟩
      · rw [hs']
        exact .inl ⟨_, rfl, hl.trans h⟩
      · rw [hf]
        exact .inr ⟨fault, rfl, hne⟩
    · -- The lookup waits for the lock.
      have hlocked : s.enqueue.locked = true := by rw [enqueue_eq]; exact h
      rw [step_of_not_joins hrun hj, lookup, if_pos hlocked]
      exact .inr ⟨.deadlock, rfl, by decide⟩

/-- Once the lock is held it stays held, or the call does not return. -/
theorem foldlM_locked (h : s.locked = true) (maxClients : ℕ) (batch : List Arrival) :
    (∃ s', batch.foldlM (step maxClients) s = .ok s' ∧ s'.locked = true) ∨
      ∃ fault, batch.foldlM (step maxClients) s = .error fault ∧ fault ≠ .spin := by
  induction batch generalizing s with
  | nil => exact .inl ⟨s, rfl, h⟩
  | cons a batch ih =>
    rw [List.foldlM_cons]
    rcases step_locked h maxClients a with ⟨s', hs', hl⟩ | ⟨fault, hf, hne⟩
    · rw [hs']
      exact ih hl
    · rw [hf]
      exact .inr ⟨fault, rfl, hne⟩

/-- A client that cannot be created leaves the lock held. -/
theorem Inv.step_broken (h : s.Inv) (hc : s.Creates maxClients a)
    (hfail : ¬ (a.calloc = true ∧ a.initializeClient = true)) :
    ∃ s', s.step maxClients a = .ok s' ∧ s'.locked = true := by
  obtain ⟨hrun, hj, hget, hroom⟩ := hc
  have hlocked : ¬ s.enqueue.locked = true := by
    rw [h.enqueue.unlocked]
    decide
  have hget' : s.enqueue.table.get a.address = some none := by rw [enqueue_eq]; exact hget
  have hroom' : ¬ s.enqueue.table.length ≥ maxClients := by
    rw [enqueue_eq]
    exact not_le.mpr hroom
  rw [step_of_not_joins hrun hj, lookup, if_neg hlocked, hget']
  dsimp only
  rw [if_neg hroom']
  cases hcalloc : a.calloc with
  | false => exact ⟨_, rfl, rfl⟩
  | true =>
    have hinit : a.initializeClient = false := by
      by_contra hn
      exact hfail ⟨hcalloc, by simpa using hn⟩
    rw [hinit]
    exact ⟨_, rfl, rfl⟩

/-! ## The sources -/

theorem Origin.enqueue (h : s.Origin) : s.enqueue.Origin := by
  unfold Rx.enqueue
  split
  · exact h
  · refine ⟨h.owned, fun n req hreq => ?_, fun n hn => ?_⟩
    · simp only [List.mem_append, List.mem_singleton, reduceCtorEq, or_false] at hreq
      exact h.sent n req hreq
    · cases hn
  · rename_i k hk
    refine ⟨h.owned, fun n req hreq => ?_, fun n hn => ?_⟩
    · rcases List.mem_append.mp hreq with hreq | hreq
      · exact h.sent n req hreq
      · cases List.mem_singleton.mp hreq
        exact h.current k hk
    · cases hn

theorem Origin.copied (h : s.Origin) (hopen : s.Open n client) (hown : s.OwnedBy a.address client)
    (hroom : (s.reqs n).datagrams.length < maxWindowSize) : (s.copied n a).Origin := by
  unfold Rx.copied
  split
  · obtain ⟨req', hpush, -, howner, -⟩ := push_eq hroom a.datagram
    rw [hpush, Option.getD_some]
    refine ⟨h.owned, fun k req hreq => ?_, fun k hk => ?_⟩
    · have hne : k ≠ n := by
        rintro rfl
        exact hopen.notMem_sent req hreq
      intro address haddress
      simp only [Function.update_of_ne hne] at haddress
      exact h.sent k req hreq address haddress
    · have hkn : n = k := by
        have := hopen.node.symm.trans hk
        simpa using this
      subst hkn
      intro address haddress
      simp only [Function.update_self] at haddress ⊢
      rw [howner]
      rcases List.mem_append.mp haddress with haddress | haddress
      · exact h.current n hopen.node address haddress
      · rw [List.mem_singleton.mp haddress, hopen.owner]
        exact hown
  · exact h

theorem Origin.opened {stop : Bool} {pool : List (Option ℕ)} {nextNode : ℕ} (h : s.Origin)
    (hsent : ∀ req, some (n, req) ∉ s.sent) : (s.opened n client stop pool nextNode).Origin := by
  refine ⟨h.owned, fun k req hreq => ?_, fun k hk => ?_⟩
  · have hne : k ≠ n := by
      rintro rfl
      exact hsent req hreq
    intro address haddress
    rw [show (s.opened n client stop pool nextNode).origins k = s.origins k from
      Function.update_of_ne hne _ _] at haddress
    exact h.sent k req hreq address haddress
  · have hkn : n = k := by
      simpa [Rx.opened] using hk
    subst hkn
    intro address haddress
    simp [Rx.opened] at haddress

theorem Origin.serve (h : s.Origin) (hb : s.Between)
    (hget : s.table.get a.address = some (some client)) {s' : Rx}
    (hserve : s.serve a client = .ok s') : s'.Origin := by
  have hown : s.OwnedBy a.address client := h.owned.get hget
  rcases hb.serve_cases a client with
    ⟨n, stop, pool, nextNode, t, ht, hs, hopen, -, hempty⟩ | ⟨-, node, pool, hjoin, hs⟩
  · rw [hs, Except.ok.injEq] at hserve
    rw [← hserve]
    have horigin : t.Origin := by
      rw [ht]
      refine Origin.opened ⟨h.owned, h.sent, h.current⟩ fun req hreq => ?_
      refine hopen.notMem_sent req ?_
      rw [ht]
      exact hreq
    refine horigin.copied hopen ?_ (by rw [hempty]; decide)
    rw [ht]
    exact hown
  · rw [hs, Except.ok.injEq] at hserve
    rw [← hserve]
    refine ⟨h.owned, h.sent, fun n hn => ?_⟩
    have hn : node = some (some n) := hn
    rw [hn] at hjoin
    cases hjoin

theorem OwnedBy.withClient {table : Ht ℕ} {address address' : Address}
    (h : s.OwnedBy address client) : (s.withClient table address').OwnedBy address client := by
  refine ⟨Nat.lt_succ_of_lt h.1, ?_⟩
  have hne : client ≠ s.nextClient := Nat.ne_of_lt h.1
  show (Function.update s.clients s.nextClient _ client).address = address
  rw [Function.update_of_ne hne]
  exact h.2

theorem Origin.withClient (h : s.Origin) {address : Address} {old : Option ℕ} {freed : List ℕ}
    {table : Ht ℕ} (hput : s.table.put address (some s.nextClient) = some (old, freed, table)) :
    (s.withClient table address).Origin := by
  refine ⟨?_, fun n req hreq => ?_, fun n hn => ?_⟩
  · have hold : s.table.Each (s.withClient table address).OwnedBy :=
      h.owned.mono fun k c hc => hc.withClient
    refine hold.put (fun c hc => ?_) hput
    rw [← Option.some.inj hc]
    refine ⟨Nat.lt_succ_self _, ?_⟩
    show (Function.update s.clients s.nextClient _ s.nextClient).address = address
    rw [Function.update_self]
    rfl
  · exact fun k hk => (h.sent n req hreq k hk).withClient
  · exact fun k hk => (h.current n hn k hk).withClient

theorem Origin.step (h : s.Origin) (hinv : s.Inv) (hcreate : s.CreateOk maxClients a) {s' : Rx}
    (hstep : s.step maxClients a = .ok s') : s'.Origin := by
  have hnext : ∀ {t : Rx}, t.Origin → (t.next (s.i + 1) a.address).Origin := fun ht =>
    ⟨ht.owned, ht.sent, ht.current⟩
  by_cases hj : s.Joins a
  · rw [step_of_joins hinv.running hj] at hstep
    obtain ⟨hsome, hprev, hi⟩ := hj
    rcases hinv.current with ⟨-, hnone⟩ | ⟨n, client, hc⟩
    · rw [hnone] at hsome
      cases hsome
    have hroom := lt_of_le_of_lt hc.num_le hi
    rw [copy_eq hc.req hroom] at hstep
    cases hstep
    refine hnext (h.copied (hinv.open hc) ?_ hroom)
    rw [hprev]
    exact h.owned.get hc.registered
  · rw [step_of_not_joins hinv.running hj] at hstep
    have hb := hinv.enqueue
    have ho := h.enqueue
    cases hlookup : s.enqueue.lookup maxClients a with
    | error fault =>
      rw [hlookup] at hstep
      cases hstep
    | ok t =>
      rw [hlookup] at hstep
      rw [← Except.ok.inj hstep]
      apply hnext
      rcases lookup_cases hlookup with
        ⟨client, hget, hserve⟩ | ⟨-, rfl⟩ | ⟨hget, hlt, hcreated | ⟨hfailed, -⟩⟩
      · exact ho.serve hb hget hserve
      · exact ⟨ho.owned, ho.sent, ho.current⟩
      · obtain ⟨-, -, old, freed, table, hput, hserve⟩ := hcreated
        exact (ho.withClient hput).serve (hb.withClient table a.address) (Ht.get_of_put hput)
          hserve
      · rw [enqueue_eq] at hget hlt
        exact absurd (hcreate ⟨hinv.running, hj, hget, hlt⟩) hfailed

/-! ## Whole calls -/

theorem Inv.clean (h : s.Inv) (ho : s.Origin) : s.enqueue.Clean :=
  ⟨h.enqueue.unlocked, h.enqueue.kept, fun n req hreq address haddress =>
    (ho.enqueue.sent n req hreq address haddress).2⟩

theorem Stopped.clean (h : s.Stopped) (ho : s.Origin) : s.enqueue.Clean := by
  have hsent : ∀ n req, some (n, req) ∈ s.enqueue.sent → some (n, req) ∈ s.sent := by
    intro n req hreq
    unfold Rx.enqueue at hreq
    split at hreq
    · exact hreq
    · simpa using hreq
    · rename_i k hk
      have := h.node
      rw [hk] at this
      cases this
  refine ⟨?_, fun n req hreq => ?_, fun n req hreq address haddress => ?_⟩
  · rw [enqueue_eq]
    exact h.unlocked
  · have := h.kept n req (hsent n req hreq)
    rw [enqueue_eq]
    exact this
  · exact (ho.enqueue.sent n req hreq address haddress).2

/-- After a `break` the rest of the batch is not looked at. -/
theorem foldlM_of_exited (h : s.exited = true) (maxClients : ℕ) (batch : List Arrival) :
    batch.foldlM (step maxClients) s = .ok s ∧
      AlongE (step maxClients) (CreateOk maxClients) s batch := by
  have hstep : ∀ a, s.step maxClients a = .ok s := fun a => by rw [step, h, if_pos rfl]
  induction batch with
  | nil => exact ⟨rfl, trivial⟩
  | cons a batch ih =>
    refine ⟨?_, fun hc => ?_, fun s' hs' => ?_⟩
    · rw [List.foldlM_cons, hstep]
      exact ih.1
    · have := hc.1.symm.trans h
      cases this
    · rw [hstep, Except.ok.injEq] at hs'
      rw [← hs']
      exact ih.2

theorem not_cleanEnd_of_locked (h : s.locked = true) (batch : List Arrival) :
    ¬ CleanEnd ((batch.foldlM (step maxClients) s).map Rx.enqueue) := by
  rcases foldlM_locked h maxClients batch with ⟨s', hs', hl⟩ | ⟨fault, hf, hne⟩
  · rw [hs']
    intro hclean
    have hunlocked : s'.enqueue.locked = false := hclean.unlocked
    rw [enqueue_eq] at hunlocked
    have := hl.symm.trans hunlocked
    cases this
  · rw [hf]
    cases fault with
    | spin => exact absurd rfl hne
    | deadlock => exact id
    | uninitialised => exact id
    | overflow => exact id

theorem Inv.cleanEnd_iff (h : s.Inv) (ho : s.Origin) (batch : List Arrival) :
    CleanEnd ((batch.foldlM (step maxClients) s).map Rx.enqueue) ↔
      AlongE (step maxClients) (CreateOk maxClients) s batch := by
  induction batch generalizing s with
  | nil => exact iff_of_true (h.clean ho) trivial
  | cons a batch ih =>
    rw [List.foldlM_cons, AlongE]
    by_cases hc : s.CreateOk maxClients a
    · have hspec := h.step_spec maxClients hc
      cases henroll : s.registry.enroll maxClients a.address with
      | none =>
        rw [henroll] at hspec
        rw [hspec]
        exact iff_of_true trivial ⟨hc, fun s' hs' => absurd hs' (by simp)⟩
      | some r =>
        rw [henroll] at hspec
        obtain ⟨s', hs', -, hcase⟩ := hspec
        have ho' := ho.step h hc hs'
        rw [hs']
        rcases hcase with ⟨hinv, -⟩ | ⟨-, hstop⟩
        · refine (ih hinv ho').trans
            ⟨fun hrest => ⟨hc, fun t ht => ?_⟩, fun hrest => hrest.2 s' rfl⟩
          rw [← Except.ok.inj ht]
          exact hrest
        · obtain ⟨hfold, hrest⟩ := foldlM_of_exited hstop.exited maxClients batch
          refine iff_of_true ?_ ⟨hc, fun t ht => ?_⟩
          · show CleanEnd ((batch.foldlM (step maxClients) s').map Rx.enqueue)
            rw [hfold]
            exact hstop.clean ho'
          · rw [← Except.ok.inj ht]
            exact hrest
    · have hfail : s.Creates maxClients a ∧ ¬ (a.calloc = true ∧ a.initializeClient = true) := by
        unfold CreateOk at hc
        exact Classical.not_imp.mp hc
      obtain ⟨s', hs', hl⟩ := h.step_broken hfail.1 hfail.2
      rw [hs']
      exact iff_of_false (not_cleanEnd_of_locked hl batch) fun hrest => hc hrest.1

end Rx

/-- `rx_run_once` ends well on exactly the batches for which no call of `calloc` for a client
and no call of `initialize_client` fails. -/
theorem receiver_clean_iff (maxClients : ℕ) (s : Rx) (hs : s.Ready) (how : s.Owned)
    (batch : List Arrival) :
    Rx.CleanEnd (rxRunOnce maxClients s batch) ↔
      AlongE (Rx.step maxClients) (Rx.CreateOk maxClients) s.begin batch := by
  have ho : s.begin.Origin := by
    refine ⟨how, fun n req hreq => ?_, fun n hn => ?_⟩
    · cases hreq
    · cases hn
  have hrun : rxRunOnce maxClients s batch =
      (batch.foldlM (Rx.step maxClients) s.begin).map Rx.enqueue := by
    unfold rxRunOnce
    cases batch.foldlM (Rx.step maxClients) s.begin <;> rfl
  rw [hrun]
  exact hs.begin.cleanEnd_iff ho batch

theorem Rx.initial_owned : Rx.initial.Owned := Ht.each_fresh 16

/-- There is no memory for the request of the first datagram. -/
theorem receiver_clean_noContent :
    Rx.CleanEnd (rxRunOnce 5 Rx.initial
      [{ Arrival.zeros 1 11 with initializeNode := .noContent }]) := by
  refine (receiver_clean_iff 5 Rx.initial ?_ Rx.initial_owned _).mpr ⟨fun _ => ⟨rfl, rfl⟩, ?_⟩
  · exact ⟨rfl, List.nodup_nil, fun _ hn => absurd hn List.not_mem_nil⟩
  · intro s' _
    trivial

/-- The client of the second datagram cannot be initialized.  The third datagram, from the
same address, is added to the request of the first, which has been enqueued, and the lock
is held at the end. -/
theorem receiver_not_clean_initialize :
    ¬ Rx.CleanEnd (rxRunOnce 5 Rx.initial
      [.zeros 1 11, { Arrival.zeros 2 11 with initializeClient := false }, .zeros 2 11]) := by
  have hrun : (rxRunOnce 5 Rx.initial
      [.zeros 1 11, { Arrival.zeros 2 11 with initializeClient := false }, .zeros 2 11]).map
      (fun s => (s.locked, s.requests.map fun req => req.datagrams.length,
        (s.reqs 0).datagrams.length)) = .ok (true, [1], 2) := by
    rfl
  intro hclean
  cases hs : rxRunOnce 5 Rx.initial
      [.zeros 1 11, { Arrival.zeros 2 11 with initializeClient := false }, .zeros 2 11] with
  | error fault =>
    rw [hs] at hrun
    cases hrun
  | ok s =>
    rw [hs] at hrun hclean
    have hlocked : s.locked = true := congrArg Prod.fst (Except.ok.inj hrun)
    have hunlocked : s.locked = false := hclean.unlocked
    rw [hlocked] at hunlocked
    cases hunlocked

end Trtp
