import Trtp.Server.Sequential
import Trtp.Server.Transfer

/-!
# The code as a schedule of the threads

The steps of the threads are parts of `rx_run_once`, `hd_run_once` and the reaper.  Here
each of the three, as it is in the code, is a run of such steps, taken by its thread while
the others wait.  The receiver is in any state of the threads, and its datagrams go to the
clients to which the reference that looks every datagram up gives them.
-/

namespace Trtp.Threads

open Lib

variable {ρ η : Type} [DecidableEq ρ] [DecidableEq η] {t : State ρ η} {r : ρ} {h : η}
  {maxClients : ℕ} {crc : Crc} {cfg : HdCfg} {copied : ℕ → List Datagram}
  {served : ℕ → List Call}

/-! ## Receivers -/

def rxPc (s : Rx) : RxPc :=
  match s.node with
  | some (some n) => .holding (s.reqs n)
  | _ => .idle

def State.during (t : State ρ η) (r : ρ) (s : Rx) : State ρ η :=
  { t with
    table := s.table
    clients := s.clients
    nextClient := s.nextClient
    idx := s.idx
    rx := Function.update t.rx r (rxPc s)
    rxToHd := t.rxToHd ++ s.requests }

def datagramsOf (c : ℕ) (pairs : List (ℕ × Datagram)) : List Datagram :=
  (pairs.filter (·.1 = c)).map Prod.snd

theorem datagramsOf_append (c : ℕ) (xs ys : List (ℕ × Datagram)) :
    datagramsOf c (xs ++ ys) = datagramsOf c xs ++ datagramsOf c ys := by
  simp [datagramsOf]

def andThen (copied : ℕ → List Datagram) (pairs : List (ℕ × Datagram)) (c : ℕ) : List Datagram :=
  copied c ++ datagramsOf c pairs

theorem andThen_nil (copied : ℕ → List Datagram) : andThen copied [] = copied :=
  funext fun _ => List.append_nil _

theorem andThen_append (copied : ℕ → List Datagram) (xs ys : List (ℕ × Datagram)) :
    andThen copied (xs ++ ys) = andThen (andThen copied xs) ys := by
  funext c
  rw [andThen, andThen, andThen, datagramsOf_append, List.append_assoc]

theorem andThen_singleton (copied : ℕ → List Datagram) (c : ℕ) (d : Datagram) :
    Function.update copied c (copied c ++ [d]) = andThen copied [(c, d)] := by
  funext c'
  by_cases hc : c' = c
  · subst hc
    simp [andThen, datagramsOf]
  · simp [andThen, datagramsOf, hc, Ne.symm hc]

theorem Runs.base (hs : Runs crc cfg maxClients t) : Base t := by
  refine hs.invariant (fun _ h => h.toInitial.base) ?_
  intro s t s' h _ hstep
  exact h.step hstep

section Receiver

variable {s s' : Rx} {a : Arrival} {n client : ℕ}

theorem Recorded.during_copied (ht : Recorded crc cfg maxClients (t.during r s) copied served)
    (hs : s.Open n client) (hroom : (s.reqs n).datagrams.length < maxWindowSize) :
    Recorded crc cfg maxClients (t.during r (s.copied n a))
      (andThen copied (a.dispatch (some client))) served := by
  have hpc : (t.during r s).rx r = .holding (s.reqs n) := by
    simp [State.during, rxPc, hs.node]
  cases hfits : a.fits with
  | false =>
    simp only [Rx.copied, Arrival.dispatch, hfits, Bool.false_eq_true, if_false, andThen_nil]
    exact ht
  | true =>
    obtain ⟨req', hpush, -⟩ := Rx.push_eq hroom a.datagram
    have hcopied := ht.copy a.datagram hpc hpush
    rw [hs.owner, andThen_singleton] at hcopied
    simp only [Rx.copied, Arrival.dispatch, hfits, if_true, hpush, Option.getD_some]
    convert hcopied using 1
    simp [State.during, State.rxGoto, rxPc, hs.node, Rx.requests]

theorem Recorded.during_enqueue (ht : Recorded crc cfg maxClients (t.during r s) copied served)
    (hs : s.Inv) : Recorded crc cfg maxClients (t.during r s.enqueue) copied served := by
  rcases hs.current with ⟨hnode, -⟩ | ⟨n, client, hn⟩
  · rwa [Rx.enqueue_of_none hnode]
  · have hpc : (t.during r s).rx r = .holding (s.reqs n) := by
      simp [State.during, rxPc, hn.node]
    have henqueued := ht.other (.rx (.enqueue hpc)) (fun _ _ _ h => by simp [State.rxGoto] at h)
    rw [Rx.enqueue_of_some hn.node]
    convert henqueued using 1
    simp [State.during, State.rxGoto, rxPc, Rx.requests]

theorem copied_stop (s : Rx) (n : ℕ) (a : Arrival) :
    ((s.copied n a).reqs n).stop = (s.reqs n).stop := by
  unfold Rx.copied
  split
  · dsimp only
    rw [Function.update_self]
    cases hpush : (s.reqs n).push a.datagram with
    | none => rfl
    | some req => exact (HdReq.push_spec hpush).1
  · rfl

theorem Recorded.during_serve
    (ht : Recorded crc cfg maxClients ((t.during r s).rxGoto r (.holding (newRequest client)))
      copied served) (hs : s.Between) (hnoStop : s.NoStop) (hnode : a.initializeNode = .ok)
    (hserve : s.serve a client = .ok s') :
    Recorded crc cfg maxClients (t.during r s') (andThen copied (a.dispatch (some client)))
      served := by
  rcases hs.serve_cases a client with
    ⟨n, stop, pool, nextNode, s₁, hs₁, hserve₁, hopen, -, hempty⟩ | ⟨hfail, -⟩
  swap
  · exact absurd hnode hfail
  have hs' : s₁.copied n a = s' := Except.ok.inj (hserve₁.symm.trans hserve)
  have hreq : s₁.reqs n =
      { stop := stop, client := client, datagrams := [], num_le := Nat.zero_le _ } := by
    rw [hs₁]
    exact Function.update_self _ _ _
  have hstop : stop = false := by
    have hkept := copied_stop s₁ n a
    rw [hs', hnoStop.serve hserve n, hreq] at hkept
    exact hkept.symm
  have hpc : rxPc s₁ = .holding (newRequest client) := by
    rw [rxPc, hopen.node]
    dsimp only
    rw [hreq, hstop]
    rfl
  rw [← hs']
  refine Recorded.during_copied ?_ hopen (by rw [hempty]; exact Nat.zero_lt_succ _)
  convert ht using 1
  simp only [State.during, State.rxGoto, hpc, Function.update_idem]
  rw [hs₁]
  rfl

theorem Recorded.during_create {address : Address} {old : Option ℕ} {freed : List ℕ}
    {table : Ht ℕ} (ht : Recorded crc cfg maxClients ((t.during r s).rxGoto r (.unknown address))
      copied served) (hroom : s.table.length < maxClients)
    (hput : s.table.put address (some s.nextClient) = some (old, freed, table)) :
    Recorded crc cfg maxClients
      ((t.during r (s.withClient table address)).rxGoto r (.holding (newRequest s.nextClient)))
      copied served := by
  have hpc : ((t.during r s).rxGoto r (.unknown address)).rx r = .unknown address :=
    Function.update_self _ _ _
  have hcreated := ht.other (.rx (.create hpc hroom)) (fun _ _ h => by rw [hpc] at h; cases h)
  -- `dealloc_items` finds no client
  have hfreed : freed = [] := (hcreated.runs.base.tidy.put hput).2
  subst hfreed
  have hregistered := hcreated.other (.rx (.put (Function.update_self _ _ _) hput))
    (fun _ _ h => by simp [State.rxGoto] at h)
  convert hregistered using 1
  simp [State.during, State.rxGoto, Rx.withClient, Rx.requests]

/-- An address is looked up, and a client created for it if it is unknown and there is room. -/
theorem Recorded.during_lookup (ht : Recorded crc cfg maxClients (t.during r s) copied served)
    (hs : s.Between) (hnoStop : s.NoStop)
    (hok : a.calloc = true ∧ a.initializeClient = true ∧ a.initializeNode = .ok)
    (hlookup : s.lookup maxClients a = .ok s') {found : Option ℕ} {registry : Registry}
    (henroll : s.registry.enroll maxClients a.address = some (found, registry)) :
    Recorded crc cfg maxClients (t.during r s') (andThen copied (a.dispatch found)) served := by
  obtain ⟨hcalloc, hinit, hnode⟩ := hok
  have hpc : (t.during r s).rx r = .idle := by
    simp [State.during, rxPc, hs.node]
  have hlocked : ¬ s.locked = true := by rw [hs.unlocked]; decide
  unfold Rx.lookup at hlookup
  rw [if_neg hlocked] at hlookup
  cases hget : s.table.get a.address with
  | none =>
    rw [hget] at hlookup
    cases hlookup
  | some known =>
    rw [hget] at hlookup
    cases known with
    | some client =>
      rw [Registry.enroll_known (r := s.registry) hget, Option.some.injEq, Prod.mk.injEq] at henroll
      rw [← henroll.1]
      have hfound := ht.other (.rx (.found hpc hget)) (fun _ _ h => by rw [hpc] at h; cases h)
      exact hfound.during_serve hs hnoStop hnode hlookup
    | none =>
      have hunknown := ht.other (.rx (.unknown hpc hget)) (fun _ _ h => by rw [hpc] at h; cases h)
      dsimp only at hlookup
      by_cases hfull : s.table.length ≥ maxClients
      · rw [if_pos hfull] at hlookup
        rw [Registry.enroll_refused (r := s.registry) hget hfull, Option.some.injEq,
          Prod.mk.injEq] at henroll
        have hrefused := hunknown.other (.rx (.refuse (Function.update_self _ _ _) hfull))
          (fun _ _ h => by simp [State.rxGoto] at h)
        rw [← henroll.1, Arrival.dispatch, andThen_nil, ← Except.ok.inj hlookup]
        convert hrefused using 1
        simp [State.during, State.rxGoto, rxPc, hs.node, Rx.requests]
      · rw [if_neg hfull, hcalloc, hinit, if_neg (by decide), if_neg (by decide)] at hlookup
        rw [Registry.enroll_unknown (r := s.registry) hget hfull] at henroll
        cases hput : s.table.put a.address (some s.nextClient) with
        | none =>
          rw [hput] at hlookup
          cases hlookup
        | some p =>
          obtain ⟨old, freed, table⟩ := p
          rw [hput] at hlookup
          have hreg : s.registry.table.put a.address (some s.registry.nextClient) =
              some (old, freed, table) := hput
          rw [hreg, Option.map_some, Option.some.injEq, Prod.mk.injEq] at henroll
          have hnoStop' : (s.withClient table a.address).NoStop := hnoStop
          rw [← henroll.1]
          exact (hunknown.during_create (not_le.mp hfull) hput).during_serve
            (hs.withClient table a.address) hnoStop' hnode hlookup

theorem Recorded.during_step (ht : Recorded crc cfg maxClients (t.during r s) copied served)
    (hs : s.Inv) (hnoStop : s.NoStop)
    (hok : a.calloc = true ∧ a.initializeClient = true ∧ a.initializeNode = .ok)
    (hstep : s.step maxClients a = .ok s') {found : Option ℕ} {registry : Registry}
    (henroll : s.registry.enroll maxClients a.address = some (found, registry)) :
    Recorded crc cfg maxClients (t.during r s') (andThen copied (a.dispatch found)) served := by
  by_cases hj : s.Joins a
  · rw [Rx.step_of_joins hs.running hj] at hstep
    obtain ⟨hsome, hprev, hi⟩ := hj
    rcases hs.current with ⟨-, hnone⟩ | ⟨n, client, hc⟩
    · rw [hnone] at hsome
      cases hsome
    have hroom : (s.reqs n).datagrams.length < maxWindowSize := lt_of_le_of_lt hc.num_le hi
    have hget : s.registry.table.get a.address = some (some client) := by
      rw [hprev]
      exact hc.registered
    rw [Registry.enroll_known hget, Option.some.injEq, Prod.mk.injEq] at henroll
    rw [Rx.copy_eq hc.req hroom] at hstep
    rw [← henroll.1, ← Except.ok.inj hstep]
    exact ht.during_copied (hs.open hc) hroom
  · rw [Rx.step_of_not_joins hs.running hj] at hstep
    have hregistry : s.enqueue.registry = s.registry := by rw [Rx.enqueue_eq]; rfl
    rw [← hregistry] at henroll
    cases hlookup : s.enqueue.lookup maxClients a with
    | error fault =>
      rw [hlookup] at hstep
      cases hstep
    | ok s₁ =>
      rw [hlookup] at hstep
      rw [← Except.ok.inj hstep]
      exact (ht.during_enqueue hs).during_lookup hs.enqueue hnoStop.enqueue hok hlookup henroll

theorem Recorded.during_foldlM {batch : List Arrival}
    (ht : Recorded crc cfg maxClients (t.during r s) copied served) (hs : s.Inv)
    (hnoStop : s.NoStop)
    (hok : ∀ a ∈ batch, a.calloc = true ∧ a.initializeClient = true ∧ a.initializeNode = .ok)
    (hrun : batch.foldlM (Rx.step maxClients) s = .ok s') {clients : List (Option ℕ)}
    {registry : Registry}
    (hall : s.registry.enrollAll maxClients batch = some (clients, registry)) :
    Recorded crc cfg maxClients (t.during r s') (andThen copied (dispatched batch clients))
      served := by
  induction batch generalizing s copied clients with
  | nil =>
    cases hall
    rw [← Except.ok.inj hrun]
    exact (andThen_nil copied).symm ▸ ht
  | cons a batch ih =>
    obtain ⟨hcalloc, hinit, hnode⟩ := hok a List.mem_cons_self
    have hspec := hs.step_spec (a := a) maxClients fun _ => ⟨hcalloc, hinit⟩
    rw [Registry.enrollAll] at hall
    cases henroll : s.registry.enroll maxClients a.address with
    | none => simp [henroll] at hall
    | some p =>
      obtain ⟨found, registry₁⟩ := p
      rw [henroll] at hspec
      obtain ⟨s₁, hstep, hreg, hcase⟩ := hspec
      obtain ⟨hs₁, -⟩ := hcase.resolve_right fun hn => hn.1 hnode
      cases hrest : registry₁.enrollAll maxClients batch with
      | none => simp [henroll, hrest] at hall
      | some p =>
        obtain ⟨clients₁, registry₂⟩ := p
        simp only [henroll, hrest, Option.bind_eq_bind, Option.bind_some, Option.some.injEq,
          Prod.mk.injEq] at hall
        obtain ⟨rfl, rfl⟩ := hall
        rw [List.foldlM_cons, hstep] at hrun
        have ht₁ := ht.during_step hs hnoStop ⟨hcalloc, hinit, hnode⟩ hstep henroll
        rw [Rx.dispatched_cons, andThen_append]
        exact ih ht₁ hs₁ (hnoStop.step hstep) (fun b hb => hok b (List.mem_cons_of_mem a hb)) hrun
          (hreg ▸ hrest)

/-- What a receiver that is not in `rx_run_once` works on, with its own locals. -/
structure Agrees (t : State ρ η) (r : ρ) (s : Rx) : Prop where
  table : t.table = s.table
  clients : t.clients = s.clients
  nextClient : t.nextClient = s.nextClient
  idx : t.idx = s.idx
  rx : t.rx r = .idle

omit [DecidableEq η] in
theorem Agrees.during_begin (h : Agrees t r s) : t.during r s.begin = t := by
  have hrx : Function.update t.rx r .idle = t.rx := Function.update_eq_self_iff.mpr h.rx.symm
  simp only [State.during, rxPc, Rx.begin, Rx.requests, hrx, ← h.table, ← h.clients,
    ← h.nextClient, ← h.idx, List.filterMap_nil, List.append_nil]

theorem mem_datagramsOf {c : ℕ} {d : Datagram} {pairs : List (ℕ × Datagram)} :
    d ∈ datagramsOf c pairs ↔ (c, d) ∈ pairs := by
  simp [datagramsOf]

theorem datagramsOf_tagged (c : ℕ) (req : HdReq ℕ) :
    datagramsOf c req.tagged = datagramsFor c req := by
  unfold datagramsOf datagramsFor HdReq.tagged
  split_ifs with hc <;> simp [List.filter_map, Function.comp_def, hc]

theorem flatMap_datagramsFor (c : ℕ) (reqs : List (HdReq ℕ)) :
    reqs.flatMap (datagramsFor c) = datagramsOf c (reqs.flatMap HdReq.tagged) := by
  induction reqs with
  | nil => rfl
  | cons req reqs ih =>
    rw [List.flatMap_cons, List.flatMap_cons, datagramsOf_append, datagramsOf_tagged, ih]

/-- A call of `rx_run_once`, from any state of the threads, is a run of steps of its receiver.
The datagrams that the reference lets through are copied for the clients that it gives them. -/
theorem Recorded.rxRunOnce (ht : Recorded crc cfg maxClients t copied served)
    (hagrees : Agrees t r s) (hready : s.Ready) (hnoStop : s.NoStop) {batch : List Arrival}
    (hok : ∀ a ∈ batch, a.calloc = true ∧ a.initializeClient = true ∧ a.initializeNode = .ok)
    {clients : List (Option ℕ)} {registry : Registry}
    (hall : s.registry.enrollAll maxClients batch = some (clients, registry)) :
    ∃ s', rxRunOnce maxClients s batch = .ok s' ∧ s'.node = none ∧ s'.registry = registry ∧
      s'.requests.flatMap HdReq.tagged = dispatched batch clients ∧
      Recorded crc cfg maxClients (t.during r s') (andThen copied (dispatched batch clients))
        served := by
  obtain ⟨s₁, hrun, hregistry, hinv, hout⟩ :=
    (hready.begin.foldlM_spec maxClients hok).2 clients registry hall
  rw [← hagrees.during_begin] at ht
  have henqueue : s₁.enqueue.registry = registry := by
    rw [Rx.enqueue_eq]
    exact hregistry
  refine ⟨s₁.enqueue, ?_, Rx.enqueue_node s₁, henqueue, hout, ?_⟩
  · rw [Trtp.rxRunOnce, hrun]
    rfl
  · exact (ht.during_foldlM hready.begin hnoStop hok hrun hall).during_enqueue hinv

end Receiver

/-! ## Handlers -/

theorem Recorded.hdRunOnce (ht : Recorded crc cfg maxClients t copied served)
    (hpc : t.hd h = .idle) {req : HdReq ℕ} {rest : List (HdReq ℕ)} (hqueue : t.rxToHd = req :: rest)
    (hstop : req.stop = false) (env : HdEnv ℕ) (exit : Bool) :
    let r := hdRunOnce crc cfg env (some (some req))
      { clients := t.clients, decoded := t.scratch h, exit := exit }
    Recorded crc cfg maxClients
      { t with
        clients := r.1.clients
        scratch := Function.update t.scratch h r.1.decoded
        rxToHd := rest }
      copied
      (Function.update served req.client (served req.client ++ [t.call h env.toEnv req])) := by
  have hpopped := ht.other (.hd (.pop hpc hqueue)) (fun _ hpc' => by rw [hpc] at hpc'; cases hpc')
  have hserved := hpopped.serve (h := h) env (Function.update_self _ _ _)
  have hdone := hserved.other (.hd (.recycle (h := h) (Function.update_self _ _ _)))
    (fun _ hpc' => by simp [State.serve, State.hdGoto] at hpc')
  have hhd : Function.update t.hd h .idle = t.hd := Function.update_eq_self_iff.mpr hpc.symm
  convert hdone using 1
  · simp [Trtp.hdRunOnce, hstop, State.serve, State.hdGoto, State.call, Call.outcome, hhd]
  · rfl

/-! ## The main thread -/

theorem Recorded.moving (ht : Recorded crc cfg maxClients t copied served)
    {oldValues : ℕ → Item ℕ} {oldSize client : ℕ} {rest : List ℕ}
    (hmain : t.main = .reaping (.moving oldValues oldSize 0) client rest) {i : ℕ} (hi : i ≤ oldSize)
    {table : Ht ℕ} (hmoved : (List.range i).foldlM (Ht.rehash oldValues) t.table = some table) :
    Recorded crc cfg maxClients
      { t with table := table, main := .reaping (.moving oldValues oldSize i) client rest }
      copied served := by
  induction i generalizing table with
  | zero =>
    cases hmoved
    rwa [← hmain]
  | succ i ih =>
    rw [List.range_succ, List.foldlM_append] at hmoved
    cases hbefore : (List.range i).foldlM (Ht.rehash oldValues) t.table with
    | none =>
      rw [hbefore] at hmoved
      cases hmoved
    | some before =>
      rw [hbefore] at hmoved
      have hmove : Ht.rehash oldValues before i = some table := by
        simpa using hmoved
      exact (ih (Nat.le_of_succ_le hi) hbefore).other (.main (.move rfl hi hmove)) trivial

theorem Recorded.remove (ht : Recorded crc cfg maxClients t copied served) {client : ℕ}
    {rest freed : List ℕ} {del : Option ℕ} {table : Ht ℕ}
    (hmain : t.main = .reaping .start client rest)
    (hremove : t.table.remove (t.clients client).address = some (del, freed, table)) :
    Recorded crc cfg maxClients
      { t with table := table, main := .next rest, freed := t.freed ++ freed ++ [client] }
      copied served := by
  -- its transfer has ended, so that the file is not closed once more
  have hended := ht.runs.kept.ended client (.inl (by rw [hmain]; exact List.mem_cons_self))
  have hclients : Function.update t.clients client (deallocateClient (t.clients client)) =
      t.clients := by
    rw [deallocateClient_of_inactive hended.1, Function.update_eq_self]
  unfold Ht.remove at hremove
  obtain ⟨⟨del', freed', table'⟩, hput, hremove⟩ := Option.bind_eq_some_iff.mp hremove
  have hcleared := ht.other (.main (.clear hmain hput)) trivial
  dsimp only at hremove
  split_ifs at hremove with hnone
  · rw [if_pos hnone] at hcleared
    cases hremove
    have hdeallocated := hcleared.other (.main (.deallocate rfl)) trivial
    rwa [hclients] at hdeallocated
  · rw [if_neg hnone] at hcleared
    obtain ⟨⟨freed'', table''⟩, hresize, hremove⟩ := Option.bind_eq_some_iff.mp hremove
    cases hremove
    obtain ⟨moved, hmoved, hresize⟩ := Option.bind_eq_some_iff.mp hresize
    cases hresize
    have hinstalled := hcleared.other (.main (.install rfl)) trivial
    have hmoving := hinstalled.moving rfl le_rfl hmoved
    have hdone := hmoving.other (.main (.moved rfl (lt_irrefl _))) trivial
    have hdeallocated := hdone.other (.main (.deallocate rfl)) trivial
    rw [hclients] at hdeallocated
    convert hdeallocated using 1
    simp

end Trtp.Threads
