import Trtp.Server.Schedule
import Mathlib.Tactic.Positivity

/-!
# The sequential mode among the threads

An iteration of the sequential main loop is a run of the threads in which they take turns: the
receiver with a batch, the handler with each of its requests, the main thread with the clients
whose transfer has ended.  So what holds of every run of the threads holds of the sequential
mode.  In addition nothing is on its way when an iteration ends: every datagram that has got
through has been served, in the order of its arrival.
-/

namespace Trtp

/-! ## Addresses -/

/-- The clients that are there keep their addresses. -/
structure Rx.KeepsAddresses (s s' : Rx) : Prop where
  nextClient_le : s.nextClient ≤ s'.nextClient
  address_eq : ∀ c < s.nextClient, (s'.clients c).address = (s.clients c).address

namespace Rx

variable {s s' t : Rx} {a : Arrival} {client maxClients : ℕ}

theorem keepsAddresses_of_eq (hnext : s'.nextClient = s.nextClient)
    (hclients : s'.clients = s.clients) : s.KeepsAddresses s' :=
  ⟨hnext.ge, fun c _ => by rw [hclients]⟩

theorem KeepsAddresses.trans (h : s.KeepsAddresses t) (h' : t.KeepsAddresses s') :
    s.KeepsAddresses s' :=
  ⟨h.nextClient_le.trans h'.nextClient_le, fun c hc =>
    (h'.address_eq c (lt_of_lt_of_le hc h.nextClient_le)).trans (h.address_eq c hc)⟩

theorem keepsAddresses_copy (hcopy : s.copy a = .ok s') : s.KeepsAddresses s' := by
  rcases copy_cases hcopy with rfl | ⟨n, req, -, rfl⟩ <;> exact keepsAddresses_of_eq rfl rfl

theorem keepsAddresses_enqueue (s : Rx) : s.KeepsAddresses s.enqueue := by
  rw [enqueue_eq]
  exact keepsAddresses_of_eq rfl rfl

theorem keepsAddresses_serve (hserve : s.serve a client = .ok s') : s.KeepsAddresses s' := by
  have htaken : s.KeepsAddresses ({ s with contained := some client }.takeNode a client) := by
    rcases takeNode_cases { s with contained := some client } a client with
      ⟨n, stop, pool, nextNode, htake, -⟩ | ⟨-, node, -, htake⟩ <;>
      rw [htake] <;> exact keepsAddresses_of_eq rfl rfl
  rcases serve_cases hserve with rfl | hcopy
  · exact htaken
  · exact htaken.trans (keepsAddresses_copy hcopy)

theorem keepsAddresses_lookup (hok : a.calloc = true ∧ a.initializeClient = true)
    (hlookup : s.lookup maxClients a = .ok s') : s.KeepsAddresses s' := by
  rcases lookup_cases hlookup with
    ⟨client, -, hserve⟩ | ⟨-, rfl⟩ | ⟨-, -, ⟨-, -, old, freed, table, -, hserve⟩ | ⟨hfail, -⟩⟩
  · exact keepsAddresses_serve hserve
  · exact keepsAddresses_of_eq rfl rfl
  · have hnew : s.KeepsAddresses (s.withClient table a.address) := by
      refine ⟨Nat.le_succ _, fun c hc => ?_⟩
      show (Function.update s.clients s.nextClient _ c).address = _
      rw [Function.update_of_ne (Nat.ne_of_lt hc)]
    exact hnew.trans (keepsAddresses_serve hserve)
  · exact absurd hok hfail

theorem keepsAddresses_step (hok : a.calloc = true ∧ a.initializeClient = true)
    (hstep : s.step maxClients a = .ok s') : s.KeepsAddresses s' := by
  rcases step_cases hstep with rfl | ⟨t, rfl, hcopy | hlookup⟩
  · exact keepsAddresses_of_eq rfl rfl
  · exact (keepsAddresses_copy hcopy).trans (keepsAddresses_of_eq rfl rfl)
  · exact ((keepsAddresses_enqueue s).trans (keepsAddresses_lookup hok hlookup)).trans
      (keepsAddresses_of_eq rfl rfl)

theorem keepsAddresses_foldlM {batch : List Arrival}
    (hok : ∀ a ∈ batch, a.calloc = true ∧ a.initializeClient = true)
    (hrun : batch.foldlM (step maxClients) s = .ok s') : s.KeepsAddresses s' := by
  induction batch generalizing s with
  | nil =>
    cases hrun
    exact keepsAddresses_of_eq rfl rfl
  | cons a batch ih =>
    rw [List.foldlM_cons] at hrun
    cases hstep : s.step maxClients a with
    | error fault =>
      rw [hstep] at hrun
      cases hrun
    | ok t =>
      rw [hstep] at hrun
      exact (keepsAddresses_step (hok a List.mem_cons_self) hstep).trans
        (ih (fun b hb => hok b (List.mem_cons_of_mem a hb)) hrun)

theorem keepsAddresses_rxRunOnce {batch : List Arrival}
    (hok : ∀ a ∈ batch, a.calloc = true ∧ a.initializeClient = true)
    (hrun : rxRunOnce maxClients s batch = .ok s') : s.KeepsAddresses s' := by
  unfold rxRunOnce at hrun
  cases hfold : batch.foldlM (step maxClients) s.begin with
  | error fault =>
    rw [hfold] at hrun
    cases hrun
  | ok t =>
    rw [hfold] at hrun
    cases hrun
    have hbegin : s.KeepsAddresses s.begin := keepsAddresses_of_eq rfl rfl
    exact (hbegin.trans (keepsAddresses_foldlM hok hfold)).trans (keepsAddresses_enqueue t)

end Rx

end Trtp

namespace Trtp.Sequential

open Lib Threads

variable {crc : Crc} {cfg : HdCfg} {maxClients : ℕ} {copied : ℕ → List Datagram}
  {served : ℕ → List Call} {P : Env → Prop} {Q : Address → Datagram → Prop} {s s' : Sequential}
  {n : ℕ} {ns : List ℕ}

/-- The state of the threads for which the sequential mode stands: one receiver, one handler and
the main thread, none of them in a call. -/
def threads (s : Sequential) : State Unit Unit :=
  { table := s.rx.table
    clients := s.rx.clients
    nextClient := s.rx.nextClient
    idx := s.rx.idx
    rx := fun _ => .idle
    rxToHd := s.pending
    hd := fun _ => .idle
    scratch := fun _ => s.decoded
    main := .idle
    freed := s.freed }

/-- The sequential mode has come to `s` in a run of the threads.  Requests are served in the order
in which their datagrams have been copied.  `P` is known of the surroundings of every call, and
`Q` of every datagram and the address from which it came. -/
structure Logged (crc : Crc) (cfg : HdCfg) (maxClients : ℕ) (P : Env → Prop)
    (Q : Address → Datagram → Prop) (s : Sequential) (copied : ℕ → List Datagram)
    (served : ℕ → List Call) : Prop where
  recorded : Recorded crc cfg maxClients s.threads copied served
  order : ∀ c, (served c).flatMap Call.datagrams ++ s.pending.flatMap (datagramsFor c) = copied c
  envs : ∀ c, ∀ q ∈ served c, P q.env
  origins : ∀ c, ∀ d ∈ copied c, c < s.rx.nextClient ∧ Q (s.rx.clients c).address d

/-! ## The parts of an iteration -/

theorem address_of_dispatched (h : Recorded crc cfg maxClients s'.threads copied served)
    {registry : Registry} {batch : List Arrival} {clients : List (Option ℕ)} {m : Ht.Map ℕ}
    (hloaded : Ht.Loaded registry.table m)
    (hall : registry.enrollAll maxClients batch = some (clients, s'.rx.registry)) {c : ℕ}
    {d : Datagram} (hd : (c, d) ∈ dispatched batch clients) :
    ∃ a ∈ batch, c < s'.rx.nextClient ∧ (s'.rx.clients c).address = a.address ∧ a.datagram = d := by
  obtain ⟨p, hp, hmem⟩ := List.mem_flatMap.mp hd
  have hclient : p.2 = some c ∧ p.1.datagram = d := by
    unfold Arrival.dispatch at hmem
    cases hc : p.2 with
    | none => simp [hc] at hmem
    | some c' =>
      simp only [hc] at hmem
      split_ifs at hmem
      · cases List.mem_singleton.mp hmem
        exact ⟨rfl, rfl⟩
      · cases hmem
  obtain ⟨m', hloaded', -, hnew⟩ := Registry.enrollAll_loaded hloaded hall
  have hget : s'.threads.table.get p.1.address = some (some c) :=
    hloaded'.get_of_lookup (hnew p hp c hclient.1)
  have hbase := h.runs.base
  exact ⟨p.1, (List.of_mem_zip hp).1, hbase.known.table.get hget, hbase.named.table.get hget,
    hclient.2⟩

theorem Logged.receive (h : Logged crc cfg maxClients P Q s copied served) (hs : s.Idle)
    {round : Round} (hok : round.Allocates) {clients : List (Option ℕ)} {registry : Registry}
    (hall : s.rx.registry.enrollAll maxClients round.batch = some (clients, registry))
    (hreceive : s.receive maxClients round.batch = some s')
    (hrequests : s'.pending = s'.rx.requests)
    (hQ : ∀ a ∈ round.batch, Q a.address a.datagram) :
    Logged crc cfg maxClients P Q s' (andThen copied (dispatched round.batch clients)) served := by
  have hnone : s.pending = [] := by simpa using hs.pending_eq
  have hready : s.rx.Ready := ⟨hs.unlocked, by simpa using hs.nodup, by simpa using hs.lt⟩
  have hagrees : Agrees s.threads () s.rx := ⟨rfl, rfl, rfl, rfl, rfl⟩
  obtain ⟨rx, hrun, hnode, hregistry, hout, hduring⟩ :=
    h.recorded.rxRunOnce hagrees hready hs.noStop hok hall
  have haddresses : s.rx.KeepsAddresses rx :=
    Rx.keepsAddresses_rxRunOnce (fun a ha => ⟨(hok a ha).1, (hok a ha).2.1⟩) hrun
  rw [Sequential.receive, hrun] at hreceive
  cases hreceive
  have hrecorded : Recorded crc cfg maxClients
      (threads { s with rx := rx, rxToHd := rx.sent.foldl (fun q node =>
        q.enqueue (node.map Prod.fst)) s.rxToHd })
      (andThen copied (dispatched round.batch clients)) served := by
    convert hduring using 1
    simp [State.during, threads, rxPc, hnode, hrequests, hnone]
  refine ⟨hrecorded, fun c => ?_, h.envs, fun c d hd => ?_⟩
  · have horder := h.order c
    rw [hnone, List.flatMap_nil, List.append_nil] at horder
    rw [hrequests, flatMap_datagramsFor, hout, horder]
    rfl
  · rcases List.mem_append.mp hd with hd | hd
    · obtain ⟨hc, hq⟩ := h.origins c d hd
      refine ⟨lt_of_lt_of_le hc haddresses.nextClient_le, ?_⟩
      show Q (rx.clients c).address d
      rwa [haddresses.address_eq c hc]
    · obtain ⟨m, hloaded, -⟩ := hs.loaded
      obtain ⟨a, ha, hc, haddress, rfl⟩ := address_of_dispatched hrecorded hloaded
        (hregistry ▸ hall) (mem_datagramsOf.mp hd)
      exact ⟨hc, haddress ▸ hQ a ha⟩

theorem Logged.handle (h : Logged crc cfg maxClients P Q s copied served)
    (hs : s.Draining (n :: ns)) {env : HdEnv ℕ} (henv : P env.toEnv) :
    ∃ served', Logged crc cfg maxClients P Q (s.handle crc cfg env).2 copied served' := by
  have hqueue : s.threads.rxToHd = s.rx.reqs n :: ns.map s.rx.reqs := hs.pending_eq
  have hstop := hs.noStop n
  have hserved := h.recorded.hdRunOnce (h := ()) rfl hqueue hstop env s.exit
  have hpending : (s.handle crc cfg env).2.pending = ns.map s.rx.reqs := by
    rw [(hs.handle crc cfg env).pending_eq, hs.handle_eq]
  refine ⟨Function.update served (s.rx.reqs n).client
    (served (s.rx.reqs n).client ++ [s.threads.call () env.toEnv (s.rx.reqs n)]),
    ⟨?_, fun c => ?_, ?_, fun c d hd => ?_⟩⟩
  · convert hserved using 1
    rw [threads, hpending, hs.handle_eq]
    simp only [hdRunOnce, hstop, threads, Bool.false_eq_true, if_false, State.mk.injEq, true_and,
      and_true]
    funext thread
    cases thread
    rw [Function.update_self]
  · have horder := h.order c
    rw [hs.pending_eq, List.map_cons, List.flatMap_cons, ← List.append_assoc] at horder
    rw [hpending, ← horder]
    congr 1
    by_cases hc : c = (s.rx.reqs n).client
    · subst hc
      rw [Function.update_self, List.flatMap_append, List.flatMap_singleton, datagramsFor,
        if_pos rfl]
      rfl
    · rw [Function.update_of_ne hc, datagramsFor, if_neg (Ne.symm hc), List.append_nil]
  · intro c q hq
    by_cases hc : c = (s.rx.reqs n).client
    · subst hc
      rw [Function.update_self] at hq
      rcases List.mem_append.mp hq with hq | hq
      · exact h.envs _ q hq
      · rw [List.mem_singleton.mp hq]
        exact henv
    · rw [Function.update_of_ne hc] at hq
      exact h.envs c q hq
  · have haddress : ((s.handle crc cfg env).2.rx.clients c).address =
        (s.rx.clients c).address := by
      rw [hs.handle_eq]
      show (writeBack env.reuses s.rx.clients (s.rx.reqs n).client _ c).address = _
      by_cases hc : c = (s.rx.reqs n).client
      · subst hc
        rw [writeBack_self, handleRequest_address]
      · obtain ⟨outFile, -, heq⟩ := writeBack_of_ne env.reuses s.rx.clients _ _ hc
        rw [heq]
    rw [haddress]
    exact h.origins c d hd

theorem Logged.handles (h : Logged crc cfg maxClients P Q s copied served) (hs : s.Draining ns)
    {envs : ℕ → HdEnv ℕ} (henvs : ∀ k, P (envs k).toEnv) (i : ℕ) :
    ∃ served',
      Logged crc cfg maxClients P Q (s.handles crc cfg envs i ns.length) copied served' := by
  induction ns generalizing s served i with
  | nil => exact ⟨served, h⟩
  | cons n ns ih =>
    obtain ⟨served₁, h₁⟩ := h.handle hs (henvs i)
    exact ih h₁ (hs.handle crc cfg (envs i)) (i + 1)

theorem reapAfter_pos : 0 < reapAfter := by
  unfold reapAfter
  positivity

/-- The two comparisons find the same clients, a nanosecond apart. -/
theorem expired_sequential (ended now : ℕ) :
    expiredSequential ((now : ℤ) - ended) = expiredThreaded (((now - 1 : ℕ) : ℤ) - ended) := by
  have hpos := reapAfter_pos
  rw [expiredSequential, expiredThreaded, decide_eq_decide]
  generalize reapAfter = limit at hpos ⊢
  omega

theorem clientToRemove_sequential (table : Ht ℕ) (clients : ℕ → Client) (now : ℕ) :
    clientToRemove expiredSequential table clients now =
      clientToRemove expiredThreaded table clients (now - 1) := by
  have hany : ∀ c, ((clients c).timeInactive now).any expiredSequential =
      ((clients c).timeInactive (now - 1)).any expiredThreaded := by
    intro c
    unfold Client.timeInactive
    split_ifs
    · rw [Option.any_none, Option.any_none]
    · cases (clients c).endTime with
      | none =>
        simp only [Option.bind_eq_bind, Option.bind_none, Option.map_none, Option.any_none]
      | some ended =>
        simp only [Option.bind_eq_bind, Option.bind_some, Option.pure_def, Option.map_some,
          Option.any_some]
        exact expired_sequential ended now
  unfold clientToRemove
  simp only [hany]

theorem recorded_reap {clients : List ℕ}
    (h : Recorded crc cfg maxClients { s.threads with main := .next clients } copied served)
    (hreap : clients.foldlM reapOne s = some s') :
    Recorded crc cfg maxClients s'.threads copied served ∧ s'.rx.clients = s.rx.clients ∧
      s'.rx.nextClient = s.rx.nextClient := by
  induction clients generalizing s with
  | nil =>
    cases hreap
    exact ⟨h, rfl, rfl⟩
  | cons client clients ih =>
    rw [List.foldlM_cons] at hreap
    obtain ⟨s₁, hone, hreap⟩ := Option.bind_eq_some_iff.mp hreap
    obtain ⟨⟨del, freed, table⟩, hremove, hone⟩ := Option.bind_eq_some_iff.mp hone
    cases hone
    obtain ⟨hrecorded, hclients, hnext⟩ := ih
      (s := { s with rx := { s.rx with table := table }, freed := s.freed ++ freed ++ [client] })
      (h.remove rfl hremove) hreap
    exact ⟨hrecorded, hclients, hnext⟩

theorem Logged.reap (h : Logged crc cfg maxClients P Q s copied served) {now : ℕ}
    (hreap : s.reap now = some s') (hpending : s'.pending = s.pending) :
    Logged crc cfg maxClients P Q s' copied served := by
  have hreaped : Recorded crc cfg maxClients s'.threads copied served ∧
      s'.rx.clients = s.rx.clients ∧ s'.rx.nextClient = s.rx.nextClient := by
    unfold Sequential.reap toRemove at hreap
    split_ifs at hreap
    · rw [clientToRemove_sequential] at hreap
      exact recorded_reap (h.recorded.other (.main (.scan (now - 1) rfl)) trivial) hreap
    · cases hreap
      exact ⟨h.recorded, rfl, rfl⟩
  obtain ⟨hrecorded, hclients, hnext⟩ := hreaped
  refine ⟨hrecorded, fun c => by rw [hpending]; exact h.order c, h.envs, fun c d hd => ?_⟩
  rw [hclients, hnext]
  exact h.origins c d hd

/-! ## Iterations -/

def roundDatagrams (maxClients : ℕ) (s : Sequential) (round : Round) : List (ℕ × Datagram) :=
  match s.rx.registry.enrollAll maxClients round.batch with
  | some (clients, _) => dispatched round.batch clients
  | none => []

section

variable (crc : Crc) (cfg : HdCfg) (maxClients fuel : ℕ)

/-- The datagrams that get through in the iterations from `s` on, with their clients. -/
def admitted : Sequential → List Round → List (ℕ × Datagram)
  | _, [] => []
  | s, round :: rounds =>
    s.roundDatagrams maxClients round ++
      match s.iterate crc cfg maxClients fuel round with
      | some t => admitted t rounds
      | none => []

end

variable {fuel : ℕ}

theorem Logged.iterate (h : Logged crc cfg maxClients P Q s copied served) (hs : s.Idle)
    (hmax : maxClients ≤ 65535) {round : Round} (hok : round.Allocates)
    (hfuel : round.batch.length < fuel) (henvs : ∀ k, P (round.envs k).toEnv)
    (hQ : ∀ a ∈ round.batch, Q a.address a.datagram) :
    ∃ s' served', s.iterate crc cfg maxClients fuel round = some s' ∧ s'.Idle ∧
      Logged crc cfg maxClients P Q s' (andThen copied (s.roundDatagrams maxClients round))
        served' := by
  have hidle : Idle { s with cnt := s.cnt + 1 } :=
    ⟨⟨hs.nodes, hs.counted, hs.unlocked, hs.nodup, hs.lt, hs.noStop⟩, hs.loaded⟩
  have hlogged : Logged crc cfg maxClients P Q { s with cnt := s.cnt + 1 } copied served :=
    ⟨h.recorded, h.order, h.envs, h.origins⟩
  obtain ⟨m, hloaded, hcap⟩ := hs.loaded
  obtain ⟨clients, registry, -, hall, -⟩ :=
    Registry.enrollAll_returns (r := s.rx.registry) hloaded hcap hmax round.batch
  obtain ⟨s₁, hreceive, hdraining, hrequests, hle, -, hloaded₁⟩ := hidle.receive hmax hok
  have h₁ := hlogged.receive hidle hok hall hreceive (hdraining.pending_eq.trans hrequests.symm) hQ
  obtain ⟨served₂, h₂⟩ := h₁.handles hdraining henvs 0
  obtain ⟨hend, -, htable, -⟩ := hdraining.handles crc cfg round.envs 0 le_rfl
  rw [List.drop_length] at hend
  have hidle₂ : Idle (s₁.handles crc cfg round.envs 0 s₁.sentNodes.length) :=
    ⟨hend, by rw [htable]; exact hloaded₁⟩
  obtain ⟨s₃, hreap, hidle₃, -⟩ := hidle₂.foldlM_reapOne
    ((s₁.handles crc cfg round.envs 0 s₁.sentNodes.length).toRemove round.now)
  have hpending : s₃.pending = (s₁.handles crc cfg round.envs 0 s₁.sentNodes.length).pending :=
    hidle₃.pending_eq.trans hidle₂.pending_eq.symm
  refine ⟨s₃, served₂, ?_, hidle₃, ?_⟩
  · rw [Sequential.iterate, hreceive, Option.bind_eq_bind, Option.bind_some,
      hdraining.drain crc cfg round.envs 0 (lt_of_le_of_lt hle hfuel)]
    exact hreap
  · rw [roundDatagrams, hall]
    exact h₂.reap hreap hpending

theorem Logged.run (h : Logged crc cfg maxClients P Q s copied served) (hs : s.Idle)
    (hmax : maxClients ≤ 65535) {rounds : List Round}
    (hok : ∀ round ∈ rounds, round.Allocates ∧ round.batch.length < fuel)
    (henvs : ∀ round ∈ rounds, ∀ k, P (round.envs k).toEnv)
    (hQ : ∀ round ∈ rounds, ∀ a ∈ round.batch, Q a.address a.datagram) :
    ∃ s' served', rounds.foldlM (Sequential.iterate crc cfg maxClients fuel) s = some s' ∧ s'.Idle ∧
      Logged crc cfg maxClients P Q s' (andThen copied (admitted crc cfg maxClients fuel s rounds))
        served' := by
  induction rounds generalizing s copied served with
  | nil => exact ⟨s, served, rfl, hs, by rwa [admitted, andThen_nil]⟩
  | cons round rounds ih =>
    obtain ⟨hallocates, hfuel⟩ := hok round List.mem_cons_self
    obtain ⟨s₁, served₁, hiterate, hidle, h₁⟩ :=
      h.iterate hs hmax hallocates hfuel (henvs round List.mem_cons_self)
        (hQ round List.mem_cons_self)
    obtain ⟨s', served', hrun, hidle', h'⟩ := ih h₁ hidle
      (fun round hround => hok round (List.mem_cons_of_mem _ hround))
      (fun round hround => henvs round (List.mem_cons_of_mem _ hround))
      fun round hround => hQ round (List.mem_cons_of_mem _ hround)
    refine ⟨s', served', ?_, hidle', ?_⟩
    · rw [List.foldlM_cons, hiterate]
      exact hrun
    · rw [admitted, hiterate, andThen_append]
      exact h'

theorem initial_logged : Logged crc cfg maxClients P Q initial (fun _ => []) fun _ => [] :=
  ⟨.start ⟨⟨rfl, fun _ => rfl, rfl, fun _ => rfl, rfl, rfl⟩, rfl, rfl⟩, fun _ => rfl,
    fun _ _ hq => absurd hq List.not_mem_nil, fun _ _ hd => absurd hd List.not_mem_nil⟩

/-- What is known of the state after some iterations. -/
theorem logged_run (crc : Crc) (cfg : HdCfg) (hmax : maxClients ≤ 65535) {rounds : List Round}
    (hok : ∀ round ∈ rounds, round.Allocates ∧ round.batch.length < fuel) :
    ∃ s served, rounds.foldlM (iterate crc cfg maxClients fuel) initial = some s ∧ s.Idle ∧
      Logged crc cfg maxClients (fun env => ∃ round ∈ rounds, ∃ k, env = (round.envs k).toEnv)
        (fun address d => ∃ round ∈ rounds, ∃ a ∈ round.batch, a.address = address ∧ a.datagram = d)
        s (fun c => datagramsOf c (admitted crc cfg maxClients fuel initial rounds)) served := by
  obtain ⟨s, served, hrun, hidle, h⟩ := initial_logged.run initial_idle hmax hok
    (P := fun env => ∃ round ∈ rounds, ∃ k, env = (round.envs k).toEnv)
    (Q := fun address d =>
      ∃ round ∈ rounds, ∃ a ∈ round.batch, a.address = address ∧ a.datagram = d)
    (fun round hround k => ⟨round, hround, k, rfl⟩)
    fun round hround a ha => ⟨round, hround, a, ha, rfl, rfl⟩
  have hcopied : andThen (fun _ => []) (admitted crc cfg maxClients fuel initial rounds) =
      fun c => datagramsOf c (admitted crc cfg maxClients fuel initial rounds) :=
    funext fun _ => List.nil_append _
  rw [hcopied] at h
  exact ⟨s, served, hrun, hidle, h⟩

/-- The sequential mode is a schedule of the threaded mode, whatever arrives, when no allocation
fails: the state after any number of iterations is reached by a run of one receiver, one handler
and the main thread, in which the datagrams that have got through are copied.  They have all been
served, client by client in the order of their arrival, in calls of the iterations. -/
theorem sequential_among_threads (crc : Crc) (cfg : HdCfg) (maxClients fuel : ℕ)
    (hmax : maxClients ≤ 65535) (rounds : List Round)
    (hok : ∀ round ∈ rounds, round.Allocates ∧ round.batch.length < fuel) :
    ∃ s served, rounds.foldlM (iterate crc cfg maxClients fuel) initial = some s ∧
      Recorded crc cfg maxClients s.threads
        (fun c => datagramsOf c (admitted crc cfg maxClients fuel initial rounds)) served ∧
      ∀ c, (served c).flatMap Call.datagrams =
          datagramsOf c (admitted crc cfg maxClients fuel initial rounds) ∧
        ∀ q ∈ served c, ∃ round ∈ rounds, ∃ k, q.env = (round.envs k).toEnv := by
  obtain ⟨s, served, hrun, hidle, h⟩ := logged_run crc cfg hmax hok
  refine ⟨s, served, hrun, h.recorded, fun c => ⟨?_, h.envs c⟩⟩
  have horder := h.order c
  rwa [hidle.pending_eq, List.map_nil, List.flatMap_nil, List.append_nil] at horder

/-- The datagram of a packet that arrives from `::1`, for which every allocation succeeds. -/
def arrivalOf (p : Packet) : Arrival :=
  { address := localhost, msgLen := (packed bitwiseCrc p).length, buffer := packed bitwiseCrc p
    calloc := true, initializeClient := true, initializeNode := .ok }

def roundOf (ps : List Packet) : Round :=
  { batch := ps.map arrivalOf, envs := fun _ => (Call.single initPacket).env.unshared, now := 0 }

theorem roundOf_allocates (ps : List Packet) : (roundOf ps).Allocates := by
  intro a ha
  obtain ⟨p, -, rfl⟩ := List.mem_map.mp ha
  exact ⟨rfl, rfl, rfl⟩

def endFirst : List Round :=
  [roundOf [dataPacket 1 7 []], roundOf [dataPacket 0 7 [0x61], dataPacket 0 8 [0x61]]]

theorem endFirst_ok : ∀ round ∈ endFirst, round.Allocates ∧ round.batch.length < 3 := by
  intro round hround
  have hor : round = roundOf [dataPacket 1 7 []] ∨
      round = roundOf [dataPacket 0 7 [0x61], dataPacket 0 8 [0x61]] := by
    simpa [endFirst] using hround
  rcases hor with rfl | rfl <;> exact ⟨roundOf_allocates _, by simp [roundOf]⟩

/-- The three datagrams have been served in this order. -/
theorem sequential_among_threads_endFirst : ∃ (s : Sequential) (served : ℕ → List Call),
    endFirst.foldlM (iterate bitwiseCrc ⟨31⟩ 5 3) initial = some s ∧
      ((served 0).flatMap Call.datagrams).map Datagram.length = [11, 16, 16] := by
  obtain ⟨s, served, hrun, -, h⟩ :=
    sequential_among_threads bitwiseCrc ⟨31⟩ 5 3 (by decide) endFirst endFirst_ok
  refine ⟨s, served, hrun, ?_⟩
  rw [(h 0).1]
  decide +kernel

end Trtp.Sequential
