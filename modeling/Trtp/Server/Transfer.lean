import Trtp.Handler.Ending
import Trtp.Handler.Progress
import Trtp.Lib.Gather
import Trtp.Server.Clients
import Mathlib.Tactic.Abel

/-!
# Transfers

Each client of the threaded mode goes through a run of its own, whatever receivers, handlers
and the main thread do in between.  `Recorded` keeps what happens to a client in a run of the
threads: the datagrams that receivers copy to requests for it, and the calls in which
handlers serve it, in the order in which they take its lock.

A datagram that has been copied is served once or still on its way.  As long as transfers are
closed quietly no client writes to the file of another one, and each is what these calls make
of a new one.  So what is proved of the calls of one client holds of every client of the server.
-/

namespace Trtp.Threads

open Lib

variable {ρ η : Type} [DecidableEq ρ] [DecidableEq η] {s s' : State ρ η} {r : ρ} {h : η}
  {t : Thread ρ η} {maxClients : ℕ} {crc : Crc} {cfg : HdCfg} {copied : ℕ → List Datagram}
  {served : ℕ → List Call} {req req' : HdReq ℕ} {env : HdEnv ℕ} {c : ℕ}

def State.call (s : State ρ η) (h : η) (env : Env) (req : HdReq ℕ) : Call :=
  { env := env, decoded := s.scratch h, datagrams := req.datagrams, num_le := req.num_le }

def State.serve (crc : Crc) (cfg : HdCfg) (s : State ρ η) (h : η) (env : HdEnv ℕ) (req : HdReq ℕ) :
    State ρ η :=
  let r := (s.call h env.toEnv req).outcome crc cfg (s.clients req.client)
  { s.hdGoto h (.sending req) with
    clients := writeBack env.reuses s.clients req.client r.client
    scratch := Function.update s.scratch h r.decoded }

/-- The step neither copies a datagram to a request nor serves a request. -/
def Silent (s : State ρ η) (t : Thread ρ η) (s' : State ρ η) : Prop :=
  match t with
  | .rx r => ∀ req req', s.rx r = .holding req → s'.rx r ≠ .holding req'
  | .hd h => ∀ req, s.hd h ≠ .popped req
  | .main => True

/-- Runs of the threads, with the datagrams that have been copied for each client and the
calls that have served it. -/
inductive Recorded (crc : Crc) (cfg : HdCfg) (maxClients : ℕ) :
    State ρ η → (ℕ → List Datagram) → (ℕ → List Call) → Prop
  | start {s : State ρ η} (hs : Started s) :
    Recorded crc cfg maxClients s (fun _ => []) fun _ => []
  | copy {s : State ρ η} {copied : ℕ → List Datagram} {served : ℕ → List Call} {r : ρ}
      {req req' : HdReq ℕ} (d : Datagram) (hs : Recorded crc cfg maxClients s copied served)
      (hpc : s.rx r = .holding req) (hpush : req.push d = some req') :
    Recorded crc cfg maxClients (s.rxGoto r (.holding req'))
      (Function.update copied req.client (copied req.client ++ [d])) served
  | serve {s : State ρ η} {copied : ℕ → List Datagram} {served : ℕ → List Call} {h : η}
      {req : HdReq ℕ} (env : HdEnv ℕ) (hs : Recorded crc cfg maxClients s copied served)
      (hpc : s.hd h = .popped req) :
    Recorded crc cfg maxClients (s.serve crc cfg h env req) copied
      (Function.update served req.client (served req.client ++ [s.call h env.toEnv req]))
  | other {s s' : State ρ η} {copied : ℕ → List Datagram} {served : ℕ → List Call}
      {t : Thread ρ η} (hs : Recorded crc cfg maxClients s copied served)
      (hstep : Step crc cfg maxClients s t s') (hsilent : Silent s t s') :
    Recorded crc cfg maxClients s' copied served

theorem Step.silent_or (hstep : Step crc cfg maxClients s t s') : Silent s t s' ∨
    (∃ r req req' d, s.rx r = .holding req ∧ req.push d = some req' ∧
      s' = s.rxGoto r (.holding req')) ∨
    ∃ h req env, s.hd h = .popped req ∧ s' = s.serve crc cfg h env req := by
  cases hstep with
  | @rx r _ hrx =>
    cases hrx with
    | copy d hpc hpush => exact .inr (.inl ⟨r, _, _, d, hpc, hpush, rfl⟩)
    | enqueue =>
      left
      intro req req' _ hpc'
      simp [State.rxGoto] at hpc'
    | found hpc => exact .inl fun req req' hpc' => by rw [hpc] at hpc'; cases hpc'
    | unknown hpc => exact .inl fun req req' hpc' => by rw [hpc] at hpc'; cases hpc'
    | refuse hpc => exact .inl fun req req' hpc' => by rw [hpc] at hpc'; cases hpc'
    | create hpc => exact .inl fun req req' hpc' => by rw [hpc] at hpc'; cases hpc'
    | put hpc => exact .inl fun req req' hpc' => by rw [hpc] at hpc'; cases hpc'
  | @hd h _ hhd =>
    cases hhd with
    | serve env hpc => exact .inr (.inr ⟨h, _, env, hpc, rfl⟩)
    | pop hpc => exact .inl fun req hpc' => by rw [hpc] at hpc'; cases hpc'
    | recycle hpc => exact .inl fun req hpc' => by rw [hpc] at hpc'; cases hpc'
  | main => exact .inl trivial

theorem Runs.recorded (hs : Runs crc cfg maxClients s) :
    ∃ copied served, Recorded crc cfg maxClients s copied served := by
  refine hs.invariant (I := fun s => ∃ copied served, Recorded crc cfg maxClients s copied served)
    (fun s hs => ⟨_, _, .start hs⟩) ?_
  rintro s t s' ⟨copied, served, hrecord⟩ - hstep
  rcases hstep.silent_or with hsilent | ⟨r, req, req', d, hpc, hpush, rfl⟩ | ⟨h, req, env, hpc, rfl⟩
  · exact ⟨_, _, hrecord.other hstep hsilent⟩
  · exact ⟨_, _, hrecord.copy d hpc hpush⟩
  · exact ⟨_, _, hrecord.serve env hpc⟩

theorem Recorded.runs (hs : Recorded crc cfg maxClients s copied served) :
    Runs crc cfg maxClients s := by
  induction hs with
  | start hs => exact .start hs
  | copy d _ hpc hpush ih => exact .step ih trivial (.rx (.copy d hpc hpush))
  | serve env _ hpc ih => exact .step ih trivial (.hd (.serve env hpc))
  | other _ hstep _ ih => exact .step ih trivial hstep

/-! ## Datagrams on their way -/

def datagramsFor (c : ℕ) (req : HdReq ℕ) : List Datagram :=
  if req.client = c then req.datagrams else []

def RxPc.datagrams (c : ℕ) : RxPc → List Datagram
  | .holding req => datagramsFor c req
  | _ => []

/-- A handler that is sending has served its request. -/
def HdPc.datagrams (c : ℕ) : HdPc → List Datagram
  | .popped req => datagramsFor c req
  | _ => []

theorem datagramsFor_newRequest (c client : ℕ) : datagramsFor c (newRequest client) = [] :=
  ite_self _

section

variable [Fintype ρ] [Fintype η]

/-- The datagrams for a client that have been copied and not been served. -/
def State.inFlight (s : State ρ η) (c : ℕ) : Multiset Datagram :=
  gather (RxPc.datagrams c) s.rx + (s.rxToHd.flatMap (datagramsFor c) : Multiset Datagram) +
    gather (HdPc.datagrams c) s.hd

omit [DecidableEq η] in
theorem inFlight_rxGoto {pc : RxPc} (hpc : pc.datagrams c = (s.rx r).datagrams c) :
    (s.rxGoto r pc).inFlight c = s.inFlight c := by
  rw [State.inFlight, State.inFlight, State.rxGoto, gather_keep hpc]

omit [DecidableEq η] in
theorem inFlight_copy (hpc : s.rx r = .holding req) {d : Datagram}
    (hpush : req.push d = some req') : (s.rxGoto r (.holding req')).inFlight c =
      s.inFlight c + (if req.client = c then {d} else 0 : Multiset Datagram) := by
  obtain ⟨-, hclient, hdatagrams⟩ := HdReq.push_spec hpush
  have hrx : gather (RxPc.datagrams c) (Function.update s.rx r (.holding req')) =
      gather (RxPc.datagrams c) s.rx + (if req.client = c then {d} else 0 : Multiset Datagram) := by
    split_ifs with hc
    · refine gather_append (l := [d]) ?_
      rw [hpc]
      simp only [RxPc.datagrams, datagramsFor, hclient, if_pos hc, hdatagrams]
    · rw [gather_keep, add_zero]
      rw [hpc]
      simp only [RxPc.datagrams, datagramsFor, hclient, if_neg hc]
  rw [State.inFlight, State.inFlight, State.rxGoto, hrx]
  abel

omit [DecidableEq ρ] in
theorem inFlight_serve (crc : Crc) (cfg : HdCfg) (env : HdEnv ℕ) (hpc : s.hd h = .popped req) :
    s.inFlight c = (s.serve crc cfg h env req).inFlight c +
      (datagramsFor c req : Multiset Datagram) := by
  have hhd := gather_clear (p := HdPc.datagrams c) (f := s.hd) (i := h) (a := .sending req) rfl
  rw [hpc] at hhd
  rw [State.inFlight, hhd, ← add_assoc]
  rfl

/-- A silent step moves datagrams from a receiver to the stream and on to a handler. -/
theorem Step.inFlight (hstep : Step crc cfg maxClients s t s') (hsilent : Silent s t s') :
    s'.inFlight c = s.inFlight c := by
  cases hstep with
  | @rx r _ hrx =>
    cases hrx with
    | found hpc =>
      exact inFlight_rxGoto (by rw [hpc]; exact datagramsFor_newRequest c _)
    | unknown hpc => exact inFlight_rxGoto (by rw [hpc]; rfl)
    | refuse hpc => exact inFlight_rxGoto (by rw [hpc]; rfl)
    | create hpc => exact inFlight_rxGoto (by rw [hpc]; rfl)
    | put hpc =>
      exact inFlight_rxGoto (by rw [hpc]; exact datagramsFor_newRequest c _)
    | copy d hpc hpush => exact absurd (Function.update_self _ _ _) (hsilent _ _ hpc)
    | @enqueue req hpc =>
      have hrx := gather_clear (p := RxPc.datagrams c) (f := s.rx) (i := r) (a := .idle) rfl
      rw [hpc] at hrx
      rw [State.inFlight, State.inFlight, hrx, State.rxGoto]
      dsimp only
      rw [List.flatMap_append, List.flatMap_singleton, ← Multiset.coe_add]
      show _ = _ + (datagramsFor c req : Multiset Datagram) + _ + _
      abel
  | @hd h _ hhd =>
    cases hhd with
    | @pop req rest hpc hqueue =>
      have hhd : gather (HdPc.datagrams c) (Function.update s.hd h (.popped req)) =
          gather (HdPc.datagrams c) s.hd + (datagramsFor c req : Multiset Datagram) :=
        gather_append (by rw [hpc]; rfl)
      rw [State.inFlight, State.inFlight, State.hdGoto, hqueue]
      dsimp only
      rw [List.flatMap_cons, ← Multiset.coe_add, hhd]
      abel
    | serve env hpc => exact absurd hpc (hsilent _)
    | recycle hpc =>
      rw [State.inFlight, State.inFlight, State.hdGoto, gather_keep (by rw [hpc]; rfl)]
  | main hmain => cases hmain <;> rfl

/-! ## The run of a client -/

omit [Fintype ρ] [Fintype η] in
theorem Step.clients_of_silent (hs : Kept s) (hstep : Step crc cfg maxClients s t s')
    (hsilent : Silent s t s') (hc : c < s.nextClient) : s'.clients c = s.clients c := by
  cases hstep with
  | rx hrx =>
    cases hrx with
    | create => exact Function.update_of_ne (Nat.ne_of_lt hc) _ _
    | _ => rfl
  | hd hhd =>
    cases hhd with
    | serve env hpc => exact absurd hpc (hsilent _)
    | _ => rfl
  | main hmain =>
    cases hmain with
    | @deallocate client rest hpc =>
      have hended := hs.ended client (.inl (by rw [hpc]; exact List.mem_cons_self))
      show Function.update s.clients client _ c = _
      rw [deallocateClient_of_inactive hended.1, Function.update_eq_self]
    | _ => rfl

def runOf (crc : Crc) (cfg : HdCfg) (s : State ρ η) (served : ℕ → List Call) (c : ℕ) : Run :=
  Run.serveAll crc cfg (Run.start (UInt32.ofNat c) (s.clients c).address) (served c)

/-- What the records of a run say of its state. -/
structure Record (s : State ρ η) (copied : ℕ → List Datagram) (served : ℕ → List Call) : Prop where
  kept : Kept s
  numbered : Numbered s
  new : ∀ c, s.nextClient ≤ c → served c = []
  conserved : ∀ c, (copied c : Multiset Datagram) =
    ((served c).flatMap Call.datagrams : Multiset Datagram) + s.inFlight c

omit [DecidableEq ρ] [DecidableEq η] in
theorem Started.record (hs : Started s) : Record s (fun _ => []) fun _ => [] := by
  refine ⟨hs.kept, hs.numbered, fun _ _ => rfl, fun c => ?_⟩
  rw [State.inFlight, hs.rxToHd, gather_eq_zero fun r => by rw [hs.rx r]; rfl,
    gather_eq_zero fun h => by rw [hs.hd h]; rfl]
  rfl

theorem Record.other (hs : Record s copied served) (hstep : Step crc cfg maxClients s t s')
    (hsilent : Silent s t s') : Record s' copied served := by
  refine ⟨hs.kept.step hstep, hs.numbered.step hstep,
    fun c hc => hs.new c (hstep.nextClient_le.trans hc), fun c => ?_⟩
  rw [hstep.inFlight hsilent]
  exact hs.conserved c

theorem Record.copy (hs : Record s copied served) (hpc : s.rx r = .holding req)
    {d : Datagram} (hpush : req.push d = some req') :
    Record (s.rxGoto r (.holding req'))
      (Function.update copied req.client (copied req.client ++ [d])) served := by
  have hstep : ∀ (crc : Crc) (cfg : HdCfg),
      Step crc cfg 0 s (.rx r) (s.rxGoto r (.holding req')) := fun _ _ => .rx (.copy d hpc hpush)
  refine ⟨hs.kept.step (hstep bitwiseCrc ⟨0⟩), hs.numbered.step (hstep bitwiseCrc ⟨0⟩), hs.new,
    fun c => ?_⟩
  rw [inFlight_copy hpc hpush, ← add_assoc, ← hs.conserved c]
  by_cases hc : req.client = c
  · subst hc
    rw [Function.update_self, if_pos rfl, ← Multiset.coe_add, Multiset.coe_singleton]
  · rw [Function.update_of_ne (Ne.symm hc), if_neg hc]
    exact (add_zero _).symm

theorem Record.serve (hs : Record s copied served) (hpc : s.hd h = .popped req) :
    Record (s.serve crc cfg h env req) copied
      (Function.update served req.client (served req.client ++ [s.call h env.toEnv req])) := by
  have hstep : Step crc cfg 0 s (.hd h) (s.serve crc cfg h env req) := .hd (.serve env hpc)
  have hknown : req.client < s.nextClient := hs.kept.known.hd h _ (by rw [hpc]; rfl)
  refine ⟨hs.kept.step hstep, hs.numbered.step hstep, fun c hc => ?_, fun c => ?_⟩
  · have hne : c ≠ req.client := Ne.symm (Nat.ne_of_lt (lt_of_lt_of_le hknown hc))
    rw [Function.update_of_ne hne]
    exact hs.new c hc
  · rw [hs.conserved c, inFlight_serve crc cfg env hpc]
    by_cases hclient : c = req.client
    · subst hclient
      rw [Function.update_self, List.flatMap_append, ← Multiset.coe_add, List.flatMap_singleton,
        datagramsFor, if_pos rfl]
      show _ + (_ + (req.datagrams : Multiset Datagram)) = _ + (req.datagrams : Multiset _) + _
      abel
    · rw [Function.update_of_ne hclient, datagramsFor, if_neg (Ne.symm hclient),
        Multiset.coe_nil, add_zero]

theorem Recorded.record (hs : Recorded crc cfg maxClients s copied served) :
    Record s copied served := by
  induction hs with
  | start hs => exact hs.record
  | copy d _ hpc hpush ih => exact ih.copy hpc hpush
  | serve env _ hpc ih => exact ih.serve hpc
  | other _ hstep hsilent ih => exact ih.other hstep hsilent

/-- If the calls that have served the client `c` close its transfer, they do so quietly. -/
def ServedQuietly (crc : Crc) (cfg : HdCfg) (s : State ρ η) (served : ℕ → List Call) (c : ℕ) :
    Prop :=
  EachCall crc cfg (ClosesQuietly crc cfg) (Run.start (UInt32.ofNat c) (s.clients c).address)
    (served c)

omit [DecidableEq ρ] [DecidableEq η] [Fintype ρ] [Fintype η] in
theorem ServedQuietly.orderly (h : ServedQuietly crc cfg s served c) :
    (runOf crc cfg s served c).client.session.Orderly :=
  h.invariant (I := fun r : Run => r.client.session.Orderly)
    (fun _ _ hr hq => (orderly_serve hr hq).1) (orderly_start _ _)

omit [DecidableEq ρ] [Fintype ρ] [Fintype η] in
/-- A handler serves a request for a client that is what its calls make of a new one.  If it
closes the transfer quietly this holds of all clients when it held of them before. -/
theorem serve_clients (hold : ∀ c < s.nextClient, s.clients c = (runOf crc cfg s served c).client)
    (hknown : req.client < s.nextClient) (hserved : ServedQuietly crc cfg s served req.client)
    (hquiet : ClosesQuietly crc cfg (runOf crc cfg s served req.client)
      (s.call h env.toEnv req)) (hc : c < s.nextClient) :
    (s.serve crc cfg h env req).clients c = (Run.serveAll crc cfg
      (Run.start (UInt32.ofNat c) (s.clients c).address)
      (Function.update served req.client (served req.client ++ [s.call h env.toEnv req]) c)).client
    := by
  have hlate := (orderly_serve hserved.orderly hquiet).2
  have hclients : (s.serve crc cfg h env req).clients = Function.update s.clients req.client
      ((s.call h env.toEnv req).outcome crc cfg (s.clients req.client)).client := by
    refine writeBack_of_late _ _ _ _ ?_
    rw [hold req.client hknown]
    exact hlate
  rw [hclients]
  by_cases hclient : c = req.client
  · subst hclient
    rw [Function.update_self, Function.update_self, Run.serveAll, List.foldl_append]
    conv_lhs => rw [hold req.client hknown]
    rfl
  · rw [Function.update_of_ne hclient, Function.update_of_ne hclient]
    exact hold c hc

omit [Fintype ρ] [Fintype η] in
theorem ServedQuietly.of_step (hstep : Step crc cfg maxClients s t s') (hc : c < s.nextClient)
    (hquiet : ServedQuietly crc cfg s' served c) : ServedQuietly crc cfg s served c := by
  rwa [ServedQuietly, hstep.address hc] at hquiet

omit [Fintype ρ] [Fintype η] in
/-- If all is quiet with the call that a handler has just made, it was before, and the call is. -/
theorem ServedQuietly.of_serve (hpc : s.hd h = .popped req) (hc : c < s.nextClient)
    (hquiet : ServedQuietly crc cfg (s.serve crc cfg h env req)
      (Function.update served req.client (served req.client ++ [s.call h env.toEnv req])) c) :
    ServedQuietly crc cfg s served c ∧ (c = req.client →
      ClosesQuietly crc cfg (runOf crc cfg s served c) (s.call h env.toEnv req)) := by
  have hstep : Step crc cfg 0 s (.hd h) (s.serve crc cfg h env req) := .hd (.serve env hpc)
  have hcalls := hquiet.of_step hstep hc
  unfold ServedQuietly at hcalls
  by_cases hclient : c = req.client
  · subst hclient
    rw [Function.update_self] at hcalls
    obtain ⟨hserved, hcall, -⟩ := Along.append.mp hcalls
    exact ⟨hserved, fun _ => hcall⟩
  · rw [Function.update_of_ne hclient] at hcalls
    exact ⟨hcalls, fun hsame => absurd hsame hclient⟩

/-- As long as transfers are closed quietly every client is what its calls make of a new one. -/
theorem Recorded.client (hs : Recorded crc cfg maxClients s copied served)
    (hquiet : ∀ c < s.nextClient, ServedQuietly crc cfg s served c) :
    ∀ c < s.nextClient, s.clients c = (runOf crc cfg s served c).client := by
  induction hs with
  | start hs =>
    intro c hc
    rw [hs.nextClient] at hc
    exact absurd hc (Nat.not_lt_zero c)
  | copy d _ hpc hpush ih => exact ih hquiet
  | @serve s copied served h req env hs hpc ih =>
    have hstep : Step crc cfg maxClients s (.hd h) (s.serve crc cfg h env req) :=
      .hd (.serve env hpc)
    have hknown : req.client < s.nextClient := hs.record.kept.known.hd h _ (by rw [hpc]; rfl)
    have hbefore := fun c hc => ((hquiet c hc).of_serve hpc hc).1
    have hcall := ((hquiet req.client hknown).of_serve hpc hknown).2 rfl
    intro c hc
    rw [runOf, hstep.address hc]
    exact serve_clients (ih hbefore) hknown (hbefore _ hknown) hcall hc
  | @other s s' copied served t hs hstep hsilent ih =>
    have hold : ∀ c < s.nextClient, s'.clients c = (runOf crc cfg s' served c).client := by
      have hbefore : ∀ c < s.nextClient, ServedQuietly crc cfg s served c := fun c hc =>
        (hquiet c (lt_of_lt_of_le hc hstep.nextClient_le)).of_step hstep hc
      intro c hc
      rw [runOf, hstep.clients_of_silent hs.record.kept hsilent hc]
      exact ih hbefore c hc
    rcases hstep.created with ⟨-, hnext⟩ | ⟨-, hnext, address, hnew⟩
    · rwa [hnext]
    · intro c hc
      rw [hnext] at hc
      rcases Nat.lt_or_eq_of_le (Nat.le_of_lt_succ hc) with hlt | rfl
      · exact hold c hlt
      · rw [runOf, hs.record.new _ le_rfl, hnew, hs.record.numbered.idx]
        rfl

/-! ## A recorded run -/

omit [Fintype ρ] [Fintype η] in
/-- A receiver copies one datagram to a new request and enqueues it, and a handler that has
nothing else to do serves it. -/
theorem Recorded.request (hs : Recorded crc cfg maxClients s copied served)
    (hr : s.rx r = .holding (newRequest c)) (hqueue : s.rxToHd = []) (hh : s.hd h = .idle)
    {client : Client} (hclient : s.clients c = client) (env : Env) (d : Datagram) {q : Call}
    (hq : q = ⟨env, s.scratch h, [d], (by decide : 1 ≤ maxWindowSize)⟩) :
    ∃ s', Recorded crc cfg maxClients s' (Function.update copied c (copied c ++ [d]))
        (Function.update served c (served c ++ [q])) ∧
      s'.rx r = .idle ∧ s'.rxToHd = [] ∧ s'.hd h = .idle ∧ s'.table = s.table ∧
      s'.nextClient = s.nextClient ∧ s'.scratch h = (q.outcome crc cfg client).decoded ∧
      s'.clients c = (q.outcome crc cfg client).client := by
  subst hq hclient
  have hroom : (newRequest c).datagrams.length < maxWindowSize := Nat.zero_lt_succ 30
  have hcopied := hs.copy d hr (by rw [HdReq.push, dif_pos hroom])
  have henqueued := hcopied.other (.rx (.enqueue (r := r) (Function.update_self _ _ _)))
    (fun _ _ _ hpc => by simp [State.rxGoto] at hpc)
  have hpopped := henqueued.other
    (.hd (.pop (h := h) hh (by simp only [State.rxGoto, hqueue]; rfl)))
    (fun _ hpc => by simp [State.rxGoto, hh] at hpc)
  have hserved := hpopped.serve (h := h) env.unshared (Function.update_self _ _ _)
  have hdone := hserved.other (.hd (.recycle (h := h) (Function.update_self _ _ _)))
    (fun _ hpc => by simp [State.serve, State.hdGoto] at hpc)
  refine ⟨_, hdone, ?_, rfl, Function.update_self _ _ _, rfl, rfl, Function.update_self _ _ _,
    writeBack_self _ _ _ _⟩
  simp [State.serve, State.hdGoto, State.rxGoto]

/-- The chunk "a" and the end, each in a request of its own. -/
def firstCall : Call := Call.single (dataPacket 0 7 [0x61])

def secondDecoded : Packet :=
  (firstCall.outcome bitwiseCrc ⟨31⟩ (initializeClient 0 localhost)).decoded

def secondCall : Call :=
  { Call.single (dataPacket 1 7 []) with decoded := secondDecoded }

def twoCalls : List Call := [firstCall, secondCall]

/-- A receiver creates a client, and its datagrams come one after the other. -/
theorem twoCalls_recorded : ∃ (s : State Unit Unit) (copied : ℕ → List Datagram)
    (served : ℕ → List Call), Recorded bitwiseCrc ⟨31⟩ 1 s copied served ∧ s.nextClient = 1 ∧
      (s.clients 0).address = localhost ∧ copied 0 = twoCalls.flatMap Call.datagrams ∧
      served 0 = twoCalls := by
  have hstart : Recorded bitwiseCrc ⟨31⟩ 1 started (fun _ => []) fun _ => [] :=
    .start ⟨⟨rfl, fun _ => rfl, rfl, fun _ => rfl, rfl, rfl⟩, rfl, rfl⟩
  have hunknown := hstart.other
    (.rx (.unknown (r := ()) rfl (rfl : started.table.get localhost = some none)))
    (fun _ _ h => by cases h)
  have hcreated := hunknown.other
    (.rx (.create (r := ()) (rfl : _ = RxPc.unknown localhost) (by decide)))
    (fun _ _ h => by cases h)
  have hput := hcreated.other
    (.rx (.put (r := ()) (rfl : _ = RxPc.creating localhost 0)
      (rfl : allocateHt.put localhost (some 0) = some (none, [], registered))))
    (fun _ _ h => by cases h)
  obtain ⟨s, hs, hr, hqueue, hh, htable, hnext, hscratch, hclient⟩ :=
    hput.request (r := ()) (h := ()) (c := 0) (q := firstCall) rfl rfl rfl
      (rfl : _ = initializeClient 0 localhost) firstCall.env _ rfl
  have hfound := hs.other
    (.rx (.found (r := ()) hr
      (by rw [htable]; exact (rfl : registered.get localhost = some (some 0)))))
    (fun _ _ hpc => by rw [hr] at hpc; cases hpc)
  have hdecoded : s.scratch () = secondDecoded := hscratch
  obtain ⟨s', hs', -, -, -, -, hnext', -, hclient'⟩ :=
    hfound.request (r := ()) (h := ()) (c := 0) (q := secondCall) rfl hqueue hh hclient
      secondCall.env ((dataPacket 1 7 []).datagram bitwiseCrc)
      (by simp only [State.rxGoto, hdecoded]; rfl)
  refine ⟨s', _, _, hs', hnext'.trans hnext, ?_, ?_, ?_⟩
  · rw [hclient', Call.outcome, handleRequest_address, Call.outcome, handleRequest_address]
    rfl
  · simp only [Function.update_self]
    rfl
  · simp only [Function.update_self]
    rfl

/-! ## Clients and files -/

end

variable {chunks : List (List UInt8)}

omit [DecidableEq ρ] [DecidableEq η] in
/-- What is known of a client whose calls have been given the chunks of a sender. -/
theorem Kept.transfer (hs : Kept s) {B : ℕ} (hB : Reassembled chunks (s.clients c).session B) :
    (∃ B ≤ chunks.length + 1,
      (s.clients c).outFile.bytes = ((chunks ++ [[]]).take B).flatten ∧
        (s.clients c).window.windowLow.toNat = B % 256 ∧
        ((s.clients c).active = false ↔ B = chunks.length + 1)) ∧
      (c ∈ s.freed → (s.clients c).outFile.bytes = chunks.flatten) := by
  have hactive : (s.clients c).active = false ↔ B = chunks.length + 1 := by
    have hlt := hB.active
    have hle := hB.delivered_le
    rw [← Bool.not_eq_true, show (s.clients c).active = (s.clients c).session.active from rfl, hlt]
    omega
  refine ⟨⟨B, hB.delivered_le, hB.bytes, ?_, hactive⟩, fun hfreed => ?_⟩
  · have hlow : (s.clients c).window.windowLow = UInt8.ofNat B := hB.low
    rw [hlow, UInt8.toNat_ofNat']
  · have hended : Ended (s.clients c) := hs.ended c (.inr hfreed)
    rw [hactive.mp hended.1] at hB
    exact hB.complete.2

variable [Fintype ρ] [Fintype η]

omit [DecidableEq ρ] [DecidableEq η] [Fintype ρ] [Fintype η] in
theorem reassembled_runOf (hchunks : ∀ chunk ∈ chunks, 1 ≤ chunk.length)
    (hcalls : EachCall crc cfg (fun r q => Written crc cfg r q ∧ FromSender crc chunks r q)
      (Run.start (UInt32.ofNat c) (s.clients c).address) (served c)) :
    Reassembled chunks (runOf crc cfg s served c).client.session
      (runOf crc cfg s served c).delivered.length :=
  hcalls.invariant
    (I := fun r : Run => Reassembled chunks r.client.session r.delivered.length)
    (fun _ _ hr hq => reassembled_serve hchunks hr hq.1 hq.2) (reassembled_start _ _)

omit [DecidableEq ρ] [DecidableEq η] [Fintype ρ] [Fintype η] in
/-- A sender has nothing behind the end of its transfer. -/
theorem servedQuietly_of_sender (hchunks : ∀ chunk ∈ chunks, 1 ≤ chunk.length)
    (hcalls : EachCall crc cfg (fun r q => Written crc cfg r q ∧ FromSender crc chunks r q)
      (Run.start (UInt32.ofNat c) (s.clients c).address) (served c)) :
    ServedQuietly crc cfg s served c := by
  refine Along.strengthen
    (I := fun r : Run => Reassembled chunks r.client.session r.delivered.length) ?_
    (reassembled_start _ _) hcalls
  intro r q _ hr hq
  have hnext := reassembled_serve hchunks hr hq.1 hq.2
  refine ⟨fun ha hi => (over_iff ha hi).mp ⟨hi, ?_⟩, hnext⟩
  have hall := hnext.active
  rw [show (r.serve crc cfg q).client.session.active = false from hi] at hall
  cases hp : (r.serve crc cfg q).client.session.pending 0 with
  | none => rfl
  | some p =>
    have hsent := lt_of_sent (hnext.pending 0 (by decide) p hp)
    have hle : ¬ (r.serve crc cfg q).delivered.length ≤ chunks.length := fun h =>
      Bool.false_ne_true (hall.mpr h)
    omega

theorem Recorded.reassembled (hchunks : ∀ chunk ∈ chunks, 1 ≤ chunk.length)
    (hs : Recorded crc cfg maxClients s copied served) (hc : c < s.nextClient)
    (hothers : ∀ c' < s.nextClient, c' ≠ c → ServedQuietly crc cfg s served c')
    (hcalls : EachCall crc cfg (fun r q => Written crc cfg r q ∧ FromSender crc chunks r q)
      (Run.start (UInt32.ofNat c) (s.clients c).address) (served c)) :
    s.clients c = (runOf crc cfg s served c).client ∧
      Reassembled chunks (s.clients c).session (runOf crc cfg s served c).delivered.length := by
  have hquiet : ∀ c' < s.nextClient, ServedQuietly crc cfg s served c' := by
    intro c' hc'
    by_cases hsame : c' = c
    · rw [hsame]
      exact servedQuietly_of_sender hchunks hcalls
    · exact hothers c' hc' hsame
  have hclient := hs.client hquiet c hc
  refine ⟨hclient, ?_⟩
  rw [hclient]
  exact reassembled_runOf hchunks hcalls

theorem twoCalls_eachCall : EachCall bitwiseCrc ⟨31⟩
    (fun r q => Written bitwiseCrc ⟨31⟩ r q ∧ FromSender bitwiseCrc [[0x61]] r q)
    (Run.start 0 localhost) twoCalls := by
  refine ⟨⟨?_, fromSender_of_contents ?_⟩, ⟨?_, fromSender_of_contents ?_⟩, trivial⟩
  all_goals decide +kernel

theorem Recorded.mem_copied (hs : Recorded crc cfg maxClients s copied served) {q : Call}
    (hq : q ∈ served c) {d : Datagram} (hd : d ∈ q.datagrams) : d ∈ copied c := by
  rw [← Multiset.mem_coe, hs.record.conserved c, Multiset.mem_add, Multiset.mem_coe]
  exact .inl (List.mem_flatMap.mpr ⟨q, hq, hd⟩)

/-- A transfer of at most 224 chunks cannot meet a stale number. -/
theorem Recorded.short_reassembled (hs : Recorded crc cfg maxClients s copied served)
    (hc : c < s.nextClient)
    (hothers : ∀ c' < s.nextClient, c' ≠ c → ServedQuietly crc cfg s served c')
    (hchunks : ∀ chunk ∈ chunks, 1 ≤ chunk.length) (hshort : chunks.length ≤ 224)
    (hsender : ∀ d ∈ copied c, ∀ p, d.content? crc = some p →
      (chunks ++ [[]])[p.seqnum.toNat]? = some p.data)
    (hwritten : EachCall crc cfg (Written crc cfg)
      (Run.start (UInt32.ofNat c) (s.clients c).address) (served c)) :
    Reassembled chunks (s.clients c).session (runOf crc cfg s served c).delivered.length := by
  -- at most 225 chunks are ever delivered, so that no number is out of the range
  have hcalls : EachCall crc cfg (fun r q => Written crc cfg r q ∧ FromSender crc chunks r q)
      (Run.start (UInt32.ofNat c) (s.clients c).address) (served c) := by
    refine Along.strengthen
      (I := fun r : Run => Reassembled chunks r.client.session r.delivered.length) ?_
      (reassembled_start _ _) hwritten
    intro r q hq hr hw
    have hfrom : FromSender crc chunks r q := by
      intro d hd p hp
      have hle := hr.delivered_le
      have hlt := p.seqnum.toNat_lt
      exact ⟨p.seqnum.toNat, hsender d (hs.mem_copied hq hd) p hp, (Nat.mod_eq_of_lt hlt).symm,
        by omega, by omega⟩
    exact ⟨⟨hw, hfrom⟩, reassembled_serve hchunks hr hw hfrom⟩
  exact (hs.reassembled hchunks hc hothers hcalls).2

end Trtp.Threads
