import Trtp.Handler.Ending
import Mathlib.Data.Fintype.Defs

/-!
# Isolation

Handlers serve the requests of all clients, each with one scratch packet that it
swaps into the windows of whichever client it serves.  `unpack` overwrites everything
that is read of a scratch packet later, so the packets that travel between clients carry
nothing along.

What the clients do share are the streams of stdio.  A client whose transfer has ended keeps
the pointer to its `FILE`, which `fopen` may give to the next client; a late write through
this pointer then lands in the file of the other one.  As long as transfers are closed quietly
there is no such write, and what a client ends up with depends on its own requests alone
(`isolation`): its view evolves by a fold over these requests, in which neither the handlers
nor the other clients occur.
-/

namespace Trtp

open Lib

/-- The clients `κ` that have been created, the `FILE` that `out_file` of each points to, and
the scratch packets of the handlers `η`. -/
structure System (κ η φ : Type) where
  created : κ → Bool
  clients : κ → Client
  stream : κ → φ
  scratch : η → Packet

/-- A receiver creates a client, for which `fopen` returns `stream`, or a handler takes a
request of a client. -/
inductive Event (κ η φ : Type)
  | create (client : κ) (id : UInt32) (address : Address) (stream : φ)
  | serve (handler : η) (env : Env) (req : HdReq κ) (running : req.stop = false)

section

variable {κ η φ η' φ' : Type} [DecidableEq κ] [DecidableEq η] [DecidableEq φ] [DecidableEq η']
  [DecidableEq φ'] (crc : Crc) (cfg : HdCfg)

/-- The other clients with the `FILE` of the client `c`. -/
def System.reuses (s : System κ η φ) (c : κ) : κ → Bool :=
  fun c' => s.created c' && decide (s.stream c' = s.stream c)

/-- One call of `initialize_client` or of `hd_run_once`. -/
def System.step (s : System κ η φ) : Event κ η φ → System κ η φ
  | .create c id address stream =>
    { s with
      created := Function.update s.created c true
      clients := Function.update s.clients c (initializeClient id address)
      stream := Function.update s.stream c stream }
  | .serve handler env req _ =>
    let r := (hdRunOnce crc cfg { env with reuses := s.reuses req.client } (some (some req))
      { clients := s.clients, decoded := s.scratch handler, exit := false }).1
    { s with clients := r.clients, scratch := Function.update s.scratch handler r.decoded }

/-- A client is created once, `fopen` returns no `FILE` that another client has open, and
requests are for clients that have been created. -/
def System.Allows (s : System κ η φ) : Event κ η φ → Prop
  | .create c _ _ stream => s.created c = false ∧ ∀ c', s.created c' = true →
      s.stream c' = stream → (s.clients c').outFile.closed = true
  | .serve _ _ req _ => s.created req.client = true

def System.call (s : System κ η φ) (handler : η) (env : Env) (req : HdReq κ) : Call :=
  { env := env, decoded := s.scratch handler, datagrams := req.datagrams, num_le := req.num_le }

/-- If the event writes to a file, all bytes are written. -/
def System.Writes (s : System κ η φ) : Event κ η φ → Prop
  | .create .. => True
  | .serve handler env req _ =>
    Written crc cfg ⟨s.clients req.client, []⟩ (s.call handler env req)

/-- If the event closes a transfer, it does so quietly. -/
def System.Quiet (s : System κ η φ) : Event κ η φ → Prop
  | .create .. => True
  | .serve handler env req _ =>
    ClosesQuietly crc cfg ⟨s.clients req.client, []⟩ (s.call handler env req)

instance [Fintype κ] (s : System κ η φ) : ∀ e, Decidable (s.Allows e)
  | .create .. => inferInstanceAs (Decidable (_ ∧ _))
  | .serve .. => inferInstanceAs (Decidable (_ = _))

instance (s : System κ η φ) : ∀ e, Decidable (s.Writes crc cfg e)
  | .create .. => .isTrue trivial
  | .serve .. => inferInstanceAs (Decidable (Written _ _ _ _))

instance (s : System κ η φ) : ∀ e, Decidable (s.Quiet crc cfg e)
  | .create .. => .isTrue trivial
  | .serve .. => inferInstanceAs (Decidable (ClosesQuietly _ _ _ _))

def Event.reqFor (c : κ) : Event κ η φ → Option (HdReq κ)
  | .create .. => none
  | .serve _ _ req _ => if req.client = c then some req else none

def requestsOf (c : κ) (events : List (Event κ η φ)) : List (HdReq κ) :=
  events.filterMap (Event.reqFor c)

def HdReq.act (crc : Crc) (req : HdReq κ) (s : Session) : Session :=
  ((contents crc req.datagrams).foldl Session.accept s).flush

variable {crc cfg} {s : System κ η φ} {e : Event κ η φ} {c : κ} {handler : η} {env : Env}
  {req : HdReq κ} {running : req.stop = false}

theorem step_serve_clients : (s.step crc cfg (.serve handler env req running)).clients =
    writeBack (s.reuses req.client) s.clients req.client
      ((s.call handler env req).outcome crc cfg (s.clients req.client)).client := by
  simp [System.step, hdRunOnce, running, System.call, Call.outcome]

theorem step_session (hw : s.Writes crc cfg (.serve handler env req running))
    (hc : req.client = c) :
    ((s.step crc cfg (.serve handler env req running)).clients c).session =
      req.act crc (s.clients c).session := by
  subst hc
  rw [step_serve_clients, writeBack_self]
  exact (handleRequest_written hw).1

/-- The files of all clients are open as long as their transfers last, and nothing is left to
deliver after the end. -/
def System.Orderly (s : System κ η φ) : Prop :=
  ∀ c, s.created c = true → (s.clients c).session.Orderly

/-- As long as transfers are closed quietly a request leaves the other clients alone. -/
theorem System.Orderly.serve_clients (hs : s.Orderly)
    (ha : s.Allows (.serve handler env req running))
    (hq : s.Quiet crc cfg (.serve handler env req running)) :
    (s.step crc cfg (.serve handler env req running)).clients =
      Function.update s.clients req.client
        ((s.call handler env req).outcome crc cfg (s.clients req.client)).client := by
  have hlate := (orderly_serve (r := ⟨s.clients req.client, []⟩) (hs req.client ha) hq).2
  rw [step_serve_clients]
  exact writeBack_of_late _ _ _ _ hlate

theorem System.Orderly.step (hs : s.Orderly) (ha : s.Allows e) (hq : s.Quiet crc cfg e) :
    (s.step crc cfg e).Orderly := by
  intro c hc
  cases e with
  | create c' id address stream =>
    by_cases hcc : c = c'
    · subst hcc
      simp only [System.step, Function.update_self]
      exact orderly_start id address
    · simp only [System.step, Function.update_of_ne hcc] at hc ⊢
      exact hs c hc
  | serve handler env req running =>
    rw [hs.serve_clients ha hq]
    by_cases hcc : c = req.client
    · subst hcc
      rw [Function.update_self]
      exact (orderly_serve (r := ⟨s.clients req.client, []⟩) (hs req.client ha) hq).1
    · rw [Function.update_of_ne hcc]
      exact hs c hc

theorem System.Orderly.clients_of_none (hs : s.Orderly) (ha : s.Allows e)
    (hq : s.Quiet crc cfg e) (hc : s.created c = true) (he : e.reqFor c = none) :
    (s.step crc cfg e).clients c = s.clients c := by
  cases e with
  | create c' id address stream =>
    have hne : c ≠ c' := by
      rintro rfl
      rw [ha.1] at hc
      cases hc
    exact Function.update_of_ne hne _ _
  | serve handler env req running =>
    have hne : c ≠ req.client := by
      rintro rfl
      simp [Event.reqFor] at he
    rw [hs.serve_clients ha hq, Function.update_of_ne hne]

theorem created_step (hc : s.created c = true) : (s.step crc cfg e).created c = true := by
  cases e with
  | create c' id address stream =>
    by_cases hcc : c = c'
    · subst hcc
      exact Function.update_self _ _ _
    · exact (Function.update_of_ne hcc _ _).trans hc
  | serve handler env req running => exact hc

theorem session_of_some (hw : s.Writes crc cfg e) (he : e.reqFor c = some req) :
    ((s.step crc cfg e).clients c).session = req.act crc (s.clients c).session := by
  cases e with
  | create c' id address stream => cases he
  | serve handler env req' running =>
    simp only [Event.reqFor] at he
    split_ifs at he with hc
    cases he
    exact step_session hw hc

variable (crc cfg) in
/-- The event can happen, its write does not fail, and if it closes a transfer it does so
quietly. -/
def System.Regular (s : System κ η φ) (e : Event κ η φ) : Prop :=
  s.Allows e ∧ s.Writes crc cfg e ∧ s.Quiet crc cfg e

instance [Fintype κ] (s : System κ η φ) (e : Event κ η φ) : Decidable (s.Regular crc cfg e) :=
  inferInstanceAs (Decidable (_ ∧ _))

/-- Among other clients, a client goes through a fold over its own requests. -/
theorem session_among_others {events : List (Event κ η φ)} (hs : s.Orderly)
    (hc : s.created c = true)
    (h : Along (System.step crc cfg) (System.Regular crc cfg) s events) :
    ((events.foldl (System.step crc cfg) s).clients c).session =
      (requestsOf c events).foldl (fun t req => req.act crc t) (s.clients c).session := by
  induction events generalizing s with
  | nil => rfl
  | cons e events ih =>
    obtain ⟨ha, hw, hq⟩ := h.1
    rw [List.foldl_cons, ih (hs.step ha hq) (created_step hc) h.2]
    cases he : e.reqFor c with
    | none =>
      rw [requestsOf, requestsOf, List.filterMap_cons_none he, hs.clients_of_none ha hq hc he]
    | some req =>
      rw [requestsOf, requestsOf, List.filterMap_cons_some he, session_of_some hw he]
      rfl

/-- A client goes through the same fold when there are no other requests. -/
theorem session_alone {events : List (Event κ η φ)} {reqs : List (HdReq κ)}
    (hreqs : events.map (Event.reqFor c) = reqs.map some)
    (h : Along (System.step crc cfg) (System.Writes crc cfg) s events) :
    ((events.foldl (System.step crc cfg) s).clients c).session =
      reqs.foldl (fun t req => req.act crc t) (s.clients c).session := by
  induction events generalizing s reqs with
  | nil =>
    rw [List.map_eq_nil_iff.mp hreqs.symm]
    rfl
  | cons e events ih =>
    cases reqs with
    | nil => cases hreqs
    | cons req reqs =>
      rw [List.map_cons, List.map_cons, List.cons.injEq] at hreqs
      rw [List.foldl_cons, ih hreqs.2 h.2, session_of_some h.1 hreqs.1]
      rfl

end

/-! ## Two clients -/

def nobody : System Bool Unit Nat :=
  { created := fun _ => false, clients := fun _ => initializeClient 0 localhost
    stream := fun _ => 0, scratch := fun _ => initPacket }

def Event.sending {η φ : Type} (handler : η) (c : Bool) (ps : List Packet)
    (h : ps.length ≤ maxWindowSize) : Event Bool η φ :=
  let q := Call.sending ps h
  .serve handler q.env ⟨false, c, q.datagrams, q.num_le⟩ rfl

/-- The second client comes when the first one has been served once.  The scratch packet holds a
payload of the first one when the second is served. -/
def twoClients : List (Event Bool Unit Nat) × List (Event Bool Unit Nat) :=
  ([.create false 1 localhost 0,
      Event.sending () false [dataPacket 0 7 [0x61, 0x62], dataPacket 0 8 [0x61, 0x62]] (by decide),
      .create true 2 localhost 1],
    [Event.sending () true [dataPacket 2 8 [0x63]] (by decide),
      Event.sending () false [dataPacket 1 9 []] (by decide),
      Event.sending () true [dataPacket 0 7 [0x61, 0x62]] (by decide)])

/-- The first client sends the end of its transfer together with a packet behind it.  Its stream
is closed, and `fopen` returns the same `FILE` for the second client.  Then a request of each. -/
def reusedStream : List (Event Bool Unit Nat) × List (Event Bool Unit Nat) :=
  ([.create false 1 localhost 0,
      Event.sending () false [dataPacket 0 7 [], dataPacket 1 8 [0x62]] (by decide),
      .create true 2 localhost 0],
    [Event.sending () false [] (Nat.zero_le _),
      Event.sending () true [dataPacket 0 8 [0x61]] (by decide)])

end Trtp
