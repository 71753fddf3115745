import Trtp.Handler.Calls
import Trtp.HashTable.Removal
import Trtp.HashTable.Shared
import Trtp.Lib.Runs
import Trtp.Receiver.Basic
import Trtp.Server.Basic

/-!
# Requests and their clients

The threaded mode: receivers `ρ`, handlers `η` and the main thread.  A receiver gets a
client from the table or creates one, collects its datagrams in a request and enqueues it.
A handler pops the request, serves it under the lock of the client and then sends the
replies, for which it reads the address of the client once more.  The main thread reaps.

`ht_remove` holds the lock of the table only while it clears the slot.  The rebuild goes
entry by entry, and receivers work on the table in between; `ht_get`, `ht_put` and the move of
one entry are single steps.  All receivers and handlers are on one stream, which hands requests
on in order, and allocations succeed.

A client whose transfer has ended keeps the pointer to its stream.  What is written through it
later can land in the file of any other client.

The main thread looks at nothing but the end of the transfer.  A client that sends once
more after it can be deallocated while a request for it is on its way.  `Quiet` says that
there is none when its slot is cleared, and then no request is ever left without a client.
-/

namespace Trtp.Threads

open Lib

inductive RxPc where
  | idle
  /-- `ht_get` returned NULL. -/
  | unknown (address : Address)
  /-- The client has been initialized and the lock released. -/
  | creating (address : Address) (client : ℕ)
  /-- A request that has not been enqueued. -/
  | holding (req : HdReq ℕ)

inductive HdPc where
  | idle
  | popped (req : HdReq ℕ)
  /-- The client has been unlocked and `sendmmsg` has not returned. -/
  | sending (req : HdReq ℕ)

/-- Where the main thread is: in `ht_remove` of a client, or before its deallocation if the
phase is `done`, with the rest of `client_to_remove`. -/
inductive MainPc where
  | idle
  | reaping (phase : Ht.Phase ℕ) (client : ℕ) (rest : List ℕ)

def MainPc.next : List ℕ → MainPc
  | [] => .idle
  | client :: rest => .reaping .start client rest

/-- `rxToHd` are the requests of the stream.  `freed` are the clients deallocated so far; it
is not in the code. -/
structure State (ρ η : Type) where
  table : Ht ℕ
  clients : ℕ → Client
  nextClient : ℕ
  idx : UInt32
  rx : ρ → RxPc
  rxToHd : List (HdReq ℕ)
  hd : η → HdPc
  scratch : η → Packet
  main : MainPc
  freed : List ℕ

inductive Thread (ρ η : Type) where
  | rx (r : ρ)
  | hd (h : η)
  | main

def newRequest (client : ℕ) : HdReq ℕ :=
  { stop := false, client := client, datagrams := [], num_le := Nat.zero_le _ }

variable {ρ η : Type} [DecidableEq ρ] [DecidableEq η]

def State.rxGoto (s : State ρ η) (r : ρ) (pc : RxPc) : State ρ η :=
  { s with rx := Function.update s.rx r pc }

def State.hdGoto (s : State ρ η) (h : η) (pc : HdPc) : State ρ η :=
  { s with hd := Function.update s.hd h pc }

inductive RxStep (maxClients : ℕ) (s : State ρ η) (r : ρ) : State ρ η → Prop
  | found {address : Address} {client : ℕ} (h : s.rx r = .idle)
      (hget : s.table.get address = some (some client)) :
    RxStep maxClients s r (s.rxGoto r (.holding (newRequest client)))
  | unknown {address : Address} (h : s.rx r = .idle) (hget : s.table.get address = some none) :
    RxStep maxClients s r (s.rxGoto r (.unknown address))
  | refuse {address : Address} (h : s.rx r = .unknown address)
      (hfull : s.table.length ≥ maxClients) : RxStep maxClients s r (s.rxGoto r .idle)
  | create {address : Address} (h : s.rx r = .unknown address)
      (hroom : s.table.length < maxClients) :
    RxStep maxClients s r
      { s.rxGoto r (.creating address s.nextClient) with
        clients := Function.update s.clients s.nextClient (initializeClient s.idx address)
        nextClient := s.nextClient + 1
        idx := s.idx + 1 }
  | put {address : Address} {client : ℕ} {old : Option ℕ} {freed : List ℕ} {table : Ht ℕ}
      (h : s.rx r = .creating address client)
      (hput : s.table.put address (some client) = some (old, freed, table)) :
    RxStep maxClients s r
      { s.rxGoto r (.holding (newRequest client)) with
        table := table
        freed := s.freed ++ freed }
  | copy {req req' : HdReq ℕ} (d : Datagram) (h : s.rx r = .holding req)
      (hpush : req.push d = some req') : RxStep maxClients s r (s.rxGoto r (.holding req'))
  | enqueue {req : HdReq ℕ} (h : s.rx r = .holding req) :
    RxStep maxClients s r { s.rxGoto r .idle with rxToHd := s.rxToHd ++ [req] }

section

variable (crc : Crc) (cfg : HdCfg)

inductive HdStep (s : State ρ η) (h : η) : State ρ η → Prop
  | pop {req : HdReq ℕ} {rest : List (HdReq ℕ)} (hpc : s.hd h = .idle)
      (hqueue : s.rxToHd = req :: rest) :
    HdStep s h { s.hdGoto h (.popped req) with rxToHd := rest }
  | serve {req : HdReq ℕ} (env : HdEnv ℕ) (hpc : s.hd h = .popped req) :
    HdStep s h
      { s.hdGoto h (.sending req) with
        clients := writeBack env.reuses s.clients req.client (handleRequest crc cfg env.toEnv
          (s.clients req.client) (s.scratch h) req.datagrams).client
        scratch := Function.update s.scratch h (handleRequest crc cfg env.toEnv
          (s.clients req.client) (s.scratch h) req.datagrams).decoded }
  | recycle {req : HdReq ℕ} (hpc : s.hd h = .sending req) : HdStep s h (s.hdGoto h .idle)

end

inductive MainStep (s : State ρ η) : State ρ η → Prop
  | scan (now : ℕ) (h : s.main = .idle) :
    MainStep s
      { s with main := .next (clientToRemove expiredThreaded s.table s.clients now) }
  | clear {client : ℕ} {rest freed : List ℕ} {del : Option ℕ} {table : Ht ℕ}
      (h : s.main = .reaping .start client rest)
      (hput : s.table.put (s.clients client).address none = some (del, freed, table)) :
    MainStep s
      { s with
        table := table
        main := .reaping (if del.isNone then .done else .cleared) client rest
        freed := s.freed ++ freed }
  | install {client : ℕ} {rest : List ℕ} (h : s.main = .reaping .cleared client rest) :
    MainStep s
      { s with
        table := .fresh s.table.size
        main := .reaping (.moving s.table.items s.table.size 0) client rest }
  | move {oldValues : ℕ → Item ℕ} {oldSize i client : ℕ} {rest : List ℕ} {table : Ht ℕ}
      (h : s.main = .reaping (.moving oldValues oldSize i) client rest) (hi : i < oldSize)
      (hmove : Ht.rehash oldValues s.table i = some table) :
    MainStep s
      { s with
        table := table
        main := .reaping (.moving oldValues oldSize (i + 1)) client rest }
  | moved {oldValues : ℕ → Item ℕ} {oldSize i client : ℕ} {rest : List ℕ}
      (h : s.main = .reaping (.moving oldValues oldSize i) client rest) (hi : ¬ i < oldSize) :
    MainStep s
      { s with
        main := .reaping .done client rest
        freed := s.freed ++ Ht.deallocItems oldSize (Ht.leftOver oldValues) }
  | deallocate {client : ℕ} {rest : List ℕ} (h : s.main = .reaping .done client rest) :
    MainStep s
      { s with
        clients := Function.update s.clients client (deallocateClient (s.clients client))
        main := .next rest
        freed := s.freed ++ [client] }

inductive Step (crc : Crc) (cfg : HdCfg) (maxClients : ℕ) (s : State ρ η) :
    Thread ρ η → State ρ η → Prop
  | rx {r : ρ} {s' : State ρ η} (h : RxStep maxClients s r s') :
    Step crc cfg maxClients s (.rx r) s'
  | hd {h : η} {s' : State ρ η} (hs : HdStep crc cfg s h s') :
    Step crc cfg maxClients s (.hd h) s'
  | main {s' : State ρ η} (h : MainStep s s') : Step crc cfg maxClients s .main s'

structure Initial (s : State ρ η) : Prop where
  table : s.table = allocateHt
  rx : ∀ r, s.rx r = .idle
  rxToHd : s.rxToHd = []
  hd : ∀ h, s.hd h = .idle
  main : s.main = .idle
  freed : s.freed = []

/-! ## The requests of a client -/

def RxPc.client : RxPc → Option ℕ
  | .creating _ client => some client
  | .holding req => some req.client
  | _ => none

def HdPc.client : HdPc → Option ℕ
  | .popped req => some req.client
  | .sending req => some req.client
  | .idle => none

/-- A request of the client is held by a receiver, queued or being processed by a handler. -/
def State.Refers (s : State ρ η) (client : ℕ) : Prop :=
  (∃ r, (s.rx r).client = some client) ∨ (∃ req ∈ s.rxToHd, req.client = client) ∨
    ∃ h, (s.hd h).client = some client

/-- The client whose slot the main thread is about to clear has no request. -/
def Quiet (s : State ρ η) (t : Thread ρ η) : Prop :=
  ∀ client rest, t = .main → s.main = .reaping .start client rest → ¬ s.Refers client

/-- The array that `ht_resize` is moving to the table. -/
def MainPc.oldValues : MainPc → ℕ → Item ℕ
  | .reaping (.moving oldValues _ _) _ _ => oldValues
  | _ => fun _ => .zero

/-- The client that has been taken out of the table and not been deallocated. -/
def MainPc.removed : MainPc → Option ℕ
  | .reaping .cleared client _ => some client
  | .reaping (.moving _ _ _) client _ => some client
  | .reaping .done client _ => some client
  | _ => none

def MainPc.listed : MainPc → List ℕ
  | .idle => []
  | .reaping _ client rest => client :: rest

/-- The entries of the table, also those that have still to be moved to it. -/
structure Stored (P : Address → ℕ → Prop) (s : State ρ η) : Prop where
  table : s.table.Each P
  old : ∀ i c, (s.main.oldValues i).used = true → (s.main.oldValues i).value = some c →
    P (s.main.oldValues i).key c

/-- Every client that a thread can come to work with satisfies `P`. -/
structure Everywhere (P : ℕ → Prop) (s : State ρ η) : Prop extends Stored (fun _ c => P c) s where
  rx : ∀ r c, (s.rx r).client = some c → P c
  queue : ∀ req ∈ s.rxToHd, P req.client
  hd : ∀ h c, (s.hd h).client = some c → P c

variable {P : ℕ → Prop} {s s' : State ρ η} {r : ρ} {h : η} {t : Thread ρ η} {maxClients : ℕ}
  {crc : Crc} {cfg : HdCfg}

omit [DecidableEq ρ] [DecidableEq η] in
theorem Everywhere.refers (hs : Everywhere P s) {c : ℕ} (hc : s.Refers c) : P c := by
  rcases hc with ⟨r, hr⟩ | ⟨req, hreq, rfl⟩ | ⟨h, hh⟩
  · exact hs.rx r c hr
  · exact hs.queue req hreq
  · exact hs.hd h c hh

omit [DecidableEq ρ] [DecidableEq η] in
theorem Everywhere.mono {Q : ℕ → Prop} (hs : Everywhere P s) (hPQ : ∀ c, P c → Q c) :
    Everywhere Q s :=
  ⟨⟨hs.table.mono fun _ c hc => hPQ c hc, fun i c hused hvalue => hPQ c (hs.old i c hused hvalue)⟩,
    fun r c hr => hPQ c (hs.rx r c hr), fun req hreq => hPQ _ (hs.queue req hreq),
    fun h c hh => hPQ c (hs.hd h c hh)⟩

omit [DecidableEq ρ] [DecidableEq η] in
theorem Stored.mono {P Q : Address → ℕ → Prop} (hs : Stored P s) (hPQ : ∀ k c, P k c → Q k c) :
    Stored Q s :=
  ⟨hs.table.mono hPQ, fun i c hused hvalue => hPQ _ c (hs.old i c hused hvalue)⟩

/-! ## Receivers -/

omit [DecidableEq η] in
theorem Everywhere.update_rx (hs : Everywhere P s) {pc : RxPc}
    (hpc : ∀ c, pc.client = some c → P c) :
    ∀ r' c, RxPc.client (Function.update s.rx r pc r') = some c → P c :=
  (Function.forall_update_iff s.rx fun _ pc => ∀ c, RxPc.client pc = some c → P c).mpr
    ⟨hpc, fun r' _ => hs.rx r'⟩

omit [DecidableEq η] in
theorem Everywhere.rxStep (hs : Everywhere P s)
    (hnew : s.nextClient < s'.nextClient → P s.nextClient)
    (hstep : RxStep maxClients s r s') : Everywhere P s' := by
  cases hstep with
  | found _ hget =>
    refine { hs with rx := hs.update_rx fun c hc => ?_ }
    cases hc
    exact hs.table.get hget
  | unknown => exact { hs with rx := hs.update_rx fun c hc => by cases hc }
  | refuse => exact { hs with rx := hs.update_rx fun c hc => by cases hc }
  | create =>
    refine { hs with rx := hs.update_rx fun c hc => ?_ }
    cases hc
    exact hnew (Nat.lt_succ_self _)
  | put hpc hput =>
    have hclient := hs.rx r _ (by rw [hpc]; rfl)
    refine { hs with
      table := hs.table.put (fun c hc => ?_) hput
      rx := hs.update_rx fun c hc => ?_ }
    · cases hc
      exact hclient
    · cases hc
      exact hclient
  | copy d hpc hpush =>
    refine { hs with rx := hs.update_rx fun c hc => hs.rx r c ?_ }
    rw [hpc, ← hc]
    exact congrArg some (HdReq.push_spec hpush).2.1.symm
  | enqueue hpc =>
    refine { hs with
      rx := hs.update_rx fun c hc => by cases hc
      queue := fun req hreq => ?_ }
    rcases List.mem_append.mp hreq with hold | hlast
    · exact hs.queue req hold
    · rw [List.mem_singleton.mp hlast]
      exact hs.rx r _ (by rw [hpc]; rfl)

omit [DecidableEq η] in
theorem RxStep.table (hstep : RxStep maxClients s r s') : s'.main = s.main ∧
    (s'.table = s.table ∧ s'.freed = s.freed ∨
      ∃ address client old freed, s.rx r = .creating address client ∧
        s.table.put address (some client) = some (old, freed, s'.table) ∧
        s'.freed = s.freed ++ freed) := by
  cases hstep with
  | put hpc hput => exact ⟨rfl, .inr ⟨_, _, _, _, hpc, hput, rfl⟩⟩
  | found => exact ⟨rfl, .inl ⟨rfl, rfl⟩⟩
  | unknown => exact ⟨rfl, .inl ⟨rfl, rfl⟩⟩
  | refuse => exact ⟨rfl, .inl ⟨rfl, rfl⟩⟩
  | create => exact ⟨rfl, .inl ⟨rfl, rfl⟩⟩
  | copy => exact ⟨rfl, .inl ⟨rfl, rfl⟩⟩
  | enqueue => exact ⟨rfl, .inl ⟨rfl, rfl⟩⟩

/-! ## Handlers -/

omit [DecidableEq ρ] in
theorem Everywhere.update_hd (hs : Everywhere P s) {pc : HdPc}
    (hpc : ∀ c, pc.client = some c → P c) :
    ∀ h' c, HdPc.client (Function.update s.hd h pc h') = some c → P c :=
  (Function.forall_update_iff s.hd fun _ pc => ∀ c, HdPc.client pc = some c → P c).mpr
    ⟨hpc, fun h' _ => hs.hd h'⟩

omit [DecidableEq ρ] in
theorem Everywhere.hdStep (hs : Everywhere P s) (hstep : HdStep crc cfg s h s') :
    Everywhere P s' := by
  cases hstep with
  | pop hpc hqueue =>
    refine { hs with
      hd := hs.update_hd fun c hc => ?_
      queue := fun req hreq => hs.queue req ?_ }
    · rw [hqueue]
      exact List.mem_cons_of_mem _ hreq
    · cases hc
      exact hs.queue _ (by rw [hqueue]; exact List.mem_cons_self)
  | serve env hpc =>
    refine { hs with hd := hs.update_hd fun c hc => ?_ }
    cases hc
    exact hs.hd h _ (by rw [hpc]; rfl)
  | recycle => exact { hs with hd := hs.update_hd fun c hc => by cases hc }

/-! ## The main thread -/

@[simp] theorem oldValues_next (l : List ℕ) : (MainPc.next l).oldValues = fun _ => .zero := by
  cases l <;> rfl

@[simp] theorem listed_next (l : List ℕ) : (MainPc.next l).listed = l := by
  cases l <;> rfl

@[simp] theorem removed_next (l : List ℕ) : (MainPc.next l).removed = none := by
  cases l <;> rfl

omit [DecidableEq ρ] [DecidableEq η] in
theorem stored_of_zero {P : Address → ℕ → Prop} (htable : s.table.Each P)
    (hold : s.main.oldValues = fun _ => .zero) : Stored P s := by
  refine ⟨htable, fun i c hused => ?_⟩
  rw [hold] at hused
  cases hused

omit [DecidableEq ρ] [DecidableEq η] in
/-- The main thread adds no entry to the table and to the array that it moves there. -/
theorem Stored.mainStep {P : Address → ℕ → Prop} (hs : Stored P s) (hstep : MainStep s s') :
    Stored P s' := by
  cases hstep with
  | scan => exact stored_of_zero hs.table (oldValues_next _)
  | @clear _ _ _ del _ hpc hput =>
    refine stored_of_zero (hs.table.put (fun c hc => by cases hc) hput) ?_
    cases del <;> rfl
  | install =>
    refine ⟨Ht.each_fresh _, fun i c hused hvalue => ?_⟩
    exact hs.table i _ c (Ht.slots_eq_some.mpr ⟨hused, rfl⟩) hvalue
  | @move oldValues _ i _ _ _ hpc hi hmove =>
    have hold := hs.old
    rw [hpc] at hold
    exact ⟨hs.table.rehash (fun hused c hvalue => hold i c hused hvalue) hmove, hold⟩
  | moved => exact stored_of_zero hs.table rfl
  | deallocate => exact stored_of_zero hs.table (oldValues_next _)

omit [DecidableEq ρ] [DecidableEq η] in
/-- Until the deallocation, the main thread takes the steps of `ht_remove`. -/
theorem MainStep.advance (hstep : MainStep s s') {phase : Ht.Phase ℕ} {client : ℕ}
    {rest : List ℕ} (hpc : s.main = .reaping phase client rest) (hphase : phase ≠ .done) :
    ∃ phase', s'.main = .reaping phase' client rest ∧
      Ht.Removal.advance ⟨s.table, phase⟩ (s.clients client).address = some ⟨s'.table, phase'⟩ := by
  cases hstep with
  | scan now h =>
    rw [hpc] at h
    cases h
  | clear h hput =>
    rw [hpc] at h
    cases h
    refine ⟨_, rfl, ?_⟩
    rw [Ht.Removal.advance, hput]
    rfl
  | install h =>
    rw [hpc] at h
    cases h
    exact ⟨_, rfl, rfl⟩
  | move h hi hmove =>
    rw [hpc] at h
    cases h
    refine ⟨_, rfl, ?_⟩
    simp [Ht.Removal.advance, hi, hmove]
  | moved h hi =>
    rw [hpc] at h
    cases h
    refine ⟨_, rfl, ?_⟩
    simp [Ht.Removal.advance, hi]
  | deallocate h =>
    rw [hpc] at h
    cases h
    exact absurd rfl hphase

omit [DecidableEq ρ] [DecidableEq η] in
theorem Everywhere.mainStep (hs : Everywhere P s) (hstep : MainStep s s') : Everywhere P s' := by
  have hstored := hs.toStored.mainStep hstep
  cases hstep <;> exact ⟨hstored, hs.rx, hs.queue, hs.hd⟩

theorem Everywhere.step (hs : Everywhere P s)
    (hnew : s.nextClient < s'.nextClient → P s.nextClient)
    (hstep : Step crc cfg maxClients s t s') : Everywhere P s' := by
  cases hstep with
  | rx h => exact hs.rxStep hnew h
  | hd h => exact hs.hdStep h
  | main h => exact hs.mainStep h

/-! ## The invariant -/

/-- The client has been taken out of the table for good. -/
def State.Out (s : State ρ η) (client : ℕ) : Prop := client ∈ s.freed ∨ s.main.removed = some client

/-- What holds in every run, whatever the main thread reaps. -/
structure Base (s : State ρ η) : Prop where
  size_pos : 0 < s.table.size
  tidy : Ht.Tidy s.table.items
  tidyOld : Ht.Tidy s.main.oldValues
  -- between the clearing of a slot and the rebuild a key may be hidden
  probing : (∀ client rest, s.main ≠ .reaping .cleared client rest) → s.table.Probing
  named : Stored (fun address c => (s.clients c).address = address) s
  creating : ∀ r address c, s.rx r = .creating address c → (s.clients c).address = address
  known : Everywhere (· < s.nextClient) s
  listed : ∀ c ∈ s.main.listed, c < s.nextClient

structure Inv (s : State ρ η) : Prop extends Base s where
  out_lt : ∀ c, s.Out c → c < s.nextClient
  gone : ∀ c, s.Out c → Everywhere (· ≠ c) s

omit [DecidableEq ρ] [DecidableEq η] in
theorem Initial.base (hs : Initial s) : Base s := by
  have hold : s.main.oldValues = fun _ => .zero := by rw [hs.main]; rfl
  have hstored : ∀ P, Stored P s := fun P =>
    stored_of_zero (by rw [hs.table]; exact Ht.each_fresh _) hold
  refine ⟨?_, ?_, ?_, fun _ => ?_, hstored _, ?_, ?_, ?_⟩
  · rw [hs.table]
    decide
  · rw [hs.table]
    exact Ht.tidy_fresh _
  · rw [hold]
    exact fun _ => rfl
  · rw [hs.table]
    exact Ht.probing_fresh (Nat.succ_pos 15)
  · intro r address c hr
    rw [hs.rx r] at hr
    cases hr
  · refine ⟨hstored _, ?_, ?_, ?_⟩
    · intro r c hr
      rw [hs.rx r] at hr
      cases hr
    · rw [hs.rxToHd]
      exact fun req hreq => absurd hreq List.not_mem_nil
    · intro h c hh
      rw [hs.hd h] at hh
      cases hh
  · rw [hs.main]
    exact fun c hc => absurd hc List.not_mem_nil

omit [DecidableEq ρ] [DecidableEq η] in
theorem Initial.not_out (hs : Initial s) (c : ℕ) : ¬ s.Out c := by
  intro hc
  rw [State.Out, hs.freed, hs.main] at hc
  rcases hc with hc | hc
  · exact absurd hc List.not_mem_nil
  · cases hc

omit [DecidableEq ρ] [DecidableEq η] in
theorem Initial.inv (hs : Initial s) : Inv s :=
  { hs.base with
    out_lt := fun c hc => absurd hc (hs.not_out c)
    gone := fun c hc => absurd hc (hs.not_out c) }

theorem Step.nextClient_le (hstep : Step crc cfg maxClients s t s') :
    s.nextClient ≤ s'.nextClient := by
  cases hstep with
  | rx h => cases h <;> first | exact Nat.le_refl _ | exact Nat.le_succ _
  | hd h => cases h <;> exact Nat.le_refl _
  | main h => cases h <;> exact Nat.le_refl _

/-- What a step makes of the client `c`: nothing else, what a handler that serves a request for
it makes of it, late bytes of another client in its file, or what the main thread leaves of it. -/
inductive ClientStep (crc : Crc) (cfg : HdCfg) (s : State ρ η) (c : ℕ) : Client → Prop
  | same : ClientStep crc cfg s c (s.clients c)
  | served (env : Env) (decoded : Packet) (datagrams : List Datagram) :
    ClientStep crc cfg s c (handleRequest crc cfg env (s.clients c) decoded datagrams).client
  | late (outFile : File) (hcloses : outFile.closes = (s.clients c).outFile.closes) :
    ClientStep crc cfg s c { s.clients c with outFile := outFile }
  | deallocated (hlisted : c ∈ s.main.listed) :
    ClientStep crc cfg s c (deallocateClient (s.clients c))

theorem Step.client (hstep : Step crc cfg maxClients s t s') {c : ℕ} (hc : c < s.nextClient) :
    ClientStep crc cfg s c (s'.clients c) := by
  cases hstep with
  | rx h =>
    cases h with
    | create =>
      show ClientStep crc cfg s c (Function.update s.clients s.nextClient _ c)
      rw [Function.update_of_ne (Nat.ne_of_lt hc)]
      exact .same
    | _ => exact .same
  | hd h =>
    cases h with
    | @serve req env hpc =>
      by_cases hclient : c = req.client
      · subst hclient
        show ClientStep crc cfg s _ (writeBack env.reuses s.clients req.client _ req.client)
        rw [writeBack_self]
        exact .served _ _ _
      · obtain ⟨outFile, hcloses, heq⟩ := writeBack_of_ne env.reuses s.clients req.client
          (handleRequest crc cfg env.toEnv (s.clients req.client) _ req.datagrams).client hclient
        show ClientStep crc cfg s c (writeBack env.reuses s.clients req.client _ c)
        rw [heq]
        exact .late outFile hcloses
    | _ => exact .same
  | main h =>
    cases h with
    | @deallocate client rest hpc =>
      by_cases hclient : c = client
      · subst hclient
        show ClientStep crc cfg s c (Function.update s.clients c _ c)
        rw [Function.update_self]
        exact .deallocated (by rw [hpc]; exact List.mem_cons_self)
      · show ClientStep crc cfg s c (Function.update s.clients client _ c)
        rw [Function.update_of_ne hclient]
        exact .same
    | _ => exact .same

theorem Step.address (hstep : Step crc cfg maxClients s t s') {c : ℕ} (hc : c < s.nextClient) :
    (s'.clients c).address = (s.clients c).address := by
  have hclient := hstep.client hc
  generalize s'.clients c = client at hclient ⊢
  cases hclient with
  | same => rfl
  | served => exact handleRequest_address _ _ _ _
  | late => rfl
  | deallocated => exact deallocateClient_address _

theorem Stored.step {P : Address → ℕ → Prop} (hs : Stored P s)
    (hcreating : ∀ r address c, t = .rx r → s.rx r = .creating address c → P address c)
    (hstep : Step crc cfg maxClients s t s') : Stored P s' := by
  cases hstep with
  | @rx r _ h =>
    obtain ⟨hmain, ⟨htable, -⟩ | ⟨address, client, old, freed, hpc, hput, -⟩⟩ := h.table
    · exact ⟨by rw [htable]; exact hs.table, by rw [hmain]; exact hs.old⟩
    · refine ⟨hs.table.put (fun c hc => ?_) hput, by rw [hmain]; exact hs.old⟩
      cases hc
      exact hcreating r address _ rfl hpc
  | hd h => cases h <;> exact ⟨hs.table, hs.old⟩
  | main h => exact hs.mainStep h

theorem Base.creating_step (hs : Base s) (hstep : Step crc cfg maxClients s t s') {r : ρ}
    {address : Address} {c : ℕ} (hr : s'.rx r = .creating address c) :
    (s'.clients c).address = address := by
  have hold : s.rx r = .creating address c → (s'.clients c).address = address := by
    intro h
    rw [hstep.address (hs.known.rx r c (by rw [h]; rfl))]
    exact hs.creating r address c h
  cases hstep with
  | @rx r' _ h =>
    by_cases hrr : r = r'
    · subst hrr
      cases h with
      | create =>
        simp only [State.rxGoto, Function.update_self, RxPc.creating.injEq] at hr
        obtain ⟨rfl, rfl⟩ := hr
        show (Function.update s.clients s.nextClient _ s.nextClient).address = _
        rw [Function.update_self]
        rfl
      | found => simp [State.rxGoto] at hr
      | unknown => simp [State.rxGoto] at hr
      | refuse => simp [State.rxGoto] at hr
      | put => simp [State.rxGoto] at hr
      | copy => simp [State.rxGoto] at hr
      | enqueue => simp [State.rxGoto] at hr
    · refine hold ?_
      cases h <;> simpa [State.rxGoto, Function.update_of_ne hrr] using hr
  | hd h => cases h <;> exact hold hr
  | main h => cases h <;> exact hold hr

omit [DecidableEq ρ] [DecidableEq η] in
theorem Base.probing_of_main (hs : Base s) {pc : MainPc} (hpc : s.main = pc)
    (hne : ∀ client rest, pc ≠ .reaping .cleared client rest) : s.table.Probing := by
  refine hs.probing ?_
  rw [hpc]
  exact hne

omit [DecidableEq ρ] [DecidableEq η] in
theorem Base.tidy_moving (hs : Base s) {oldValues : ℕ → Item ℕ} {oldSize i client : ℕ}
    {rest : List ℕ} (hpc : s.main = .reaping (.moving oldValues oldSize i) client rest) :
    Ht.Tidy oldValues := by
  have htidy := hs.tidyOld
  rwa [hpc] at htidy

omit [DecidableEq ρ] [DecidableEq η] in
theorem Base.clear (hs : Base s) {client : ℕ} {rest freed : List ℕ} {del : Option ℕ} {table : Ht ℕ}
    (hpc : s.main = .reaping .start client rest)
    (hput : s.table.put (s.clients client).address none = some (del, freed, table)) :
    table.Each fun _ c => c ≠ client := by
  have hprobing : s.table.Probing := hs.probing fun c rest' h => by
    rw [hpc] at h
    cases h
  have hnamed : table.Each fun address c => (s.clients c).address = address :=
    hs.named.table.put (fun c hc => by cases hc) hput
  intro i key c hslot hvalue hc
  subst hc
  rw [← hnamed i key c hslot hvalue] at hslot
  exact hprobing.put_null hs.tidy hput i hslot

theorem Base.out_step (hs : Base s) (hstep : Step crc cfg maxClients s t s') {c : ℕ}
    (hc : s'.Out c) :
    s.Out c ∨ t = .main ∧ ∃ rest, s.main = .reaping .start c rest := by
  cases hstep with
  | rx h =>
    left
    obtain ⟨hmain, ⟨-, hfreed⟩ | ⟨address, client, old, freed, -, hput, hfreed⟩⟩ := h.table
    · rwa [State.Out, hmain, hfreed] at hc
    · rwa [State.Out, hmain, hfreed, (hs.tidy.put hput).2, List.append_nil] at hc
  | hd h => left; cases h <;> exact hc
  | main h =>
    cases h with
    | scan now hpc =>
      left
      rw [State.Out, removed_next] at hc
      exact .inl (hc.resolve_right fun h => by cases h)
    | @clear client rest freed del table hpc hput =>
      rw [State.Out, (hs.tidy.put hput).2, List.append_nil] at hc
      rcases hc with hc | hc
      · exact .inl (.inl hc)
      · right
        have hclient : client = c := by cases del <;> exact Option.some.inj hc
        exact ⟨rfl, rest, hclient ▸ hpc⟩
    | install hpc =>
      left
      rw [State.Out, hpc]
      exact hc
    | move hpc =>
      left
      rw [State.Out, hpc]
      exact hc
    | @moved oldValues _ _ _ _ hpc =>
      left
      rw [State.Out, (hs.tidy_moving hpc).deallocItems, List.append_nil] at hc
      rw [State.Out, hpc]
      exact hc
    | deallocate hpc =>
      left
      rw [State.Out, removed_next] at hc
      rw [State.Out, hpc]
      rcases List.mem_append.mp (hc.resolve_right fun h => by cases h) with hc | hc
      · exact .inl hc
      · exact .inr (congrArg some (List.mem_singleton.mp hc).symm)

theorem Base.table_step (hs : Base s) (hstep : Step crc cfg maxClients s t s') :
    0 < s'.table.size ∧ Ht.Tidy s'.table.items ∧ Ht.Tidy s'.main.oldValues ∧
      ((∀ client rest, s'.main ≠ .reaping .cleared client rest) → s'.table.Probing) := by
  cases hstep with
  | rx h =>
    obtain ⟨hmain, ⟨htable, -⟩ | ⟨address, client, old, freed, -, hput, -⟩⟩ := h.table
    · rw [hmain, htable]
      exact ⟨hs.size_pos, hs.tidy, hs.tidyOld, hs.probing⟩
    · rw [hmain]
      exact ⟨Ht.put_size_pos hs.size_pos hput, (hs.tidy.put hput).1, hs.tidyOld,
        fun h => (hs.probing h).put hs.tidy hput⟩
  | hd h => cases h <;> exact ⟨hs.size_pos, hs.tidy, hs.tidyOld, hs.probing⟩
  | main h =>
    cases h with
    | scan now hpc =>
      refine ⟨hs.size_pos, hs.tidy, ?_, fun _ => hs.probing_of_main hpc (by simp)⟩
      rw [oldValues_next]
      exact fun _ => rfl
    | @clear client rest freed del table hpc hput =>
      refine ⟨Ht.put_size_pos hs.size_pos hput, (hs.tidy.put hput).1, ?_, ?_⟩
      · cases del <;> exact fun _ => rfl
      · intro hdone
        cases del with
        | some d => exact absurd rfl (hdone client rest)
        | none => exact (hs.probing_of_main hpc (by simp)).put_absent hs.tidy hput
    | install hpc =>
      exact ⟨hs.size_pos, Ht.tidy_fresh _, hs.tidy, fun _ => Ht.probing_fresh hs.size_pos⟩
    | @move oldValues oldSize i client rest table hpc hi hmove =>
      have htidy : Ht.Tidy oldValues := hs.tidy_moving hpc
      have hprobing : s.table.Probing := hs.probing_of_main hpc (by simp)
      exact ⟨(hprobing.rehash htidy hmove).size_pos, hs.tidy.rehash hmove, htidy,
        fun _ => hprobing.rehash htidy hmove⟩
    | moved hpc =>
      exact ⟨hs.size_pos, hs.tidy, fun _ => rfl, fun _ => hs.probing_of_main hpc (by simp)⟩
    | deallocate hpc =>
      refine ⟨hs.size_pos, hs.tidy, ?_, fun _ => hs.probing_of_main hpc (by simp)⟩
      rw [oldValues_next]
      exact fun _ => rfl

theorem Base.listed_step (hs : Base s) (hstep : Step crc cfg maxClients s t s') :
    ∀ c ∈ s'.main.listed, c < s'.nextClient := by
  intro c hc
  refine lt_of_lt_of_le ?_ hstep.nextClient_le
  cases hstep with
  | rx h =>
    rw [h.table.1] at hc
    exact hs.listed c hc
  | hd h => cases h <;> exact hs.listed c hc
  | main h =>
    cases h with
    | scan now hpc =>
      rw [listed_next] at hc
      obtain ⟨i, hused, hvalue⟩ := mem_clientToRemove hc
      exact hs.known.table i _ c (Ht.slots_eq_some.mpr ⟨hused, rfl⟩) hvalue
    | clear hpc => exact hs.listed c (by rw [hpc]; exact hc)
    | install hpc => exact hs.listed c (by rw [hpc]; exact hc)
    | move hpc => exact hs.listed c (by rw [hpc]; exact hc)
    | moved hpc => exact hs.listed c (by rw [hpc]; exact hc)
    | deallocate hpc =>
      rw [listed_next] at hc
      exact hs.listed c (by rw [hpc]; exact List.mem_cons_of_mem _ hc)

theorem Inv.gone_step (hs : Inv s) (hquiet : Quiet s t) (hstep : Step crc cfg maxClients s t s')
    {c : ℕ} (hc : s'.Out c) : c < s.nextClient ∧ Everywhere (· ≠ c) s' := by
  rcases hs.out_step hstep hc with hout | ⟨rfl, rest, hpc⟩
  · have hlt := hs.out_lt c hout
    exact ⟨hlt, (hs.gone c hout).step (fun _ => Nat.ne_of_gt hlt) hstep⟩
  · have hlt : c < s.nextClient := hs.listed c (by rw [hpc]; exact List.mem_cons_self)
    have hnone : ¬ s.Refers c := hquiet c rest rfl hpc
    refine ⟨hlt, ?_⟩
    cases hstep with
    | main h =>
      cases h with
      | @clear client rest' freed del table hpc' hput =>
        rw [hpc] at hpc'
        cases hpc'
        refine ⟨stored_of_zero (hs.clear hpc hput) (by cases del <;> rfl), ?_, ?_, ?_⟩
        · rintro r c' hr rfl
          exact hnone (.inl ⟨r, hr⟩)
        · rintro req hreq rfl
          exact hnone (.inr (.inl ⟨req, hreq, rfl⟩))
        · rintro h c' hh rfl
          exact hnone (.inr (.inr ⟨h, hh⟩))
      | scan now h => rw [hpc] at h; cases h
      | install h => rw [hpc] at h; cases h
      | move h => rw [hpc] at h; cases h
      | moved h => rw [hpc] at h; cases h
      | deallocate h => rw [hpc] at h; cases h

theorem Base.step (hs : Base s) (hstep : Step crc cfg maxClients s t s') : Base s' := by
  obtain ⟨hsize, htidy, hold, hprobing⟩ := hs.table_step hstep
  have hknown : Everywhere (· < s'.nextClient) s' :=
    (hs.known.mono fun c hc => lt_of_lt_of_le hc hstep.nextClient_le).step id hstep
  refine
    { size_pos := hsize, tidy := htidy, tidyOld := hold, probing := hprobing, named := ?_
      creating := fun r address c => hs.creating_step hstep, known := hknown
      listed := hs.listed_step hstep }
  -- the entries are those of `s` and of a client being created, all of them clients of `s`
  have hboth : Stored (fun address c => (s.clients c).address = address ∧ c < s.nextClient) s :=
    ⟨fun i k c hslot hvalue => ⟨hs.named.table i k c hslot hvalue,
        hs.known.table i k c hslot hvalue⟩,
      fun i c hused hvalue => ⟨hs.named.old i c hused hvalue, hs.known.old i c hused hvalue⟩⟩
  have hstored := hboth.step (fun r address c _ hr =>
    ⟨hs.creating r address c hr, hs.known.rx r c (by rw [hr]; rfl)⟩) hstep
  refine hstored.mono fun address c hc => ?_
  rw [hstep.address hc.2]
  exact hc.1

theorem Inv.step (hs : Inv s) (hquiet : Quiet s t) (hstep : Step crc cfg maxClients s t s') :
    Inv s' :=
  { hs.toBase.step hstep with
    out_lt := fun _ hc => lt_of_lt_of_le (hs.gone_step hquiet hstep hc).1 hstep.nextClient_le
    gone := fun _ hc => (hs.gone_step hquiet hstep hc).2 }

/-- While no slot is cleared of a client with a request, no request outlives its client:
what a receiver holds, what is queued and what a handler is working on belongs to clients
that have not been deallocated. -/
theorem no_request_outlives_client (crc : Crc) (cfg : HdCfg) (maxClients : ℕ) (s : State ρ η)
    (hs : ReachBy Initial (Step crc cfg maxClients) Quiet s) :
    ∀ client ∈ s.freed, ¬ s.Refers client := by
  have hinv : Inv s := by
    refine hs.invariant (fun _ h => h.inv) ?_
    intro s₁ t s₂ h hquiet hstep
    exact h.step hquiet hstep
  intro client hclient hrefers
  exact (hinv.gone client (.inl hclient)).refers hrefers rfl

/-! ## A client that is reaped -/

/-- One receiver, one handler and no client. -/
def started : State Unit Unit :=
  { table := allocateHt, clients := fun _ => initializeClient 0 localhost, nextClient := 0, idx := 0
    rx := fun _ => .idle, rxToHd := [], hd := fun _ => .idle, scratch := fun _ => initPacket
    main := .idle, freed := [] }

def endCall : Call := Call.sending [dataPacket 0 7 []] (by decide)

def endRequest : HdReq ℕ :=
  { stop := false, client := 0, datagrams := endCall.datagrams, num_le := endCall.num_le }

theorem push_endRequest :
    (newRequest 0).push ((dataPacket 0 7 []).datagram bitwiseCrc) = some endRequest := by
  rw [HdReq.push, dif_pos (by decide)]
  rfl

def registered : Ht ℕ := ((allocateHt.put localhost (some 0)).map fun r => r.2.2).getD allocateHt

def clearedTable : Ht ℕ := ((registered.put localhost none).map fun r => r.2.2).getD registered

/-- The client has ended, and the receiver is at `pc`. -/
def transferred (pc : RxPc) : State Unit Unit :=
  { started with
    table := registered
    clients := Function.update (Function.update started.clients 0 (initializeClient 0 localhost)) 0
      (endCall.outcome bitwiseCrc ⟨31⟩ (initializeClient 0 localhost)).client
    nextClient := 1
    idx := 1
    rx := fun _ => pc
    scratch := fun _ => (endCall.outcome bitwiseCrc ⟨31⟩ (initializeClient 0 localhost)).decoded }

variable {Q : State Unit Unit → Thread Unit Unit → Prop}

/-- The runs with room for one client, all steps of which meet `Q`. -/
abbrev Reached (Q : State Unit Unit → Thread Unit Unit → Prop) : State Unit Unit → Prop :=
  ReachBy Initial (Step bitwiseCrc ⟨31⟩ 1) Q

theorem transferred_reached (hrx : ∀ s, s.main = .idle → Q s (.rx ())) (hhd : ∀ s, Q s (.hd ())) :
    Reached Q (transferred .idle) := by
  have hstart : Reached Q started := .start ⟨rfl, fun _ => rfl, rfl, fun _ => rfl, rfl, rfl⟩
  have hunknown := ReachBy.step hstart (hrx _ rfl)
    (.rx (.unknown rfl (rfl : started.table.get localhost = some none)))
  have hcreated := ReachBy.step hunknown (hrx _ rfl)
    (.rx (.create (rfl : _ = RxPc.unknown localhost) (by decide)))
  have hput := ReachBy.step hcreated (hrx _ rfl)
    (.rx (.put (rfl : _ = RxPc.creating localhost 0)
      (rfl : allocateHt.put localhost (some 0) = some (none, [], registered))))
  have hcopied := ReachBy.step hput (hrx _ rfl)
    (.rx (.copy _ (rfl : _ = RxPc.holding (newRequest 0)) push_endRequest))
  have henqueued := ReachBy.step hcopied (hrx _ rfl) (.rx (.enqueue rfl))
  have hpopped := ReachBy.step henqueued (hhd _) (.hd (.pop (h := ()) rfl rfl))
  have hserved := ReachBy.step hpopped (hhd _) (.hd (.serve (h := ()) endCall.env.unshared rfl))
  have hdone := ReachBy.step hserved (hhd _) (.hd (.recycle (h := ()) rfl))
  convert hdone using 1
  have hclient : Function.update started.clients started.nextClient
      (initializeClient started.idx localhost) endRequest.client =
        initializeClient 0 localhost := rfl
  simp only [transferred, State.rxGoto, State.hdGoto, State.mk.injEq, hclient]
  exact ⟨rfl, (writeBack_unshared _ _ _).symm, rfl, rfl, rfl, rfl, rfl, rfl, trivial, rfl⟩

/-- The rebuild of a table without clients. -/
theorem moves_reached {s : State Unit Unit} {old : ℕ → Item ℕ} {n c : ℕ} {rest : List ℕ}
    (hold : ∀ i, (old i).used = false) (hQ : ∀ main, Q { s with main := main } .main)
    (h : Reached Q { s with main := .reaping (.moving old n 0) c rest }) :
    ∀ i ≤ n, Reached Q { s with main := .reaping (.moving old n i) c rest } := by
  intro i
  induction i with
  | zero => exact fun _ => h
  | succ i ih =>
    intro hi
    have hmove : Ht.rehash old s.table i = some s.table := by
      rw [Ht.rehash, hold]
      rfl
    exact .step (ih (Nat.le_of_succ_le hi)) (hQ _) (.main (.move rfl hi hmove))

theorem clearedTable_used (i : ℕ) : (clearedTable.items i).used = false := by
  have hitems : clearedTable.items = Function.update (Function.update (fun _ => Item.zero) 3
      { used := true, value := some 0, port := localhost.port, ip := localhost.ip }) 3
      { used := false, value := none, port := localhost.port, ip := localhost.ip } := rfl
  rw [hitems, Function.update_idem]
  by_cases hi : i = 3
  · rw [hi, Function.update_self]
  · rw [Function.update_of_ne hi]
    rfl

/-- A scan that finds the client 0 leads to its deallocation. -/
theorem reaped_reached {s : State Unit Unit} {now : ℕ}
    (hQ : ∀ table main, Q { s with table := table, main := main } .main)
    (htable : s.table = registered) (haddress : (s.clients 0).address = localhost)
    (hinactive : (s.clients 0).active = false) (hmain : s.main = .idle)
    (hlist : clientToRemove expiredThreaded s.table s.clients now = [0]) (h : Reached Q s) :
    Reached Q { s with table := .fresh 16, main := .idle, freed := s.freed ++ [0] } := by
  have hscan : Reached Q { s with main := .reaping .start 0 [] } := by
    have := ReachBy.step h (hQ s.table s.main) (.main (.scan now hmain))
    rwa [hlist] at this
  have hclear : Reached Q { s with table := clearedTable, main := .reaping .cleared 0 [] } := by
    have hput : s.table.put (s.clients 0).address none = some (some 0, [], clearedTable) := by
      rw [htable, haddress]
      rfl
    have := ReachBy.step hscan (hQ s.table _) (.main (.clear rfl hput))
    simpa using this
  have hinstall : Reached Q { s with
      table := .fresh 16, main := .reaping (.moving clearedTable.items 16 0) 0 [] } :=
    .step hclear (hQ _ _) (.main (.install rfl))
  have hmoved := moves_reached (s := { s with table := .fresh 16 }) clearedTable_used
    (fun main => hQ _ main) hinstall 16 (Nat.le_refl 16)
  have hdone : Reached Q { s with table := .fresh 16, main := .reaping .done 0 [] } := by
    have hnone : Ht.deallocItems 16 (Ht.leftOver clearedTable.items) = [] := by decide +kernel
    have := ReachBy.step hmoved (hQ _ _) (.main (.moved rfl (Nat.lt_irrefl 16)))
    simpa [hnone] using this
  have hlast := ReachBy.step hdone (hQ _ _) (.main (.deallocate rfl))
  have hsame : Function.update s.clients 0 (deallocateClient (s.clients 0)) = s.clients := by
    rw [deallocateClient_of_inactive hinactive, Function.update_eq_self]
  rwa [hsame] at hlast

theorem clientToRemove_transferred (pc : RxPc) :
    clientToRemove expiredThreaded (transferred pc).table (transferred pc).clients
      (30 * 10 ^ 9) = [0] := by
  have h : clientToRemove expiredThreaded (transferred .idle).table (transferred .idle).clients
      (30 * 10 ^ 9) = [0] := by
    decide +kernel
  exact h

def reaped (pc : RxPc) : State Unit Unit :=
  { transferred pc with table := .fresh 16, main := .idle, freed := [0] }

theorem transferred_address (pc : RxPc) : ((transferred pc).clients 0).address = localhost := by
  simp only [transferred, Function.update_self, Call.outcome, handleRequest_address]
  rfl

theorem transferred_active (pc : RxPc) : ((transferred pc).clients 0).active = false := by
  simp only [transferred, Function.update_self]
  decide +kernel

theorem rxGoto_transferred (pc : RxPc) : (transferred .idle).rxGoto () pc = transferred pc := by
  simp only [State.rxGoto, transferred, State.mk.injEq, true_and, and_true]
  funext u
  cases u
  rfl

/-- The client is reaped when all is quiet. -/
theorem no_request_outlives_client_quiet :
    0 ∈ (reaped .idle).freed ∧ ∀ client ∈ (reaped .idle).freed, ¬ (reaped .idle).Refers client := by
  refine ⟨List.mem_singleton_self 0,
    no_request_outlives_client bitwiseCrc ⟨31⟩ 1 (reaped .idle) ?_⟩
  refine reaped_reached ?_ rfl (transferred_address _) (transferred_active _) rfl
    (clientToRemove_transferred .idle) (transferred_reached ?_ ?_)
  · rintro table main client rest - - (⟨r, hr⟩ | ⟨req, hreq, -⟩ | ⟨h, hh⟩)
    · cases hr
    · exact absurd hreq List.not_mem_nil
    · cases hh
  · intro s _ client rest h
    cases h
  · intro s client rest h
    cases h

/-- The last packet of a transfer comes once more.  The receiver has got the client from the
table when the main thread removes and deallocates it. -/
theorem request_outlives_client :
    ¬ ∀ s : State Unit Unit, ReachBy Initial (Step bitwiseCrc ⟨31⟩ 1) (fun _ _ => True) s →
      ∀ client ∈ s.freed, ¬ s.Refers client := by
  intro hsafe
  have hfound : Reached (fun _ _ => True) (transferred (.holding (newRequest 0))) := by
    have := ReachBy.step (transferred_reached (Q := fun _ _ => True) (fun _ _ => trivial)
      fun _ => trivial) trivial
      (.rx (.found (r := ()) rfl (rfl : registered.get localhost = some (some 0))))
    rwa [rxGoto_transferred] at this
  have hreaped := reaped_reached (fun _ _ => trivial) rfl (transferred_address _)
    (transferred_active _) rfl (clientToRemove_transferred _) hfound
  exact hsafe _ hreaped 0 (List.mem_singleton_self 0) (.inl ⟨(), rfl⟩)

end Trtp.Threads
