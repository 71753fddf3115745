import Trtp.Handler.Run
import Trtp.HashTable.Basic

/-!
# The receiver

`rx_run_once` of `src/receiver.c`.  The receiver takes the batch of datagrams that
`recvmmsg` returned and puts them into requests, one client to a request.  Only the
first datagram of a request is looked up in the client table: the next ones join it
as long as they come from the same address.

Clients and nodes are numbered in the order in which they are allocated; a number is
never used again.  The content of a node is found under its number in `reqs`.  What
`calloc`, `initialize_client` and `initialize_node` do for a datagram, should they be
called for it, is part of the batch.

The mutex of the table is not recursive, and a thread that locks it twice waits for
itself.
-/

namespace Trtp

def minPacketSize : ℕ := 11

def maxPacketSize : ℕ := 528

/-- The end of `initialize_node(malloc(..), ..)`: it succeeds, or there is no memory for
the request, or there is none for the node. -/
inductive NodeAlloc where
  | ok
  | noContent
  | null
  deriving DecidableEq

/-- A datagram of the batch: `addrs[i]`, `msgs[i].msg_len` and `buffers[i]`, and the
results of the calls that may be made for it. -/
structure Arrival where
  address : Address
  msgLen : ℕ
  buffer : List UInt8
  calloc : Bool
  initializeClient : Bool
  initializeNode : NodeAlloc

def Arrival.datagram (a : Arrival) : Datagram := ⟨a.buffer.take a.msgLen, UInt16.ofNat a.msgLen⟩

/-- The datagram is neither too long nor too short. -/
def Arrival.fits (a : Arrival) : Bool := a.msgLen ≤ maxPacketSize ∧ a.msgLen ≥ minPacketSize

/-- How a call can fail to return: it waits for a lock it holds itself, follows the
pointer `req` before it has been set, writes past the end of a request, or searches a full
table. -/
inductive Fault where
  | deadlock
  | uninitialised
  | overflow
  | spin
  deriving DecidableEq

/-- Add a datagram to the request, if it has room. -/
def HdReq.push {κ : Type} (req : HdReq κ) (d : Datagram) : Option (HdReq κ) :=
  if h : req.datagrams.length < maxWindowSize then
    some { req with
      datagrams := req.datagrams ++ [d]
      num_le := by
        rw [List.length_append]
        exact h }
  else none

theorem HdReq.push_spec {κ : Type} {req req' : HdReq κ} {d : Datagram}
    (h : req.push d = some req') :
    req'.stop = req.stop ∧ req'.client = req.client ∧ req'.datagrams = req.datagrams ++ [d] := by
  unfold HdReq.push at h
  split_ifs at h
  rw [← Option.some.inj h]
  exact ⟨rfl, rfl, rfl⟩

/-- What `rx_run_once` works on: the client table with its lock, the clients, the counter
`idx`, the contents of the nodes, what the next calls of `stream_pop` return, and its
locals.  A node is the number of its request, or `none` if it has none.

`sent` are the nodes enqueued by the call, each with its request as it was then, and
`origins` are the sources of the datagrams in a request.  Both are not in the code. -/
structure Rx where
  table : Ht ℕ
  locked : Bool
  clients : ℕ → Client
  nextClient : ℕ
  idx : UInt32
  reqs : ℕ → HdReq ℕ
  nextNode : ℕ
  pool : List (Option ℕ)
  contained : Option ℕ
  node : Option (Option ℕ)
  req : Option ℕ
  i : ℕ
  prev : Address
  exited : Bool
  sent : List (Option (ℕ × HdReq ℕ))
  origins : ℕ → List Address

namespace Rx

def enqueue (s : Rx) : Rx :=
  match s.node with
  | none => s
  | some none => { s with node := none, sent := s.sent ++ [none] }
  | some (some n) => { s with node := none, sent := s.sent ++ [some (n, s.reqs n)] }

/-- `req->client = contained` and `req->num = 0`, on the node `n`. -/
def openNode (s : Rx) (n client : ℕ) : Rx :=
  { s with
    node := some (some n)
    req := some n
    reqs := Function.update s.reqs n
      { stop := (s.reqs n).stop, client := client, datagrams := [], num_le := Nat.zero_le _ }
    origins := Function.update s.origins n [] }

/-- A node from `stream_pop` or a new one, for a request of `client`. -/
def takeNode (s : Rx) (a : Arrival) (client : ℕ) : Rx :=
  match s.pool with
  | some n :: pool => { s with pool := pool }.openNode n client
  | pool =>
    let s := { s with pool := pool.tail }
    match a.initializeNode with
    | .ok =>
      let n := s.nextNode
      { s with
        nextNode := n + 1
        reqs := Function.update s.reqs n
          { stop := false, client := client, datagrams := [], num_le := Nat.zero_le _ } }.openNode n
        client
    | .noContent => { s with node := some none, exited := true }
    | .null => { s with node := none, exited := true }

/-- Copy the datagram to the request, if its length allows it. -/
def copy (s : Rx) (a : Arrival) : Except Fault Rx :=
  if a.fits then
    match s.req with
    | none => .error .uninitialised
    | some n =>
      match (s.reqs n).push a.datagram with
      | none => .error .overflow
      | some req =>
        .ok { s with
          reqs := Function.update s.reqs n req
          origins := Function.update s.origins n (s.origins n ++ [a.address]) }
  else .ok s

/-- The rest of the body of the loop once the client is known. -/
def serve (s : Rx) (a : Arrival) (client : ℕ) : Except Fault Rx :=
  let s := { s with contained := some client }.takeNode a client
  if s.exited then .ok s else s.copy a

/-- The body of the loop for a datagram that does not join the current request. -/
def lookup (maxClients : ℕ) (s : Rx) (a : Arrival) : Except Fault Rx :=
  if s.locked then .error .deadlock
  else
    match s.table.get a.address with
    | none => .error .spin
    | some (some client) => s.serve a client
    | some none =>
      if s.table.length ≥ maxClients then .ok { s with contained := none }
      else if !a.calloc then
        -- The loop is left with the lock held.
        .ok { s with contained := none, locked := true, exited := true }
      else
        let client := s.nextClient
        if !a.initializeClient then
          -- The client has been freed, `contained` still points to it and the lock is held.
          .ok { s with
            contained := some client, locked := true, nextClient := client + 1, idx := s.idx + 1 }
        else
          match s.table.put a.address (some client) with
          | none => .error .spin
          | some (_, _, table) =>
            { s with
              table := table
              clients := Function.update s.clients client (Trtp.initializeClient s.idx a.address)
              nextClient := client + 1
              idx := s.idx + 1 }.serve a client

/-- The datagram joins the current request: there is a client, it comes from the same
address as the one before it, and it is one of the first 31 of the batch. -/
def Joins (s : Rx) (a : Arrival) : Prop :=
  s.contained.isSome = true ∧ a.address = s.prev ∧ s.i < maxWindowSize

instance (s : Rx) (a : Arrival) : Decidable (s.Joins a) := inferInstanceAs (Decidable (_ ∧ _))

def body (maxClients : ℕ) (s : Rx) (a : Arrival) : Except Fault Rx :=
  if s.Joins a then s.copy a else s.enqueue.lookup maxClients a

def next (s : Rx) (i : ℕ) (prev : Address) : Rx := { s with i := i, prev := prev }

def step (maxClients : ℕ) (s : Rx) (a : Arrival) : Except Fault Rx :=
  if s.exited then .ok s
  else (s.body maxClients a).map fun s' => s'.next (s.i + 1) a.address

def begin (s : Rx) : Rx :=
  { s with contained := none, node := none, req := none, i := 0, exited := false, sent := [] }

end Rx

/-- `rx_run_once` on a batch.  An empty batch stands for a `recvmmsg` that returned
nothing or failed. -/
def rxRunOnce (maxClients : ℕ) (s : Rx) (batch : List Arrival) : Except Fault Rx := do
  let s ← batch.foldlM (Rx.step maxClients) s.begin
  .ok s.enqueue

end Trtp
