import Trtp.Handler.Refine
import Trtp.Lib.Runs
import Trtp.Packet.RoundTrip

/-!
# Runs of one client

A run is the sequence of requests of one client, in the order in which handlers
take its lock.  The scratch packet belongs to whichever handler serves the
request and may have been anywhere in between, so each call brings its own.
-/

namespace Trtp

open Lib

structure Call where
  env : Env
  decoded : Packet
  datagrams : List Datagram
  num_le : datagrams.length ≤ maxWindowSize

structure Run where
  client : Client
  delivered : List Packet

def Run.start (id : UInt32) (address : Address) : Run := ⟨initializeClient id address, []⟩

section

variable (crc : Crc) (cfg : HdCfg)

def Call.outcome (q : Call) (c : Client) : Outcome :=
  handleRequest crc cfg q.env c q.decoded q.datagrams

def Run.serve (r : Run) (q : Call) : Run :=
  { client := (q.outcome crc cfg r.client).client
    delivered := r.delivered ++ (q.outcome crc cfg r.client).delivered }

def Run.serveAll (r : Run) (qs : List Call) : Run := qs.foldl (Run.serve crc cfg) r

/-- Every call of the run satisfies `P` in the state in which it is made. -/
def EachCall (P : Run → Call → Prop) (r : Run) (qs : List Call) : Prop :=
  Along (Run.serve crc cfg) P r qs

/-- If the call writes to the file, all bytes are written. -/
def Written (r : Run) (q : Call) : Prop := (q.outcome crc cfg r.client).writeFailed = false

instance (r : Run) (q : Call) : Decidable (Written crc cfg r q) :=
  inferInstanceAs (Decidable (_ = _))

instance (P : Run → Call → Prop) [∀ r q, Decidable (P r q)] (r : Run) (qs : List Call) :
    Decidable (EachCall crc cfg P r qs) :=
  inferInstanceAs (Decidable (Along _ _ _ _))

/-- A client that some run has led to, failed writes included. -/
def Reachable (c : Client) : Prop :=
  ∃ id address qs, c = (Run.serveAll crc cfg (Run.start id address) qs).client

variable {crc cfg}

theorem serve_session (r : Run) (q : Call) :
    (r.serve crc cfg q).client.session =
      r.client.session.step q.env.accepted (contents crc q.datagrams) :=
  handleRequest_session

theorem delivered_length_mono (r : Run) (qs : List Call) :
    r.delivered.length ≤ (qs.foldl (Run.serve crc cfg) r).delivered.length := by
  refine foldl_invariant (I := fun t : Run => r.delivered.length ≤ t.delivered.length) ?_ le_rfl qs
  intro t q ht
  exact ht.trans (by simp [Run.serve])

def Call.filled (crc : Crc) (q : Call) (s : Session) : Session :=
  (contents crc q.datagrams).foldl Session.accept s

theorem serve_of_written {r : Run} {q : Call} (h : Written crc cfg r q) :
    (r.serve crc cfg q).client.session = (q.filled crc r.client.session).flush ∧
      (q.outcome crc cfg r.client).delivered.map Packet.content =
        (q.filled crc r.client.session).ready :=
  handleRequest_written h

theorem written_of_delivered {r : Run} {q : Call}
    (h : (q.outcome crc cfg r.client).delivered ≠ []) :
    Written crc cfg r q := by
  obtain ⟨-, -, -, -, h1⟩ | ⟨-, -, -, -, -, h1⟩ | ⟨-, -, -, -, h2, -⟩ :=
    handleRequest_cases crc cfg q.env r.client q.decoded q.datagrams
  · exact h1
  · exact h1
  · exact absurd h2 h

end

def Client.filled (crc : Crc) (client : Client) (ds : List Datagram) : Session :=
  (contents crc ds).foldl Session.accept client.session

theorem taken_filled (crc : Crc) (cfg : HdCfg) (env : Env) (client : Client) (decoded : Packet)
    (ds : List Datagram) :
    (intakeAll crc cfg env client decoded ds).client.window.taken.map Packet.content =
      (client.filled crc ds).ready := by
  rw [taken_content, intakeAll_session]
  rfl

/-! ## Views -/

/-- What a client holds, with the packets of its window as far as they are
read. -/
structure SameView (a b : Client) : Prop where
  outFile : a.outFile = b.outFile
  windowLow : a.window.windowLow = b.window.windowLow
  length : a.window.length = b.window.length
  used : ∀ k, (a.window.nodes k).used = (b.window.nodes k).used
  packets : ∀ k, (a.window.nodes k).used = true →
    (a.window.nodes k).value.type = (b.window.nodes k).value.type ∧
      (a.window.nodes k).value.length = (b.window.nodes k).value.length ∧
      (a.window.nodes k).value.seqnum = (b.window.nodes k).value.seqnum ∧
      (a.window.nodes k).value.timestamp = (b.window.nodes k).value.timestamp ∧
      (a.window.nodes k).value.data = (b.window.nodes k).value.data
  active : a.active = b.active
  transferred : a.transferred = b.transferred
  lastTimestamp : a.lastTimestamp = b.lastTimestamp

theorem sameView_of_session {a b : Client} (h : a.session = b.session) : SameView a b := by
  have hused : ∀ k, (a.window.nodes k).used = (b.window.nodes k).used := by
    intro k
    rw [Bool.eq_iff_iff, used_iff_isSome, used_iff_isSome, h]
  simp only [Client.session, Session.mk.injEq] at h
  obtain ⟨hfile, hlow, hlen, hslots, hact, htrans, hlast⟩ := h
  have hk : ∀ k, (a.window.held k).map Packet.content = (b.window.held k).map Packet.content :=
    fun k => congrFun hslots k
  refine ⟨hfile, hlow, hlen, hused, fun k hu => ?_, hact, htrans, hlast⟩
  have := hk k
  rw [Buf.held, Buf.held, ← hused k, if_pos hu, if_pos hu, Option.map_some, Option.map_some,
    Option.some.injEq] at this
  simp only [Packet.content, Content.mk.injEq] at this
  obtain ⟨ht, -, -, -, hl, hs, hts, -, hd⟩ := this
  exact ⟨ht, hl, hs, hts, hd⟩

/-! ## Replies -/

def replyPacket (toSend : Packet) (type : PType) (window : Int) (seqnum : UInt8)
    (timestamp : UInt32) : Packet :=
  { toSend with
    type := type, truncated := false, longLength := false, length := 0
    window := UInt8.ofNat (window % 256).toNat, seqnum := seqnum, timestamp := timestamp }

theorem emit_eq (crc : Crc) (client : Client) (toSend : Packet) (type : PType) (window : Int)
    (seqnum : UInt8) (timestamp : UInt32) (replies : List Reply) :
    ∃ bytes, pack crc (some (replyPacket toSend type window seqnum timestamp)) false = .ok bytes ∧
      emit crc client toSend type window seqnum timestamp replies =
        replies ++ [{ toSend := replyPacket toSend type window seqnum timestamp, bytes := bytes
                      msgName := client.address }] :=
  ⟨_, rfl, rfl⟩

/-- A call that delivers ends its replies with one ACK for what it delivered,
made after the window has moved. -/
theorem outcome_of_delivered {crc : Crc} {cfg : HdCfg} {q : Call} {c : Client}
    (h : (q.outcome crc cfg c).delivered ≠ []) :
    ∃ last ack, (q.outcome crc cfg c).delivered.getLast? = some last ∧
      (q.outcome crc cfg c).replies =
        (intakeAll crc cfg q.env c q.decoded q.datagrams).replies ++ [ack] ∧
      ack.toSend = replyPacket q.env.toSend .ack
        (freeWindow cfg (q.outcome crc cfg c).client.window)
        (q.outcome crc cfg c).client.window.windowLow last.timestamp ∧
      pack crc (some ack.toSend) false = .ok ack.bytes := by
  obtain ⟨-, -, -, h2, -⟩ | ⟨hl, -, -, h1, h2, -⟩ | ⟨-, -, -, -, h2, -⟩ :=
    handleRequest_cases crc cfg q.env c q.decoded q.datagrams
  · exact absurd h2 h
  · rw [List.getLast?_eq_some_getLast hl] at h1
    obtain ⟨bytes, hpack, hemit⟩ := emit_eq crc (q.outcome crc cfg c).client q.env.toSend .ack
      (freeWindow cfg (q.outcome crc cfg c).client.window)
      (q.outcome crc cfg c).client.window.windowLow (List.getLast _ hl).timestamp
      (intakeAll crc cfg q.env c q.decoded q.datagrams).replies
    refine ⟨_, _, ?_, h1.trans hemit, rfl, hpack⟩
    rw [Call.outcome, h2, List.getLast?_eq_some_getLast hl]
  · exact absurd h2 h

/-! ## Sending -/

def Packet.datagram (crc : Crc) (p : Packet) : Datagram :=
  ⟨packed crc p, UInt16.ofNat (packed crc p).length⟩

def dataPacket (seqnum : UInt8) (timestamp : UInt32) (data : List UInt8) : Packet :=
  { initPacket with
    type := .data, seqnum := seqnum, timestamp := timestamp
    length := UInt16.ofNat data.length, payload := Payload.zero.copy data }

/-- A call on the datagrams of some packets, on a device that takes a full
`file_buffer`. -/
def Call.sending (ps : List Packet) (h : ps.length ≤ maxWindowSize) : Call :=
  { env := { accepted := maxPayloadSize * maxWindowSize, toSend := initPacket, remove := false
             now := 0 }
    decoded := initPacket
    datagrams := ps.map (Packet.datagram bitwiseCrc)
    num_le := by rwa [List.length_map] }

def localhost : Address := ⟨5555, (Vector.replicate 16 0).set 15 1⟩

end Trtp
