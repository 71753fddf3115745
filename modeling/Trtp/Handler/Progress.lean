import Trtp.Handler.Reassembly
import Mathlib.Algebra.Order.BigOperators.Group.List

/-!
# Progress of a transfer

A request that carries the packet at the front of the window makes the window move.  So a
sender that repeats what has not been acknowledged gets its whole file through: the transfer
is complete after at most as many such requests as there are chunks, the empty one included.
-/

namespace Trtp

open Lib

variable {crc : Crc} {cfg : HdCfg} {chunks : List (List UInt8)} {r : Run} {q : Call}

/-- The call has the packet that the client is waiting for. -/
def Carries (crc : Crc) (r : Run) (q : Call) : Prop :=
  ∃ c ∈ contents crc q.datagrams, c.seqnum = r.client.window.windowLow

instance (r : Run) (q : Call) : Decidable (Carries crc r q) :=
  inferInstanceAs (Decidable (∃ c ∈ _, _))

theorem written_of_room (h : maxPayloadSize * maxWindowSize ≤ q.env.accepted) :
    Written crc cfg r q := by
  rcases handleRequest_cases crc cfg q.env r.client q.decoded q.datagrams with
    ⟨-, -, -, -, h1⟩ | ⟨-, -, -, -, -, h1⟩ | ⟨-, hnot, -⟩
  · exact h1
  · exact h1
  refine absurd ?_ hnot
  set l := (intakeAll crc cfg q.env r.client q.decoded q.datagrams).client.window.taken
  have hlen : l.length ≤ maxWindowSize := gapless_length_le _ _
  have hdata : ∀ p : Packet, p.data.length ≤ maxPayloadSize := fun p =>
    (List.length_take_le' _ _).trans_eq p.payload.size
  calc ((l.map Packet.content).flatMap Content.data).length
      = (l.map fun p => p.data.length).sum := by
        rw [List.length_flatMap, List.map_map]
        rfl
    _ ≤ l.length * maxPayloadSize := by
        have hsum := List.sum_le_card_nsmul (l.map fun p => p.data.length) maxPayloadSize
          (by simpa using fun p _ => hdata p)
        rwa [List.length_map, Nat.nsmul_eq_mul] at hsum
    _ ≤ maxPayloadSize * maxWindowSize := by
        rw [Nat.mul_comm]
        exact Nat.mul_le_mul_left _ hlen
    _ ≤ q.env.accepted := h

theorem Session.ready_ne_nil {s : Session} (ha : s.active = true) {cs : List Content} {c : Content}
    (hc : c ∈ cs) (hseq : c.seqnum = s.low) : (cs.foldl Session.accept s).ready ≠ [] := by
  rw [Ne, Session.ready_eq_nil_iff, Session.pending_foldl_accept ha cs (by decide)]
  intro hnone
  have harrival : Session.arrival s.low cs 0 = none := (Option.or_eq_none_iff.mp hnone).2
  rw [Session.arrival, if_pos (by decide), List.find?_eq_none] at harrival
  have hlow : seqAt s.low 0 = s.low := by simp [seqAt]
  exact harrival c hc (by simp [hseq, hlow])

/-- A call that is written delivers the front of the window if it has it. -/
theorem delivered_lt_of_carries (ha : r.client.active = true) (hw : Written crc cfg r q)
    (hq : Carries crc r q) : r.delivered.length < (r.serve crc cfg q).delivered.length := by
  obtain ⟨c, hc, hseq⟩ := hq
  have hready : (q.filled crc r.client.session).ready ≠ [] :=
    Session.ready_ne_nil (s := r.client.session) ha hc hseq
  have hdelivered : (q.outcome crc cfg r.client).delivered ≠ [] := by
    rw [← (serve_of_written hw).2] at hready
    exact fun hnil => hready (by rw [hnil]; rfl)
  have hpos := List.length_pos_iff.mpr hdelivered
  show r.delivered.length < (r.delivered ++ _).length
  rw [List.length_append]
  omega

/-- What has been delivered to a client at the end of its transfer. -/
theorem Reassembled.complete {s : Session} (h : Reassembled chunks s (chunks.length + 1)) :
    s.active = false ∧ s.file.bytes = chunks.flatten := by
  constructor
  · rw [← Bool.not_eq_true, h.active]
    omega
  · rw [h.bytes, List.take_of_length_le (by rw [sent_length]), sent, List.flatten_append]
    exact List.append_nil _

/-- A transfer of which as many requests as there are chunks, the empty one included, carry the
packet at the front of the window is complete. -/
theorem transfer_completes (crc : Crc) (cfg : HdCfg) (id : UInt32) (address : Address)
    (chunks : List (List UInt8)) (hchunks : ∀ c ∈ chunks, 1 ≤ c.length) (qs : List Call)
    (h : EachCall crc cfg (fun r q => Written crc cfg r q ∧ FromSender crc chunks r q)
      (Run.start id address) qs)
    (hcarried : chunks.length < countAlong (Run.serve crc cfg) (Carries crc)
      (Run.start id address) qs) :
    let r := Run.serveAll crc cfg (Run.start id address) qs
    r.client.active = false ∧ r.client.outFile.bytes = chunks.flatten := by
  intro r
  let I : Run → Prop := fun r => Reassembled chunks r.client.session r.delivered.length
  have hstep : ∀ r q, I r → Written crc cfg r q ∧ FromSender crc chunks r q →
      I (r.serve crc cfg q) := fun r q hr hq => reassembled_serve hchunks hr hq.1 hq.2
  have hr : I r := h.invariant hstep (reassembled_start id address)
  have hle := h.progress (m := fun r => r.delivered.length) (b := chunks.length + 1)
    (Q := Carries crc) hstep (fun r q _ _ => delivered_length_mono r [q])
    (fun r q hr hq hcarries hlt =>
      delivered_lt_of_carries (hr.active.mpr (Nat.le_of_lt_succ hlt)) hq.1 hcarries)
    (reassembled_start id address)
  have hall : r.delivered.length = chunks.length + 1 := by
    have hbound := hr.delivered_le
    have hstart : (Run.start id address).delivered.length = 0 := rfl
    have hge : min (chunks.length + 1) ((Run.start id address).delivered.length +
      countAlong (Run.serve crc cfg) (Carries crc) (Run.start id address) qs) ≤
        r.delivered.length := hle
    omega
  have hcomplete : Reassembled chunks r.client.session (chunks.length + 1) := hall ▸ hr
  exact hcomplete.complete

def Call.single (p : Packet) : Call := Call.sending [p] (Nat.succ_le_succ (Nat.zero_le _))

end Trtp
