import Trtp.Handler.Calls

/-!
# Short writes

The delivery loop releases the slots of the packets it takes before the write is
tried.  When the write is short, `hd_run_once` leaves without an ACK and without
moving the window, so that the sender repeats the packets, but it neither takes the
slots back nor counts them down: the packets are gone and `length` still counts them.

`Atomic` says what a short write should leave behind.  It fails for every client
and every request, already on a request that repeats the datagrams and whose write
succeeds: either the window does not move as far, or `length` stays too high.
-/

namespace Trtp

open Lib

structure SameWindow (a b : Client) : Prop where
  outFile : a.outFile = b.outFile
  windowLow : a.window.windowLow = b.window.windowLow
  length : a.window.length = b.window.length
  used : ∀ k, (a.window.nodes k).used = (b.window.nodes k).used

/-- A request with a short write left no trace.  `ref` is the client to compare later
requests with: as it was before the request, or with the datagrams of the request in its
window and not written. -/
structure Atomic (crc : Crc) (cfg : HdCfg) (env : Env) (client : Client) (decoded : Packet)
    (ds : List Datagram) : Prop where
  silent : ∀ reply ∈ (handleRequest crc cfg env client decoded ds).replies,
    reply.toSend.type ≠ .ack
  counted : (handleRequest crc cfg env client decoded ds).client.window.length.toNat =
    (handleRequest crc cfg env client decoded ds).client.session.count
  windowLow : (handleRequest crc cfg env client decoded ds).client.window.windowLow =
    client.window.windowLow
  transferred : (handleRequest crc cfg env client decoded ds).client.transferred =
    client.transferred
  pos : (handleRequest crc cfg env client decoded ds).client.outFile.pos = client.outFile.pos
  later : ∃ ref, (ref = client ∨ ref = (intakeAll crc cfg env client decoded ds).client) ∧
    ∀ env' decoded' ds',
      (handleRequest crc cfg env' ref decoded' ds').writeFailed = false →
      (handleRequest crc cfg env' (handleRequest crc cfg env client decoded ds).client decoded'
        ds').writeFailed = false →
      SameWindow (handleRequest crc cfg env' ref decoded' ds').client
        (handleRequest crc cfg env' (handleRequest crc cfg env client decoded ds).client decoded'
          ds').client

namespace Session

variable {s : Session}

/-- A packet that the session does not take. -/
def Settled (s : Session) (c : Content) : Prop := s.accept c = s

theorem settled_iff {c : Content} :
    s.Settled c ↔
      ¬ (s.active = true ∧ sequences s.low c.seqnum = true ∧ s.slots (slot c.seqnum) = none) := by
  unfold Settled accept
  split_ifs with h
  · refine iff_of_false (fun he => ?_) (not_not_intro h)
    have hslot := congrFun (congrArg Session.slots he) (slot c.seqnum)
    simp [h.2.2] at hslot
  · exact iff_of_true rfl h

theorem slots_accept_isSome {k : Fin maxBufferSize} (c : Content) (h : (s.slots k).isSome) :
    ((s.accept c).slots k).isSome := by
  unfold accept
  split_ifs with hc
  · by_cases hk : k = slot c.seqnum
    · rw [hk]
      simp
    · simpa [hk] using h
  · exact h

theorem slots_foldl_accept_isSome {k : Fin maxBufferSize} (cs : List Content)
    (h : (s.slots k).isSome) : ((cs.foldl accept s).slots k).isSome := by
  induction cs generalizing s with
  | nil => exact h
  | cons c cs ih => exact ih (slots_accept_isSome c h)

theorem settled_accept (c : Content) : (s.accept c).Settled c := by
  rw [settled_iff, accept_active, accept_low]
  rintro ⟨ha, hseq, hfree⟩
  unfold accept at hfree
  split_ifs at hfree with hc
  · simp at hfree
  · exact hc ⟨ha, hseq, hfree⟩

theorem Settled.accept {c : Content} (h : s.Settled c) (c' : Content) :
    (s.accept c').Settled c := by
  rw [settled_iff] at h ⊢
  rw [accept_active, accept_low]
  rintro ⟨ha, hseq, hfree⟩
  refine h ⟨ha, hseq, ?_⟩
  by_contra hn
  have hsome := slots_accept_isSome c' (Option.isSome_iff_ne_none.mpr hn)
  rw [hfree] at hsome
  cases hsome

theorem Settled.foldl_accept {c : Content} (h : s.Settled c) (cs : List Content) :
    (cs.foldl Session.accept s).Settled c := by
  induction cs generalizing s with
  | nil => exact h
  | cons c' cs ih => exact ih (h.accept c')

theorem settled_of_mem {c : Content} {cs : List Content} (h : c ∈ cs) :
    (cs.foldl Session.accept s).Settled c := by
  induction cs generalizing s with
  | nil => cases h
  | cons c' cs ih =>
    rcases List.mem_cons.mp h with rfl | h
    · exact (settled_accept c).foldl_accept cs
    · exact ih h

theorem foldl_accept_of_settled {cs : List Content} (h : ∀ c ∈ cs, s.Settled c) :
    cs.foldl Session.accept s = s := by
  induction cs with
  | nil => rfl
  | cons c cs ih =>
    rw [List.foldl_cons, h c List.mem_cons_self]
    exact ih fun a ha => h a (List.mem_cons_of_mem c ha)

theorem foldl_accept_foldl_accept (cs : List Content) :
    cs.foldl Session.accept (cs.foldl Session.accept s) = cs.foldl Session.accept s :=
  foldl_accept_of_settled fun _ => settled_of_mem

theorem count_le : s.count ≤ maxBufferSize :=
  (Finset.card_le_univ _).trans_eq (Fintype.card_fin _)

theorem length_ne_of_taken (cs : List Content) {k : Fin maxBufferSize} (hs : s.slots k = none)
    (ht : ((cs.foldl Session.accept s).slots k).isSome) :
    (cs.foldl Session.accept s).length ≠ s.length := by
  have hlt : s.count < (cs.foldl Session.accept s).count := by
    apply Finset.card_lt_card
    rw [Finset.ssubset_iff_of_subset]
    · refine ⟨k, by simpa using ht, ?_⟩
      simp [hs]
    · intro i hi
      simp only [Finset.mem_filter, Finset.mem_univ, true_and] at hi ⊢
      exact slots_foldl_accept_isSome cs hi
  have hle : (cs.foldl Session.accept s).count ≤ 32 := count_le
  have hcount := count_foldl_accept (s := s) cs
  intro he
  rw [he, ← UInt8.toNat_inj] at hcount
  simp only [UInt8.toNat_sub, UInt8.toNat_ofNat'] at hcount
  have := s.length.toNat_lt
  omega

/-- After a short write of what is ready, the same packets and a delivery that succeeds do
not lead to the window of a delivery that succeeds at once. -/
theorem flush_lose_ne (h : s.ready ≠ []) (result : Nat) (cs : List Content) :
    ¬ ((cs.foldl Session.accept (s.lose s.ready result)).flush.low = s.flush.low ∧
      (cs.foldl Session.accept (s.lose s.ready result)).flush.length = s.flush.length) := by
  have hlow : (cs.foldl Session.accept (s.lose s.ready result)).low = s.low :=
    (Session.foldl_accept (s := s.lose s.ready result) cs).1
  have hpos : 0 < s.ready.length := List.length_pos_iff.mpr h
  have hle : s.ready.length ≤ 31 := ready_length_le
  have hle' : (cs.foldl Session.accept (s.lose s.ready result)).ready.length ≤ 31 := ready_length_le
  generalize ht : cs.foldl Session.accept (s.lose s.ready result) = t at *
  rw [flush_of_ready h]
  rintro ⟨h1, h2⟩
  by_cases hr : t.ready = []
  · -- Nothing came back to the low end of the window, which does not move.
    rw [flush, if_pos hr, hlow, commit_low, ← UInt8.toNat_inj, seqAt_toNat] at h1
    have := s.low.toNat_lt
    omega
  · rw [flush_of_ready hr] at h1 h2
    rw [commit_low, commit_low, hlow, ← UInt8.toNat_inj, seqAt_toNat, seqAt_toNat] at h1
    have hlen : t.ready.length = s.ready.length := by
      have := s.low.toNat_lt
      omega
    -- The window moves as far, and the packets taken twice are counted twice.
    have hfree : (s.lose s.ready result).slots (slot (seqAt s.low 0)) = none := by
      have := pending_lose (s := s) s.ready (Nat.le_succ_of_le ready_length_le) result (j := 0)
        (by decide)
      rwa [if_pos hpos] at this
    have hback : (t.slots (slot (seqAt s.low 0))).isSome := by
      rw [← hlow]
      exact ready_isSome (List.length_pos_iff.mpr hr)
    have hne := length_ne_of_taken cs hfree (by rw [ht]; exact hback)
    rw [ht] at hne
    have h2' : t.length - UInt8.ofNat t.ready.length = s.length - UInt8.ofNat s.ready.length := h2
    rw [hlen, UInt8.sub_left_inj] at h2'
    exact hne h2'

end Session

section Requests

variable {crc : Crc} {cfg : HdCfg} {env : Env} {client : Client} {decoded : Packet}
  {ds : List Datagram}

theorem written_of_writes (h : Session.writes env.accepted (client.filled crc ds).ready) :
    (handleRequest crc cfg env client decoded ds).writeFailed = false := by
  obtain ⟨-, -, -, -, hf⟩ | ⟨-, -, -, -, -, hf⟩ | ⟨-, hw, -⟩ :=
    handleRequest_cases crc cfg env client decoded ds
  · exact hf
  · exact hf
  · rw [taken_filled] at hw
    exact absurd h hw

theorem session_of_writeFailed
    (h : (handleRequest crc cfg env client decoded ds).writeFailed = true) :
    (client.filled crc ds).ready ≠ [] ∧
      (handleRequest crc cfg env client decoded ds).client.session =
        (client.filled crc ds).lose (client.filled crc ds).ready env.accepted := by
  have hs : (intakeAll crc cfg env client decoded ds).client.session = client.filled crc ds :=
    intakeAll_session
  have ht := taken_filled crc cfg env client decoded ds
  obtain ⟨-, -, -, -, hf⟩ | ⟨-, -, -, -, -, hf⟩ | ⟨hl, -, h1, -⟩ :=
    handleRequest_cases crc cfg env client decoded ds
  · rw [h] at hf
    cases hf
  · rw [h] at hf
    cases hf
  · rw [ht, hs] at h1
    refine ⟨?_, h1⟩
    rw [← ht]
    simpa using hl

end Requests

/-- No short write is atomic, whatever the client, the request and the number of bytes
written. -/
theorem short_write_not_atomic (crc : Crc) (cfg : HdCfg) (env : Env) (client : Client)
    (decoded : Packet) (ds : List Datagram)
    (h : (handleRequest crc cfg env client decoded ds).writeFailed = true) :
    ¬ Atomic crc cfg env client decoded ds := by
  obtain ⟨hready, hlost⟩ := session_of_writeFailed h
  rintro ⟨-, -, -, -, -, ref, href, hlater⟩
  let s := client.filled crc ds
  let r := (handleRequest crc cfg env client decoded ds).client
  have hsame : ref.filled crc ds = s := by
    rcases href with rfl | rfl
    · rfl
    · rw [Client.filled, intakeAll_session]
      exact Session.foldl_accept_foldl_accept _
  -- The datagrams are repeated, on a device that takes all there is to write.
  let env' : Env := { env with
    accepted := (s.ready.flatMap Content.data).length +
      ((r.filled crc ds).ready.flatMap Content.data).length }
  have hw₁ : (handleRequest crc cfg env' ref decoded ds).writeFailed = false := by
    apply written_of_writes
    rw [hsame]
    exact Nat.le_add_right _ _
  have hw₂ : (handleRequest crc cfg env' r decoded ds).writeFailed = false :=
    written_of_writes (Nat.le_add_left _ _)
  have hview := hlater env' decoded ds hw₁ hw₂
  have h₁ := (handleRequest_written hw₁).1
  have h₂ := (handleRequest_written hw₂).1
  rw [← Client.filled, hsame] at h₁
  rw [hlost] at h₂
  refine Session.flush_lose_ne hready env.accepted (contents crc ds) ⟨?_, ?_⟩
  · rw [← h₂, ← h₁]
    exact hview.windowLow.symm
  · rw [← h₂, ← h₁]
    exact hview.length.symm

/-- The first packet of a client, on a device that takes nothing. -/
def refusedEnv : Env := { accepted := 0, toSend := initPacket, remove := false, now := 0 }

theorem refused_write :
    (handleRequest bitwiseCrc ⟨31⟩ refusedEnv (initializeClient 1 localhost) initPacket
      [(dataPacket 0 0 [0x61]).datagram bitwiseCrc]).writeFailed = true := by
  decide +kernel

theorem short_write_not_atomic_refused :
    ¬ Atomic bitwiseCrc ⟨31⟩ refusedEnv (initializeClient 1 localhost) initPacket
      [(dataPacket 0 0 [0x61]).datagram bitwiseCrc] :=
  short_write_not_atomic _ _ _ _ _ _ refused_write

/-- The packet is not written, its slot is free again, and `length` is 1. -/
theorem refused_write_miscounts :
    ¬ ∀ (client : Client) (env : Env) (decoded : Packet) (ds : List Datagram),
      Reachable bitwiseCrc ⟨31⟩ client →
      (handleRequest bitwiseCrc ⟨31⟩ env client decoded ds).writeFailed = true →
      Atomic bitwiseCrc ⟨31⟩ env client decoded ds := by
  intro h
  have hatomic := h (initializeClient 1 localhost) refusedEnv initPacket
    [(dataPacket 0 0 [0x61]).datagram bitwiseCrc] ⟨1, localhost, [], rfl⟩ refused_write
  exact absurd hatomic.counted (by decide +kernel)

end Trtp
