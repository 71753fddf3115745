import Trtp.Handler.Acks
import Trtp.Handler.Window
import Mathlib.Algebra.Order.BigOperators.Group.List

/-!
# The arrays of the handler

`handle_thread` gives `hd_run_once` three arrays on its stack: `packets_to_send` and
`msg` with 32 entries, and `file_buffer` with room for 31 full payloads.  None of the
writes into them is checked.

A datagram is answered at most once and a delivery adds one ACK, so 31 datagrams fill
at most 32 entries.  The delivery loop takes at most 31 packets, and the window
invariant bounds the length of each by 512.
-/

namespace Trtp

open Lib

def replyEntries : Nat := maxWindowSize + 1

/-- `sizeof(file_buffer)`. -/
def fileBufferSize : Nat := maxPayloadSize * maxWindowSize

/-! ## The delivery loop -/

section Drain

/-- `offset`: the lengths of the packets copied so far. -/
def Drain.offset (d : Drain) : Nat := (d.delivered.map fun p => p.length.toNat).sum

theorem drainStep_found {d d' : Drain} (h : drainStep d = (d', true)) : d'.cnt = d.cnt + 1 := by
  unfold drainStep at h
  split at h
  · cases h
  · cases h
    rfl

/-- The loop ends by its own tests after at most 31 rounds, so further fuel changes
nothing. -/
theorem drain_succ {fuel : Nat} {d : Drain} (hf : 0 < fuel) (h : maxWindowSize ≤ d.cnt + fuel) :
    drain (fuel + 1) d = drain fuel d := by
  induction fuel generalizing d with
  | zero => exact absurd hf (lt_irrefl 0)
  | succ fuel ih =>
    rw [drain, drain]
    cases hs : drainStep d with | mk d' found =>
    dsimp only
    split
    · rename_i hcond
      simp only [Bool.and_eq_true, decide_eq_true_eq] at hcond
      obtain ⟨⟨⟨-, hfound⟩, hlt⟩, -⟩ := hcond
      rw [hfound] at hs
      have hcnt := drainStep_found hs
      exact ih (by omega) (by omega)
    · rfl

theorem drain_fuel {fuel : Nat} {d : Drain} (h : maxWindowSize ≤ fuel) :
    drain fuel d = drain maxWindowSize d := by
  obtain ⟨k, rfl⟩ := Nat.exists_eq_add_of_le h
  induction k with
  | zero => rfl
  | succ k ih =>
    have hpos : 0 < maxWindowSize + k := by
      have : maxWindowSize = 31 := rfl
      omega
    rw [← Nat.add_assoc, drain_succ hpos (by omega)]
    exact ih (Nat.le_add_right _ _)

/-- A round that finds a packet assigns `remove` before it is read, and a round that
finds none ends the loop without reading it. -/
theorem drainStep_remove (d : Drain) (b : Bool) :
    drainStep { d with remove := b } = drainStep d ∨
      drainStep { d with remove := b } = ({ d with remove := b }, false) ∧
        drainStep d = (d, false) := by
  unfold drainStep
  split
  · rename_i hget
    simp only at hget
    simp only [hget]
    exact .inr ⟨trivial, trivial⟩
  · rename_i pak hget
    simp only at hget
    simp only [hget]
    left
    by_cases hz : pak.length = 0
    · cases b <;> cases d.remove <;> simp [hz]
    · simp [UInt16.pos_iff_ne_zero.mpr hz]

theorem drain_remove (fuel : Nat) (d : Drain) (b : Bool) :
    drain (fuel + 1) { d with remove := b } = drain (fuel + 1) d ∨
      drain (fuel + 1) { d with remove := b } = { d with remove := b } ∧
        drain (fuel + 1) d = d := by
  rw [drain, drain]
  rcases drainStep_remove d b with h | ⟨h₁, h₂⟩
  · left
    rw [h]
  · right
    rw [h₁, h₂]
    simp

end Drain

/-! ## A request -/

section Request

variable {crc : Crc} {cfg : HdCfg} {env : Env} {client : Client} {decoded : Packet}
  {ds : List Datagram}

theorem intakeAll_remove (b : Bool) :
    intakeAll crc cfg { env with remove := b } client decoded ds =
      intakeAll crc cfg env client decoded ds := rfl

theorem handleRequest_eq :
    handleRequest crc cfg env client decoded ds =
      let s := intakeAll crc cfg env client decoded ds
      let d := drain maxWindowSize (s.drain env)
      if d.cnt > 0 then deliver crc cfg env s d
      else
        { client := { s.client with window := d.window }, decoded := s.decoded
          replies := s.replies, delivered := [], writeFailed := false } := rfl

/-- What the uninitialised `remove` holds makes no difference to a request. -/
theorem handleRequest_remove (b : Bool) :
    handleRequest crc cfg { env with remove := b } client decoded ds =
      handleRequest crc cfg env client decoded ds := by
  rw [handleRequest_eq, handleRequest_eq, intakeAll_remove]
  set s := intakeAll crc cfg env client decoded ds
  have hstart : s.drain { env with remove := b } = { s.drain env with remove := b } := rfl
  have hdeliver : ∀ d, deliver crc cfg { env with remove := b } s d = deliver crc cfg env s d :=
    fun _ => rfl
  simp only [hstart, hdeliver]
  rcases drain_remove 30 (s.drain env) b with h | ⟨h₁, h₂⟩
  · rw [show maxWindowSize = 30 + 1 from rfl, h]
  · rw [show maxWindowSize = 30 + 1 from rfl, h₁, h₂]
    rfl

def drainOf (crc : Crc) (cfg : HdCfg) (env : Env) (client : Client) (decoded : Packet)
    (ds : List Datagram) : Drain :=
  drain maxWindowSize ((intakeAll crc cfg env client decoded ds).drain env)

/-- The replies that a request writes to `packets_to_send`, in order, sent or not: a
request that fails to write to the file sends none of them. -/
def entries (crc : Crc) (cfg : HdCfg) (env : Env) (client : Client) (decoded : Packet)
    (ds : List Datagram) : List Reply :=
  let early := (intakeAll crc cfg env client decoded ds).replies
  early ++ (handleRequest crc cfg env client decoded ds).replies.drop early.length

theorem foldl_intake_replies_length (s : Intake) (ds : List Datagram) :
    (ds.foldl (intake crc cfg env) s).replies.length ≤ s.replies.length + ds.length := by
  induction ds generalizing s with
  | nil => exact le_rfl
  | cons d ds ih =>
    have hd : (intake crc cfg env s d).replies.length ≤ s.replies.length + 1 := by
      rcases intake_answers crc cfg env s d with h | ⟨reply, h⟩
      · rw [h]
        exact Nat.le_succ _
      · rw [h.replies, List.length_append, List.length_singleton]
    have := ih (intake crc cfg env s d)
    rw [List.foldl_cons, List.length_cons]
    omega

/-- The entries are the replies of the loop over the datagrams and, after a delivery,
one ACK; the messages sent are these or none. -/
theorem entries_cases (crc : Crc) (cfg : HdCfg) (env : Env) (client : Client) (decoded : Packet)
    (ds : List Datagram) :
    let early := (intakeAll crc cfg env client decoded ds).replies
    let sent := (handleRequest crc cfg env client decoded ds).replies
    (entries crc cfg env client decoded ds = early ∧ (sent = early ∨ sent = [])) ∨
      ∃ window seqnum timestamp bytes,
        let ack := replyPacket env.toSend .ack window seqnum timestamp
        pack crc (some ack) false = .ok bytes ∧ sent = entries crc cfg env client decoded ds ∧
          sent = early ++
            [⟨ack, bytes, (handleRequest crc cfg env client decoded ds).client.address⟩] := by
  intro early sent
  obtain ⟨-, -, h, -⟩ | ⟨-, -, -, h, -⟩ | ⟨-, -, -, h, -⟩ :=
    handleRequest_cases crc cfg env client decoded ds
  · exact .inl ⟨by rw [entries, h, List.drop_length, List.append_nil], .inl h⟩
  · right
    obtain ⟨bytes, hpack, hemit⟩ := emit_eq crc
      (handleRequest crc cfg env client decoded ds).client env.toSend .ack
      (freeWindow cfg (handleRequest crc cfg env client decoded ds).client.window)
      (handleRequest crc cfg env client decoded ds).client.window.windowLow
      (((intakeAll crc cfg env client decoded ds).client.window.taken.getLast?.map
        Packet.timestamp).getD (intakeAll crc cfg env client decoded ds).lastTimestamp) early
    have hsent := h.trans hemit
    refine ⟨_, _, _, bytes, hpack, ?_, hsent⟩
    rw [entries, hsent, List.drop_left]
    exact hsent
  · exact .inl ⟨by rw [entries, h, List.drop_nil, List.append_nil], .inr h⟩

theorem entries_length_le :
    (entries crc cfg env client decoded ds).length ≤ ds.length + 1 := by
  have hearly : (intakeAll crc cfg env client decoded ds).replies.length ≤ 0 + ds.length :=
    foldl_intake_replies_length _ ds
  rcases entries_cases crc cfg env client decoded ds with ⟨h, -⟩ | ⟨_, _, _, _, -, h₁, h₂⟩
  · rw [h]
    omega
  · rw [← h₁, h₂, List.length_append, List.length_singleton]
    omega

theorem sent_isPrefix :
    (handleRequest crc cfg env client decoded ds).replies <+:
      entries crc cfg env client decoded ds := by
  rcases entries_cases crc cfg env client decoded ds with ⟨h, hs | hs⟩ | ⟨_, _, _, _, -, h, -⟩
  · rw [h, hs]
  · rw [hs]
    exact List.nil_prefix
  · rw [← h]

end Request

/-! ## The bytes of a reply -/

section Bytes

variable {crc : Crc}

/-- `unpack` reads from the bytes of a reply the type, sequence number and timestamp
it was made with, no length and no truncation. -/
structure Reply.WellFormed (crc : Crc) (reply : Reply) : Prop where
  length : reply.bytes.length = 11
  ret : ∀ out, (unpack crc reply.bytes 11 out).ret = .ok ()
  type : ∀ out, (unpack crc reply.bytes 11 out).out.type = reply.toSend.type
  seqnum : ∀ out, (unpack crc reply.bytes 11 out).out.seqnum = reply.toSend.seqnum
  timestamp : ∀ out, (unpack crc reply.bytes 11 out).out.timestamp = reply.toSend.timestamp
  length_zero : ∀ out, (unpack crc reply.bytes 11 out).out.length = 0
  truncated : ∀ out, (unpack crc reply.bytes 11 out).out.truncated = false

theorem window_mask (w : UInt8) : (w &&& 0x1F) &&& 0x1F = w &&& 0x1F := by
  rw [UInt8.and_assoc]
  rfl

theorem window_mask_le (w : UInt8) : w &&& 0x1F ≤ 31 := by
  rw [UInt8.le_iff_toNat_le, UInt8.toNat_and]
  exact Nat.and_le_right

/-- `pack` keeps the five low bits of the window, and a packet without payload has no
`crc2` to recompute. -/
theorem pack_masked {p : Packet} (hp : p.length = 0) :
    pack crc (some p) false = pack crc (some { p with window := p.window &&& 0x1F }) true := by
  have hpay : ∀ (q : Packet) b, q.length = 0 → packPayload crc q b = [] := by
    intro q b hq
    simp [packPayload, hq]
  have hheader : packHeader { p with window := p.window &&& 0x1F } = packHeader p := by
    rw [packHeader, packHeader, window_mask]
  have hfields : packFields { p with window := p.window &&& 0x1F } = packFields p := rfl
  have hempty : packPayload crc { p with window := p.window &&& 0x1F } true = [] := hpay _ _ hp
  simp only [pack, hheader, hfields, hpay p false hp, hempty]

theorem wellFormed_of_pack {toSend : Packet} {type : PType} {window : Int} {seqnum : UInt8}
    {timestamp : UInt32} {bytes : List UInt8} {msgName : Address} (ht : type ≠ .ignore)
    (h : pack crc (some (replyPacket toSend type window seqnum timestamp)) false = .ok bytes) :
    Reply.WellFormed crc ⟨replyPacket toSend type window seqnum timestamp, bytes, msgName⟩ := by
  set p := replyPacket toSend type window seqnum timestamp with hp
  set q : Packet := { p with window := p.window &&& 0x1F } with hq
  have hpackable : Packable q :=
    { type_ne := ht
      truncated_data := fun h => by cases h
      window_le := window_mask_le _
      length_le := Nat.zero_le _
      length_data := fun _ => rfl
      long_length := fun h => absurd h (Nat.not_lt_zero 127) }
  obtain ⟨bytes', hb, hlen, hun⟩ := (roundTrips_iff crc q hpackable).mpr (.inl rfl)
  obtain rfl : bytes = bytes' := by
    rw [pack_masked rfl, ← hq, hb] at h
    injection h with h
    exact h.symm
  have hnone : q.hasPayload = false := by
    simp [Packet.hasPayload, hq, hp, replyPacket]
  have h11 : bytes.length = 11 := by
    rw [hlen, packedSize, hnone]
    rfl
  rw [h11] at hun
  exact
    { length := h11
      ret := fun out => (hun out).1
      type := fun out => (hun out).2.1
      truncated := fun out => (hun out).2.2.1
      length_zero := fun out => (hun out).2.2.2.2.2.1
      seqnum := fun out => (hun out).2.2.2.2.2.2.1
      timestamp := fun out => (hun out).2.2.2.2.2.2.2.1 }

theorem emit_wellFormed {client : Client} {toSend : Packet} {type : PType} {window : Int}
    {seqnum : UInt8} {timestamp : UInt32} {replies : List Reply} (ht : type ≠ .ignore)
    (h : ∀ reply ∈ replies, reply.WellFormed crc) :
    ∀ reply ∈ emit crc client toSend type window seqnum timestamp replies,
      reply.WellFormed crc := by
  obtain ⟨bytes, hpack, hemit⟩ := emit_eq crc client toSend type window seqnum timestamp replies
  intro reply hm
  rw [hemit, List.mem_append, List.mem_singleton] at hm
  rcases hm with hm | rfl
  · exact h reply hm
  · exact wellFormed_of_pack ht hpack

theorem intake_wellFormed {cfg : HdCfg} {env : Env} {s : Intake} {d : Datagram}
    (h : ∀ reply ∈ s.replies, reply.WellFormed crc) :
    ∀ reply ∈ (intake crc cfg env s d).replies, reply.WellFormed crc := by
  generalize hs' : intake crc cfg env s d = s'
  have hcase := intake_case crc cfg env s d
  rw [hs'] at hcase
  cases hcase with
  | invalid => exact emit_wellFormed (by decide) h
  | inactive => exact emit_wellFormed (by decide) h
  | truncated => exact emit_wellFormed (by decide) h
  | outside => exact emit_wellFormed (by decide) h
  | duplicate => exact emit_wellFormed (by decide) h
  | stored => exact h
  | other => exact h

end Bytes

/-! ## The arrays suffice -/

section Reachable

variable {crc : Crc} {cfg : HdCfg} {env : Env} {client : Client} {decoded : Packet}
  {ds : List Datagram}

theorem windowed_of_reachable (h : Reachable crc cfg client) : client.session.Windowed := by
  obtain ⟨id, address, qs, rfl⟩ := h
  exact (windowed_idle_serveAll crc cfg id address qs).1

/-- The packets that the delivery loop takes from a windowed session are valid. -/
theorem valid_of_mem_ready {s : Session} (h : s.Windowed) {c : Content} (hc : c ∈ s.ready) :
    c.Valid := by
  obtain ⟨j, hj, rfl⟩ := List.mem_iff_getElem.mp hc
  have hlt : j < 32 := lt_of_lt_of_le hj (Nat.le_succ_of_le Session.ready_length_le)
  have hp : s.pending j = some s.ready[j] := by
    rw [← Session.ready_getElem? hj, List.getElem?_eq_getElem hj]
  exact (h j hlt _ hp).1

theorem length_of_mem_taken (h : client.session.Windowed) {p : Packet}
    (hp : p ∈ (intakeAll crc cfg env client decoded ds).client.window.taken) :
    p.length.toNat ≤ maxPayloadSize := by
  have hfilled : (client.filled crc ds).Windowed := h.foldl_accept fun _ => valid_of_mem_contents
  have hmem : p.content ∈ (client.filled crc ds).ready := by
    rw [← taken_filled crc cfg env client decoded ds]
    exact List.mem_map_of_mem hp
  exact (valid_of_mem_ready hfilled hmem).2.2.1

theorem entries_wellFormed {reply : Reply} (h : reply ∈ entries crc cfg env client decoded ds) :
    reply.WellFormed crc := by
  have hearly : ∀ reply ∈ (intakeAll crc cfg env client decoded ds).replies,
      reply.WellFormed crc := by
    refine foldl_invariant (I := fun s : Intake => ∀ reply ∈ s.replies, reply.WellFormed crc)
      (fun s d hs => intake_wellFormed hs) ?_ ds
    intro reply hm
    cases hm
  rcases entries_cases crc cfg env client decoded ds with ⟨he, -⟩ | ⟨_, _, _, _, hb, h₁, h₂⟩
  · rw [he] at h
    exact hearly reply h
  · rw [← h₁, h₂, List.mem_append, List.mem_singleton] at h
    rcases h with h | rfl
    · exact hearly reply h
    · exact wellFormed_of_pack (by decide) hb

/-- What `hd_run_once` needs of the arrays of `handle_thread` for one request, and what
it puts into them. -/
structure ArraysSuffice (crc : Crc) (cfg : HdCfg) (env : Env) (client : Client)
    (decoded : Packet) (ds : List Datagram) : Prop where
  entries_le : (entries crc cfg env client decoded ds).length ≤ ds.length + 1
  entries_fit : ds.length + 1 ≤ replyEntries
  payloads : ∀ p ∈ (drainOf crc cfg env client decoded ds).delivered,
    p.length.toNat ≤ maxPayloadSize
  copied : (drainOf crc cfg env client decoded ds).fileBuffer.length =
    (drainOf crc cfg env client decoded ds).offset
  offset_fits : (drainOf crc cfg env client decoded ds).offset ≤ fileBufferSize
  rounds : (drainOf crc cfg env client decoded ds).cnt ≤ maxWindowSize
  -- More fuel than the model gives the loop does not let it run longer.
  ends : ∀ fuel, maxWindowSize ≤ fuel →
    drain fuel ((intakeAll crc cfg env client decoded ds).drain env) =
      drainOf crc cfg env client decoded ds
  replies : ∀ reply ∈ entries crc cfg env client decoded ds, reply.WellFormed crc

theorem arraysSuffice_of_windowed (h : client.session.Windowed)
    (hn : ds.length ≤ maxWindowSize) : ArraysSuffice crc cfg env client decoded ds := by
  have hd : Drained _ (drainOf crc cfg env client decoded ds) _ :=
    drain_intake (intakeAll crc cfg env client decoded ds) env
  set l := (intakeAll crc cfg env client decoded ds).client.window.taken
  have hdel : (drainOf crc cfg env client decoded ds).delivered = l := hd.delivered
  have hcnt : (drainOf crc cfg env client decoded ds).cnt = l.length :=
    hd.cnt.trans (Nat.zero_add _)
  have hbuf : (drainOf crc cfg env client decoded ds).fileBuffer = l.flatMap Packet.data :=
    hd.fileBuffer
  have hlen : l.length ≤ maxWindowSize := gapless_length_le _ _
  have hpay : ∀ p ∈ l, p.length.toNat ≤ maxPayloadSize := fun p hp => length_of_mem_taken h hp
  exact
    { entries_le := entries_length_le
      entries_fit := Nat.succ_le_succ hn
      payloads := by rwa [hdel]
      copied := by
        rw [hbuf, Drain.offset, hdel, List.length_flatMap]
        exact congrArg List.sum (List.map_congr_left fun p hp => data_length (hpay p hp))
      offset_fits := by
        rw [Drain.offset, hdel, fileBufferSize]
        have := List.sum_le_card_nsmul (l.map fun p => p.length.toNat) maxPayloadSize
          (by simpa using hpay)
        rw [List.length_map, Nat.nsmul_eq_mul] at this
        exact this.trans ((Nat.mul_le_mul_right _ hlen).trans (Nat.mul_comm _ _).le)
      rounds := hcnt.trans_le hlen
      ends := fun _ hfuel => drain_fuel hfuel
      replies := fun _ => entries_wellFormed }

end Reachable

/-- The arrays of `handle_thread` hold what any request of a reachable client puts into
them, the messages sent are the entries filled or none of them, and the uninitialised
`remove` makes no difference. -/
theorem arrays_suffice {κ : Type} [DecidableEq κ] (crc : Crc) (cfg : HdCfg)
    (env : HdEnv κ) (s : HdState κ) (req : HdReq κ) (h : Reachable crc cfg (s.clients req.client)) :
    ArraysSuffice crc cfg env.toEnv (s.clients req.client) s.decoded req.datagrams ∧
      (hdRunOnce crc cfg env (some (some req)) s).2.1 <+:
        entries crc cfg env.toEnv (s.clients req.client) s.decoded req.datagrams ∧
      ∀ b, hdRunOnce crc cfg { env with remove := b } (some (some req)) s =
        hdRunOnce crc cfg env (some (some req)) s := by
  refine ⟨arraysSuffice_of_windowed (windowed_of_reachable h) req.num_le, ?_, fun b => ?_⟩
  · unfold hdRunOnce
    dsimp only
    split
    · exact List.nil_prefix
    · exact sent_isPrefix
  · simp only [hdRunOnce, handleRequest_remove]

/-- 30 datagrams that are too short and one that is delivered make 31 replies. -/
theorem arrays_suffice_example :
    let client := initializeClient 1 localhost
    let s : HdState Unit := ⟨fun _ => client, initPacket, false⟩
    let req : HdReq Unit :=
      ⟨false, (), List.replicate 30 ⟨[], 0⟩ ++ [(dataPacket 0 7 [0x61]).datagram bitwiseCrc],
        by decide⟩
    let env : HdEnv Unit := { accepted := 1, toSend := initPacket, remove := true, now := 0
                              reuses := fun _ => false }
    Reachable bitwiseCrc ⟨31⟩ (s.clients req.client) ∧
      (hdRunOnce bitwiseCrc ⟨31⟩ env (some (some req)) s).2.1.length = 31 ∧
      ArraysSuffice bitwiseCrc ⟨31⟩ env.toEnv client initPacket req.datagrams := by
  intro client s req env
  have h : Reachable bitwiseCrc ⟨31⟩ client := ⟨1, localhost, [], rfl⟩
  exact ⟨h, by decide +kernel, (arrays_suffice bitwiseCrc ⟨31⟩ env s req h).1⟩

end Trtp
