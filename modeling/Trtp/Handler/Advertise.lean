import Trtp.Handler.Calls
import Trtp.Packet.Format

/-!
# The advertised window

Every reply announces how many more packets the receiver can take.  The ACKs compute
it from `length`, the NACK computes it from `window_low`, and `pack` keeps the five
low bits of either.

An ACK is right as long as `length` is at most 31, which only a failed write can
break.  A NACK is right when the two operands happen to lead to the same five bits.
-/

namespace Trtp

open Lib

/-- A reply and the `length` of the window when it was built. -/
structure Advert where
  reply : Reply
  length : Nat

/-- The window field of the bytes sent is the smaller of the configured maximum and the
number of free places, and so exceeds neither. -/
structure Advert.Right (cfg : HdCfg) (a : Advert) : Prop where
  window : (Format.window a.reply.bytes : Int) = min cfg.maxWindowSize (maxWindowSize - a.length)
  le_max : (Format.window a.reply.bytes : Int) ≤ cfg.maxWindowSize
  le_free : Format.window a.reply.bytes + a.length ≤ maxWindowSize

section Adverts

variable (crc : Crc) (cfg : HdCfg) (env : Env)

def Intake.adverts (s : Intake) : List Datagram → List Advert
  | [] => []
  | d :: ds =>
    let s' := intake crc cfg env s d
    (s'.replies.drop s.replies.length).map (⟨·, s.client.window.length.toNat⟩) ++
      Intake.adverts s' ds

def Client.intake (client : Client) (decoded : Packet) : Intake :=
  { client := client, decoded := decoded, lastTimestamp := client.lastTimestamp, replies := [] }

/-- The replies sent for a request: none when its write fails, else those of the loop
and the ACK built after the write. -/
def adverts (client : Client) (decoded : Packet) (ds : List Datagram) : List Advert :=
  let r := handleRequest crc cfg env client decoded ds
  if r.writeFailed then []
  else
    (client.intake decoded).adverts crc cfg env ds ++
      (r.replies.drop (intakeAll crc cfg env client decoded ds).replies.length).map
        (⟨·, r.client.window.length.toNat⟩)

end Adverts

/-! ## When the field is right -/

/-- The datagram is answered with an ACK: it is not valid, or the client is closed, or it
is DATA outside the window or DATA the window has. -/
def AckDue (crc : Crc) (s : Intake) (d : Datagram) : Prop :=
  let r := d.read crc s.decoded
  r.ret ≠ .ok () ∨ s.client.active = false ∨
    r.out.type = .data ∧ r.out.truncated = false ∧
      (sequences s.client.window.windowLow r.out.seqnum = false ∨
        isUsed s.client.window r.out.seqnum = true)

/-- The datagram is answered with a NACK: it is truncated DATA. -/
def NackDue (crc : Crc) (s : Intake) (d : Datagram) : Prop :=
  let r := d.read crc s.decoded
  r.ret = .ok () ∧ s.client.active = true ∧ r.out.type = .data ∧ r.out.truncated = true

/-- `window_low` stands in for `length` without a difference: they are equal, or both
leave room for the configured maximum, or `31 - window_low` is negative and its five low
bits are the window. -/
def LowFits (max : Int) (low length : Nat) : Prop :=
  length ≤ maxWindowSize ∧
    (low = length ∨ max + low ≤ maxWindowSize ∧ max + length ≤ maxWindowSize ∨
      maxWindowSize < low ∧ ((maxWindowSize : Int) - low % 32) = min max (maxWindowSize - length))

instance (max : Int) (low length : Nat) : Decidable (LowFits max low length) :=
  inferInstanceAs (Decidable (_ ∧ _))

/-- The condition on the loop state before a datagram. -/
structure FieldFits (crc : Crc) (cfg : HdCfg) (s : Intake) (d : Datagram) : Prop where
  ack : AckDue crc s d → s.client.window.length.toNat ≤ maxWindowSize
  nack : NackDue crc s d →
    LowFits cfg.maxWindowSize s.client.window.windowLow.toNat s.client.window.length.toNat

section Field

variable {crc : Crc} {cfg : HdCfg} {env : Env}

theorem minWindow_eq (max free : Int) : minWindow max free = min max free := by
  unfold minWindow
  split_ifs with h
  · exact (min_eq_right h.le).symm
  · exact (min_eq_left (not_lt.mp h)).symm

theorem header_window (t : PType) (w : Fin 256) :
    let h : UInt8 := (t.code <<< 6) ||| (UInt8.ofNat w &&& 0x1F)
    (h ||| ((0 : UInt8) <<< 5)).toNat % 32 = w % 32 := by
  revert w
  cases t <;> decide +kernel

theorem window_of_pack {toSend : Packet} {type : PType} {window : Int} {seqnum : UInt8}
    {timestamp : UInt32} {bytes : List UInt8}
    (h : pack crc (some (replyPacket toSend type window seqnum timestamp)) false = .ok bytes) :
    (Format.window bytes : Int) = window % 32 := by
  have hw : (window % 256).toNat < 256 := by omega
  have hfield : Format.window bytes = (window % 256).toNat % 32 := by
    rw [pack, Except.ok.injEq] at h
    subst h
    exact header_window type ⟨(window % 256).toNat, hw⟩
  omega

theorem right_iff {toSend : Packet} {type : PType} {window : Int} {seqnum : UInt8}
    {timestamp : UInt32} {bytes : List UInt8} {msgName : Address} {length : Nat}
    (h : pack crc (some (replyPacket toSend type window seqnum timestamp)) false = .ok bytes) :
    Advert.Right cfg
        ⟨⟨replyPacket toSend type window seqnum timestamp, bytes, msgName⟩, length⟩ ↔
      window % 32 = min cfg.maxWindowSize (maxWindowSize - length) := by
  have hfield := window_of_pack h
  constructor
  · intro hr
    rw [← hfield, hr.window]
  · intro hw
    rw [← hfield] at hw
    refine ⟨hw, hw.trans_le (min_le_left _ _), ?_⟩
    have hfree := hw.trans_le (min_le_right _ _)
    show Format.window bytes + length ≤ maxWindowSize
    omega

variable (h0 : 0 ≤ cfg.maxWindowSize) (h31 : cfg.maxWindowSize ≤ maxWindowSize)

include h0 h31

theorem ack_window_iff (length : Nat) :
    minWindow cfg.maxWindowSize ((maxWindowSize : Int) - length) % 32 =
        min cfg.maxWindowSize ((maxWindowSize : Int) - length) ↔ length ≤ maxWindowSize := by
  rw [minWindow_eq]
  simp only [maxWindowSize] at *
  omega

theorem nack_window_iff {low : Nat} (hlow : low < 256) (length : Nat) :
    minWindow cfg.maxWindowSize ((maxWindowSize : Int) - low) % 32 =
        min cfg.maxWindowSize ((maxWindowSize : Int) - length) ↔
      LowFits cfg.maxWindowSize low length := by
  rw [minWindow_eq]
  simp only [maxWindowSize, LowFits] at *
  omega

end Field

/-! ## Requests -/

section Requests

variable {crc : Crc} {cfg : HdCfg} {env : Env} {s : Intake} {d : Datagram}
variable (h0 : 0 ≤ cfg.maxWindowSize) (h31 : cfg.maxWindowSize ≤ maxWindowSize)

include h0 h31

theorem emitAck_right_iff {client : Client} {timestamp : UInt32} {replies : List Reply} :
    (∀ reply ∈ (emitAck crc cfg client env.toSend timestamp replies).drop replies.length,
        Advert.Right cfg ⟨reply, client.window.length.toNat⟩) ↔
      client.window.length.toNat ≤ maxWindowSize := by
  obtain ⟨bytes, hpack, hemit⟩ := emit_eq crc client env.toSend .ack
    (freeWindow cfg client.window) client.window.windowLow timestamp replies
  rw [emitAck, hemit, List.drop_left, List.forall_mem_singleton, right_iff hpack]
  exact ack_window_iff h0 h31 _

theorem emitNack_right_iff {client : Client} {decoded : Packet} {replies : List Reply} :
    (∀ reply ∈ (emitNack crc cfg client env.toSend decoded replies).drop replies.length,
        Advert.Right cfg ⟨reply, client.window.length.toNat⟩) ↔
      LowFits cfg.maxWindowSize client.window.windowLow.toNat client.window.length.toNat := by
  obtain ⟨bytes, hpack, hemit⟩ := emit_eq crc client env.toSend .nack
    (minWindow cfg.maxWindowSize ((maxWindowSize : Int) - client.window.windowLow.toNat))
    decoded.seqnum decoded.timestamp replies
  rw [emitNack, hemit, List.drop_left, List.forall_mem_singleton, right_iff hpack]
  exact nack_window_iff h0 h31 client.window.windowLow.toNat_lt _

omit h0 h31 in
theorem fieldFits_ack (ha : AckDue crc s d) (hn : ¬ NackDue crc s d) :
    FieldFits crc cfg s d ↔ s.client.window.length.toNat ≤ maxWindowSize := by
  constructor
  · intro h
    exact h.ack ha
  · intro h
    exact ⟨fun _ => h, fun hd => absurd hd hn⟩

omit h0 h31 in
theorem fieldFits_nack (hn : NackDue crc s d) :
    FieldFits crc cfg s d ↔
      LowFits cfg.maxWindowSize s.client.window.windowLow.toNat
        s.client.window.length.toNat := by
  constructor
  · intro h
    exact h.nack hn
  · intro h
    exact ⟨fun _ => h.1, fun _ => h⟩

/-- The reply to one datagram, if any, is right exactly when the loop state fits. -/
theorem intake_right_iff (s : Intake) (d : Datagram) :
    (∀ reply ∈ (intake crc cfg env s d).replies.drop s.replies.length,
        Advert.Right cfg ⟨reply, s.client.window.length.toNat⟩) ↔ FieldFits crc cfg s d := by
  generalize hs' : intake crc cfg env s d = s'
  have hcase := intake_case crc cfg env s d
  rw [hs'] at hcase
  cases hcase with
  | invalid e h =>
    rw [emitAck_right_iff h0 h31]
    exact (fieldFits_ack (.inl (by rw [h]; simp)) (fun hn => by rw [hn.1] at h; cases h)).symm
  | inactive h ha =>
    refine (emitAck_right_iff h0 h31).trans (fieldFits_ack (.inr (.inl ha)) fun hn => ?_).symm
    exact absurd (ha.symm.trans hn.2.1) (by simp)
  | truncated h ha ht htr =>
    exact (emitNack_right_iff h0 h31).trans (fieldFits_nack ⟨h, ha, ht, htr⟩).symm
  | outside h ha ht htr hseq =>
    refine (emitAck_right_iff h0 h31).trans
      (fieldFits_ack (.inr (.inr ⟨ht, htr, .inl hseq⟩)) fun hn => ?_).symm
    exact absurd (htr.symm.trans hn.2.2.2) (by simp)
  | duplicate h ha ht htr hseq hused =>
    refine (emitAck_right_iff h0 h31).trans
      (fieldFits_ack (.inr (.inr ⟨ht, htr, .inr hused⟩)) fun hn => ?_).symm
    exact absurd (htr.symm.trans hn.2.2.2) (by simp)
  | stored h ha ht htr hseq hfree =>
    have hs : (s.decode (d.read crc s.decoded)).store.replies = s.replies := rfl
    rw [hs, List.drop_length]
    refine iff_of_true (by simp) ⟨fun hd => ?_, fun hd => ?_⟩
    · rcases hd with hd | hd | ⟨-, -, hd | hd⟩
      · exact absurd h hd
      · exact absurd (ha.symm.trans hd) (by simp)
      · exact absurd (hseq.symm.trans hd) (by simp)
      · exact absurd (hfree.symm.trans hd) (by simp)
    · exact absurd (htr.symm.trans hd.2.2.2) (by simp)
  | other h ha ht =>
    have hs : (s.decode (d.read crc s.decoded)).replies = s.replies := rfl
    rw [hs, List.drop_length]
    refine iff_of_true (by simp) ⟨fun hd => ?_, fun hd => absurd hd.2.2.1 ht⟩
    rcases hd with hd | hd | hd
    · exact absurd h hd
    · exact absurd (ha.symm.trans hd) (by simp)
    · exact absurd hd.1 ht

/-- The replies of the loop are right exactly when the loop state fits at every
datagram. -/
theorem adverts_right_iff (ds : List Datagram) (s : Intake) :
    (∀ a ∈ s.adverts crc cfg env ds, a.Right cfg) ↔
      Along (intake crc cfg env) (FieldFits crc cfg) s ds := by
  induction ds generalizing s with
  | nil => simp [Intake.adverts, Along]
  | cons d ds ih =>
    have hd : (∀ reply ∈ (intake crc cfg env s d).replies.drop s.replies.length,
        Advert.Right cfg ⟨reply, s.client.window.length.toNat⟩) ↔ FieldFits crc cfg s d :=
      intake_right_iff h0 h31 s d
    rw [Along, ← ih, ← hd]
    simp only [Intake.adverts, List.forall_mem_append, List.forall_mem_map]

end Requests

/-- Every reply that a request sends announces the smaller of the configured maximum and
the free places of the window, exactly when its write fails and nothing is sent, or the
loop state fits at every datagram and the delivery leaves at most 31 packets counted. -/
theorem advertised_iff (crc : Crc) (cfg : HdCfg) (env : Env) (client : Client)
    (decoded : Packet) (ds : List Datagram) (h0 : 0 ≤ cfg.maxWindowSize)
    (h31 : cfg.maxWindowSize ≤ maxWindowSize) :
    (∀ a ∈ adverts crc cfg env client decoded ds, a.Right cfg) ↔
      ¬ Session.writes env.accepted (client.filled crc ds).ready ∨
      Along (intake crc cfg env) (FieldFits crc cfg) (client.intake decoded) ds ∧
        ((client.filled crc ds).ready ≠ [] →
          ((client.filled crc ds).length - UInt8.ofNat (client.filled crc ds).ready.length).toNat ≤
            maxWindowSize) := by
  have hs : (intakeAll crc cfg env client decoded ds).client.session = client.filled crc ds :=
    intakeAll_session
  have ht := taken_filled crc cfg env client decoded ds
  have hloop : (∀ a ∈ (client.intake decoded).adverts crc cfg env ds, a.Right cfg) ↔
      Along (intake crc cfg env) (FieldFits crc cfg) (client.intake decoded) ds :=
    adverts_right_iff h0 h31 ds (client.intake decoded)
  unfold adverts
  dsimp only
  obtain ⟨hl, -, hr, -, hf⟩ | ⟨hl, hw, h1, hr, -, hf⟩ | ⟨-, hw, -, -, -, hf⟩ :=
    handleRequest_cases crc cfg env client decoded ds
  · -- Nothing is delivered.
    have hnil : (client.filled crc ds).ready = [] := by rw [← ht, hl, List.map_nil]
    have hw : Session.writes env.accepted ([] : List Content) := Nat.zero_le _
    rw [hf, hr, List.drop_length, List.map_nil, List.append_nil, if_neg (by simp), hloop]
    simp [hw, hnil]
  · -- The write succeeds and one more ACK is sent.
    have hne : (client.filled crc ds).ready ≠ [] := by
      rw [← ht]
      simpa using hl
    rw [ht, hs] at h1
    rw [ht] at hw
    have hlen : (handleRequest crc cfg env client decoded ds).client.window.length =
        (client.filled crc ds).length - UInt8.ofNat (client.filled crc ds).ready.length :=
      congrArg Session.length h1
    rw [hf, hr, if_neg (by simp), List.forall_mem_append, hloop, List.forall_mem_map,
      emitAck_right_iff h0 h31, hlen]
    simp [hw, hne]
  · -- The write fails and nothing is sent.
    rw [ht] at hw
    rw [hf, if_pos rfl]
    exact iff_of_true (by simp) (.inl hw)

def oneDelivered : Client :=
  (Run.serveAll bitwiseCrc ⟨31⟩ (Run.start 1 localhost)
    [Call.sending [dataPacket 0 0 [0x61]] (by decide)]).client

/-- The datagram of packet 1, truncated on its way. -/
def truncatedOne : Datagram :=
  Packet.datagram bitwiseCrc { dataPacket 1 0 [] with truncated := true }

def oneRound : Client :=
  (Run.serveAll bitwiseCrc ⟨31⟩ (Run.start 1 localhost)
    [Call.sending ((List.range 31).map fun i => dataPacket (UInt8.ofNat i) 0 [0x61])
        (by rw [List.length_map, List.length_range]; exact le_refl 31),
      Call.sending [dataPacket 31 0 [0x61]] (by decide)]).client

/-- Packet 31 once more, and packet 32 truncated on its way. -/
def lateAndTruncated : List Datagram :=
  [(dataPacket 31 0 [0x61]).datagram bitwiseCrc,
    Packet.datagram bitwiseCrc { dataPacket 32 0 [] with truncated := true }]

/-- The ACK for the one and the NACK for the other.  At window_low 32 the difference that the
NACK is computed from is -1, of which the five bits say 31. -/
theorem advertised_iff_duplicate :
    (adverts bitwiseCrc ⟨31⟩ (Call.sending [] (by decide)).env oneRound initPacket
        lateAndTruncated).map (fun a => a.reply.toSend.type) = [.ack, .nack] ∧
      ∀ a ∈ adverts bitwiseCrc ⟨31⟩ (Call.sending [] (by decide)).env oneRound initPacket
        lateAndTruncated, a.Right ⟨31⟩ := by
  refine ⟨by decide +kernel,
    (advertised_iff bitwiseCrc ⟨31⟩ _ oneRound initPacket _ (by decide) (by decide)).mpr
      (.inr ⟨⟨⟨fun _ => ?_, fun h => ?_⟩, ⟨fun _ => ?_, fun _ => ?_⟩, trivial⟩,
        fun h => absurd ?_ h⟩)⟩
  · decide +kernel
  · exact absurd h.2.2.2 (by decide +kernel)
  · decide +kernel
  · decide +kernel
  · decide +kernel

/-- The NACK for the truncated packet announces 30 places where 31 are free. -/
theorem not_advertised_nack :
    ∃ c, Reachable bitwiseCrc ⟨31⟩ c ∧
      ¬ ∀ a ∈ adverts bitwiseCrc ⟨31⟩ (Call.sending [] (by decide)).env c initPacket
        [truncatedOne], a.Right ⟨31⟩ := by
  refine ⟨oneDelivered, ⟨1, localhost, _, rfl⟩, fun h => ?_⟩
  have hfields : (adverts bitwiseCrc ⟨31⟩ (Call.sending [] (by decide)).env oneDelivered initPacket
      [truncatedOne]).map (fun a => (Format.window a.reply.bytes, a.length)) = [(30, 0)] := by
    decide +kernel
  obtain ⟨a, ha, hw⟩ := List.mem_map.mp (hfields ▸ List.mem_singleton_self (30, 0))
  obtain ⟨hwin, hlen⟩ := Prod.mk.inj hw
  have hright := (h a ha).window
  rw [hwin, hlen] at hright
  cases hright

end Trtp
