import Trtp.Handler.Run
import Trtp.Handler.Session

/-!
# The handler refines the session

`handleRequest_session`: a request acts on the session of its client by
`Session.step`, whatever the scratch packet, the uninitialised locals and the
unused slots hold.
-/

namespace Trtp

open Lib

def Buf.held (b : Buf) (k : Fin maxBufferSize) : Option Packet :=
  if (b.nodes k).used then some (b.nodes k).value else none

def Client.session (c : Client) : Session :=
  { file := c.outFile
    low := c.window.windowLow
    length := c.window.length
    slots := fun k => (c.window.held k).map Packet.content
    active := c.active
    transferred := c.transferred
    lastTimestamp := c.lastTimestamp }

theorem used_iff_isSome {c : Client} {k : Fin maxBufferSize} :
    (c.window.nodes k).used = true ↔ (c.session.slots k).isSome = true := by
  simp [Client.session, Buf.held]

def Datagram.read (crc : Crc) (d : Datagram) (out : Packet) : Unpacked :=
  unpack crc d.buffer d.length.toNat out

/-- The packet accepted from a datagram, read into a fresh `packet_t`. -/
def Datagram.content? (crc : Crc) (d : Datagram) : Option Content :=
  (d.read crc initPacket).content?

def contents (crc : Crc) (ds : List Datagram) : List Content := ds.filterMap (Datagram.content? crc)

/-! ## The loop over the datagrams -/

section Intake

variable {crc : Crc} {cfg : HdCfg} {env : Env} {s : Intake} {d : Datagram}

def Intake.decode (s : Intake) (r : Unpacked) : Intake :=
  { s with decoded := r.out, lastTimestamp := r.out.timestamp }

/-- What the handler does with one datagram: the seven paths through the body of
the loop, each with its tests. -/
inductive IntakeCase (crc : Crc) (cfg : HdCfg) (env : Env) (s : Intake) (d : Datagram) :
    Intake → Prop
  | invalid (e : Errors) (h : (d.read crc s.decoded).ret = .error e) :
    IntakeCase crc cfg env s d { s with
      decoded := (d.read crc s.decoded).out
      replies := emitAck crc cfg s.client env.toSend s.client.lastTimestamp s.replies }
  | inactive (h : (d.read crc s.decoded).ret = .ok ()) (ha : s.client.active = false) :
    IntakeCase crc cfg env s d { s.decode (d.read crc s.decoded) with
      replies := emitAck crc cfg s.client env.toSend (d.read crc s.decoded).out.timestamp
        s.replies }
  | truncated (h : (d.read crc s.decoded).ret = .ok ()) (ha : s.client.active = true)
      (ht : (d.read crc s.decoded).out.type = .data)
      (htr : (d.read crc s.decoded).out.truncated = true) :
    IntakeCase crc cfg env s d { s.decode (d.read crc s.decoded) with
      replies := emitNack crc cfg s.client env.toSend (d.read crc s.decoded).out s.replies }
  | outside (h : (d.read crc s.decoded).ret = .ok ()) (ha : s.client.active = true)
      (ht : (d.read crc s.decoded).out.type = .data)
      (htr : (d.read crc s.decoded).out.truncated = false)
      (hseq : sequences s.client.window.windowLow (d.read crc s.decoded).out.seqnum = false) :
    IntakeCase crc cfg env s d { s.decode (d.read crc s.decoded) with
      replies := emitAck crc cfg s.client env.toSend (d.read crc s.decoded).out.timestamp
        s.replies }
  | duplicate (h : (d.read crc s.decoded).ret = .ok ()) (ha : s.client.active = true)
      (ht : (d.read crc s.decoded).out.type = .data)
      (htr : (d.read crc s.decoded).out.truncated = false)
      (hseq : sequences s.client.window.windowLow (d.read crc s.decoded).out.seqnum = true)
      (hused : isUsed s.client.window (d.read crc s.decoded).out.seqnum = true) :
    IntakeCase crc cfg env s d { s.decode (d.read crc s.decoded) with
      replies := emitAck crc cfg s.client env.toSend (d.read crc s.decoded).out.timestamp
        s.replies }
  | stored (h : (d.read crc s.decoded).ret = .ok ()) (ha : s.client.active = true)
      (ht : (d.read crc s.decoded).out.type = .data)
      (htr : (d.read crc s.decoded).out.truncated = false)
      (hseq : sequences s.client.window.windowLow (d.read crc s.decoded).out.seqnum = true)
      (hfree : isUsed s.client.window (d.read crc s.decoded).out.seqnum = false) :
    IntakeCase crc cfg env s d (s.decode (d.read crc s.decoded)).store
  | other (h : (d.read crc s.decoded).ret = .ok ()) (ha : s.client.active = true)
      (ht : (d.read crc s.decoded).out.type ≠ .data) :
    IntakeCase crc cfg env s d (s.decode (d.read crc s.decoded))

theorem intake_case (crc : Crc) (cfg : HdCfg) (env : Env) (s : Intake) (d : Datagram) :
    IntakeCase crc cfg env s d (intake crc cfg env s d) := by
  unfold intake
  rw [show unpack crc d.buffer d.length.toNat s.decoded = d.read crc s.decoded from rfl]
  cases h : (d.read crc s.decoded).ret with
  | error e => simpa only [h] using IntakeCase.invalid e h
  | ok u =>
    simp only [h]
    cases ha : s.client.active with
    | false => simpa [ha, Intake.decode] using IntakeCase.inactive h ha
    | true =>
      by_cases ht : (d.read crc s.decoded).out.type = .data
      · cases htr : (d.read crc s.decoded).out.truncated with
        | true => simpa [Intake.decode, ha, ht, htr] using IntakeCase.truncated h ha ht htr
        | false =>
          cases hseq : sequences s.client.window.windowLow (d.read crc s.decoded).out.seqnum with
          | false =>
            simpa [Intake.decode, ha, ht, htr, hseq] using IntakeCase.outside h ha ht htr hseq
          | true =>
            cases hused : isUsed s.client.window (d.read crc s.decoded).out.seqnum with
            | true =>
              simpa [Intake.decode, ha, ht, htr, hseq, hused] using
                IntakeCase.duplicate h ha ht htr hseq hused
            | false =>
              simpa [Intake.decode, ha, ht, htr, hseq, hused] using
                IntakeCase.stored h ha ht htr hseq hused
      · simpa [Intake.decode, ha, ht] using IntakeCase.other h ha ht

theorem held_eq_none_iff {b : Buf} {k : Fin maxBufferSize} :
    b.held k = none ↔ (b.nodes k).used = false := by
  unfold Buf.held
  cases (b.nodes k).used <;> simp

theorem store_session (ha : s.client.active = true)
    (hseq : sequences s.client.window.windowLow s.decoded.seqnum = true)
    (hfree : isUsed s.client.window s.decoded.seqnum = false) :
    s.store.client.session = s.client.session.accept s.decoded.content := by
  have hnone : s.client.session.slots (slot s.decoded.seqnum) = none := by
    show (s.client.window.held (slot s.decoded.seqnum)).map Packet.content = none
    rw [held_eq_none_iff.mpr hfree]
    rfl
  have hcond : s.client.session.active = true ∧
      sequences s.client.session.low s.decoded.content.seqnum = true ∧
      s.client.session.slots (slot s.decoded.content.seqnum) = none := ⟨ha, hseq, hnone⟩
  rw [Session.accept, if_pos hcond]
  simp only [Intake.store, next, Client.session, Session.mk.injEq, true_and, and_true]
  funext k
  by_cases hk : k = slot s.decoded.seqnum
  · subst hk
    simp [Buf.held, Packet.content]
  · have hk' : k ≠ slot s.decoded.content.seqnum := hk
    simp [Buf.held, hk, hk']

theorem content?_of_rejected {out : Packet} (h : (d.read crc out).accepted = false) :
    d.content? crc = none := by
  have hd : d.content? crc = (d.read crc out).content? := unpack_content? _ _ _
  rw [hd, Unpacked.content?, h]
  rfl

theorem content?_of_accepted {out : Packet} (hret : (d.read crc out).ret = .ok ())
    (ht : (d.read crc out).out.type = .data) (htr : (d.read crc out).out.truncated = false) :
    d.content? crc = some (d.read crc out).out.content := by
  have hd : d.content? crc = (d.read crc out).content? := unpack_content? _ _ _
  rw [hd, Unpacked.content?, accepted_iff.mpr ⟨hret, ht, htr⟩]
  rfl

/-- One datagram acts on the session through the packet accepted from it. -/
theorem intake_session :
    (intake crc cfg env s d).client.session =
      (d.content? crc).elim s.client.session s.client.session.accept := by
  generalize hs' : intake crc cfg env s d = s'
  have hcase := intake_case crc cfg env s d
  rw [hs'] at hcase
  cases hcase with
  | invalid e h =>
    have : (d.read crc s.decoded).accepted = false := by
      rw [Bool.eq_false_iff]
      intro ha
      rw [(accepted_iff.mp ha).1] at h
      cases h
    rw [content?_of_rejected this]
    rfl
  | inactive h ha =>
    cases d.content? crc with
    | none => rfl
    | some c => exact (Session.accept_of_inactive (s := s.client.session) ha c).symm
  | truncated h ha ht htr =>
    have : (d.read crc s.decoded).accepted = false := by
      simp [Unpacked.accepted, htr]
    rw [content?_of_rejected this]
    rfl
  | outside h ha ht htr hseq =>
    rw [content?_of_accepted h ht htr]
    have hn : ¬ sequences s.client.session.low (d.read crc s.decoded).out.content.seqnum = true :=
      Bool.eq_false_iff.mp hseq
    exact (if_neg fun hc => hn hc.2.1).symm
  | duplicate h ha ht htr hseq hused =>
    rw [content?_of_accepted h ht htr]
    have hfull : ¬ s.client.session.slots (slot (d.read crc s.decoded).out.content.seqnum) =
        none := by
      intro hn
      have hn := held_eq_none_iff.mp (Option.map_eq_none_iff.mp hn)
      rw [isUsed] at hused
      rw [show slot (d.read crc s.decoded).out.seqnum =
        slot (d.read crc s.decoded).out.content.seqnum from rfl, hn] at hused
      cases hused
    exact (if_neg fun hc => hfull hc.2.2).symm
  | stored h ha ht htr hseq hfree =>
    rw [content?_of_accepted h ht htr]
    exact store_session (s := s.decode (d.read crc s.decoded)) ha hseq hfree
  | other h ha ht =>
    have : (d.read crc s.decoded).accepted = false := by
      simp [Unpacked.accepted, ht]
    rw [content?_of_rejected this]
    rfl

theorem foldl_intake_session (ds : List Datagram) :
    (ds.foldl (intake crc cfg env) s).client.session =
      (contents crc ds).foldl Session.accept s.client.session := by
  induction ds generalizing s with
  | nil => rfl
  | cons d ds ih =>
    rw [List.foldl_cons, ih, intake_session, contents, contents, List.filterMap_cons]
    cases d.content? crc <;> rfl

end Intake

/-! ## The delivery loop -/

section Drain

def Buf.pending (b : Buf) (j : Nat) : Option Packet := b.held (slot (seqAt b.windowLow j))

def Packet.isEnd (p : Packet) : Bool := p.length = 0

/-- The packets the delivery loop takes from position `j` on. -/
def Buf.ready (b : Buf) (fuel j : Nat) : List Packet := gapless b.pending Packet.isEnd fuel j

theorem get_none {b : Buf} {seqnum : UInt8} (h : b.held (slot seqnum) = none) :
    get b seqnum false = (b, none) := by
  simp [get, held_eq_none_iff.mp h]

theorem get_some {b : Buf} {seqnum : UInt8} {p : Packet} (h : b.held (slot seqnum) = some p) :
    ∃ b', get b seqnum false = (b', some p) ∧ b'.windowLow = b.windowLow ∧
      b'.length = b.length ∧
      ∀ k, b'.held k = if k = slot seqnum then none else b.held k := by
  have hused : (b.nodes (slot seqnum)).used = true := by
    by_contra hn
    rw [held_eq_none_iff.mpr (by simpa using hn)] at h
    cases h
  have hval : (b.nodes (slot seqnum)).value = p := by
    simpa [Buf.held, hused] using h
  let nodes := Function.update b.nodes (slot seqnum) { b.nodes (slot seqnum) with used := false }
  refine ⟨{ b with nodes := nodes }, ?_, rfl, rfl, fun k => ?_⟩
  · simp [get, hused, hval, nodes]
  by_cases hk : k = slot seqnum
  · subst hk
    simp [Buf.held, nodes]
  · simp [Buf.held, nodes, hk]

/-- What the delivery loop, entered at position `j`, adds to its variables. -/
structure Drained (d d' : Drain) (l : List Packet) : Prop where
  low : d'.window.windowLow = d.window.windowLow
  length : d'.window.length = d.window.length
  gone : ∀ m, d.cnt ≤ m → m < d.cnt + l.length →
    d'.window.held (slot (seqAt d.window.windowLow m)) = none
  kept : ∀ k, (∀ m, d.cnt ≤ m → m < d.cnt + l.length → slot (seqAt d.window.windowLow m) ≠ k) →
    d'.window.held k = d.window.held k
  fileBuffer : d'.fileBuffer = d.fileBuffer ++ l.flatMap Packet.data
  lastTimestamp : d'.lastTimestamp = (l.getLast?.map Packet.timestamp).getD d.lastTimestamp
  cnt : d'.cnt = d.cnt + l.length
  remove : d'.remove = if l = [] then d.remove else l.any Packet.isEnd
  delivered : d'.delivered = d.delivered ++ l

theorem Drained.refl (d : Drain) : Drained d d [] where
  low := rfl
  length := rfl
  gone m h1 h2 := by
    rw [List.length_nil] at h2
    omega
  kept k _ := rfl
  fileBuffer := by simp
  lastTimestamp := rfl
  cnt := rfl
  remove := rfl
  delivered := by simp

theorem data_of_length_zero {p : Packet} (h : p.length = 0) : p.data = [] := by
  simp [Packet.data, h]

theorem seqAt_index {d : Drain} (hi : d.i = d.window.windowLow.toNat + d.cnt) :
    UInt8.ofNat (d.i % 256) = seqAt d.window.windowLow d.cnt := by
  apply UInt8.toNat_inj.mp
  rw [UInt8.toNat_ofNat', seqAt_toNat, hi]
  omega

theorem drainStep_some {d : Drain} {p : Packet}
    (hi : d.i = d.window.windowLow.toNat + d.cnt) (hp : d.window.pending d.cnt = some p) :
    ∃ d', drainStep d = (d', true) ∧ d'.i = d'.window.windowLow.toNat + d'.cnt ∧
      Drained d d' [p] ∧ d'.remove = p.isEnd := by
  obtain ⟨b', hget, hlow, hlen, hheld⟩ :=
    get_some (show d.window.held (slot (seqAt d.window.windowLow d.cnt)) = some p from hp)
  have hremove : (if p.length > 0 then false
      else if p.length = 0 ∧ !d.remove then true else d.remove) = p.isEnd := by
    by_cases hz : p.length = 0
    · cases hr : d.remove <;> simp [Packet.isEnd, hz]
    · simp [Packet.isEnd, hz, UInt16.pos_iff_ne_zero.mpr hz]
  have hbuf : (if p.length > 0 then d.fileBuffer ++ p.data else d.fileBuffer) =
      d.fileBuffer ++ p.data := by
    by_cases hz : p.length = 0
    · simp [hz, data_of_length_zero hz]
    · simp [UInt16.pos_iff_ne_zero.mpr hz]
  refine ⟨_, by simp only [drainStep, seqAt_index hi, hget]; rfl, ?_, ?_, hremove⟩
  · simp only [hlow, hi]
    omega
  · refine ⟨hlow, hlen, fun m h1 h2 => ?_, fun k hk => ?_, ?_, rfl, rfl, ?_, rfl⟩
    · rw [List.length_singleton] at h2
      rw [show m = d.cnt by omega, hheld, if_pos rfl]
    · rw [hheld, if_neg]
      rintro rfl
      exact hk d.cnt (le_refl _) (by simp) rfl
    · simpa using hbuf
    · simpa using hremove

theorem drainStep_none {d : Drain} (hi : d.i = d.window.windowLow.toNat + d.cnt)
    (hp : d.window.pending d.cnt = none) : drainStep d = (d, false) := by
  simp only [drainStep, seqAt_index hi, get_none hp]

theorem Drained.cons {d d₁ d₂ : Drain} {p : Packet} {l : List Packet} (h₁ : Drained d d₁ [p])
    (h₂ : Drained d₁ d₂ l) (hr : d₁.remove = p.isEnd) (hp : p.isEnd = false) :
    Drained d d₂ (p :: l) where
  low := h₂.low.trans h₁.low
  length := h₂.length.trans h₁.length
  gone m h1 h2 := by
    have hc := h₁.cnt
    rw [List.length_singleton] at hc
    rw [List.length_cons] at h2
    by_cases hm : m = d.cnt
    · -- The first slot was released by the first round and is not touched again.
      have hfirst := h₁.gone m h1 (by simp [hm])
      by_cases hlater : ∃ m', d₁.cnt ≤ m' ∧ m' < d₁.cnt + l.length ∧
          slot (seqAt d₁.window.windowLow m') = slot (seqAt d.window.windowLow m)
      · obtain ⟨m', h3, h4, h5⟩ := hlater
        rw [← h5]
        exact h₂.gone m' h3 h4
      · rw [h₂.kept _ fun m' h3 h4 h5 => hlater ⟨m', h3, h4, h5⟩]
        exact hfirst
    · have := h₂.gone m (by omega) (by omega)
      rwa [h₁.low] at this
  kept k hk := by
    have hc := h₁.cnt
    rw [List.length_singleton] at hc
    rw [List.length_cons] at hk
    rw [h₂.kept k, h₁.kept k]
    · intro m h1 h2
      rw [List.length_singleton] at h2
      exact hk m h1 (by omega)
    · intro m h1 h2
      rw [h₁.low]
      exact hk m (by omega) (by omega)
  fileBuffer := by
    rw [h₂.fileBuffer, h₁.fileBuffer]
    simp
  lastTimestamp := by
    rw [h₂.lastTimestamp, h₁.lastTimestamp]
    cases l with
    | nil => rfl
    | cons q l => simp [List.getLast?_eq_some_getLast]
  cnt := by
    rw [h₂.cnt, h₁.cnt, List.length_singleton, List.length_cons]
    omega
  remove := by
    rw [h₂.remove, hr, hp]
    cases l <;> simp [hp]
  delivered := by
    rw [h₂.delivered, h₁.delivered]
    simp

/-- The delivery loop takes the gapless run of the window. -/
theorem drain_spec {fuel : Nat} {d : Drain} (hfuel : d.cnt + fuel = maxWindowSize)
    (hi : d.i = d.window.windowLow.toNat + d.cnt) :
    Drained d (drain fuel d) (d.window.ready fuel d.cnt) := by
  induction fuel generalizing d with
  | zero => exact Drained.refl d
  | succ fuel ih =>
    cases hp : d.window.pending d.cnt with
    | none =>
      rw [Buf.ready, gapless_none hp, drain, drainStep_none hi hp]
      simpa using Drained.refl d
    | some p =>
      obtain ⟨d', hstep, hi', hd, hr⟩ := drainStep_some hi hp
      have hc : d'.cnt = d.cnt + 1 := hd.cnt
      have hw : maxWindowSize = 31 := rfl
      have hcond : (sequences d'.window.windowLow (UInt8.ofNat (d'.i % 256)) && true &&
          decide (d'.cnt < maxWindowSize) && !d'.remove) = (decide (0 < fuel) && !p.isEnd) := by
        rw [seqAt_index hi', sequences_seqAt (by omega), hr, Bool.and_true, Bool.and_self]
        congr 2
        simp only [eq_iff_iff]
        omega
      rw [Buf.ready, drain, hstep]
      simp only [hcond]
      cases he : p.isEnd with
      | true =>
        rw [gapless_stop hp he]
        simpa [he] using hd
      | false =>
        rw [gapless_cons hp he]
        cases fuel with
        | zero => simpa [he] using hd
        | succ fuel =>
          have hrest := ih (d := d') (by omega) hi'
          have hsame : d'.window.ready (fuel + 1) d'.cnt =
              gapless d.window.pending Packet.isEnd (fuel + 1) (d.cnt + 1) := by
            rw [Buf.ready, hc]
            refine gapless_congr fun j h1 h2 => ?_
            rw [Buf.pending, hd.low, hd.kept]
            · rfl
            · intro m h3 h4 h5
              rw [List.length_singleton] at h4
              rw [slot_seqAt_eq_iff (by omega) (by omega)] at h5
              omega
          rw [hsame] at hrest
          simpa [he] using hd.cons hrest hr he

end Drain

/-! ## A whole request -/

section Request

variable {crc : Crc} {cfg : HdCfg} {env : Env} {client : Client} {decoded : Packet}
  {ds : List Datagram}

def intakeAll (crc : Crc) (cfg : HdCfg) (env : Env) (client : Client) (decoded : Packet)
    (ds : List Datagram) : Intake :=
  ds.foldl (intake crc cfg env)
    { client := client, decoded := decoded, lastTimestamp := client.lastTimestamp, replies := [] }

theorem intakeAll_session :
    (intakeAll crc cfg env client decoded ds).client.session =
      (contents crc ds).foldl Session.accept client.session :=
  foldl_intake_session ds

def Buf.taken (b : Buf) : List Packet := b.ready maxWindowSize 0

theorem taken_content (c : Client) : c.window.taken.map Packet.content = c.session.ready :=
  (gapless_map Packet.content Content.isEnd maxWindowSize 0).symm

theorem flatMap_content (l : List Packet) :
    (l.map Packet.content).flatMap Content.data = l.flatMap Packet.data := by
  rw [List.flatMap_map]
  rfl

theorem any_content (l : List Packet) :
    (l.map Packet.content).any Content.isEnd = l.any Packet.isEnd := by
  rw [List.any_map]
  rfl

theorem getLast?_content (l : List Packet) (t : UInt32) :
    (((l.map Packet.content).getLast?).map Content.timestamp).getD t =
      (l.getLast?.map Packet.timestamp).getD t := by
  rw [List.getLast?_map, Option.map_map]
  rfl

theorem Drained.slots {d d' : Drain} {l : List Packet} (h : Drained d d' l) (hc : d.cnt = 0)
    (hl : l.length ≤ 32) (s : Session)
    (hs : s.slots = fun k => (d.window.held k).map Packet.content)
    (hlow : s.low = d.window.windowLow) :
    (fun k => (d'.window.held k).map Packet.content) = s.clear l.length := by
  funext k
  obtain ⟨j, hj, rfl⟩ := exists_slot s.low k
  rw [Session.clear_slot hl hj, Session.pending, hs, hlow]
  by_cases hjl : j < l.length
  · rw [if_pos hjl, h.gone j (by omega) (by omega)]
    rfl
  · rw [if_neg hjl, h.kept]
    intro m _ h2 h3
    rw [slot_seqAt_eq_iff (by omega) hj] at h3
    omega

theorem advance_session {d d₀ : Drain} {l : List Packet} (h : Drained d₀ d l) (hc : d₀.cnt = 0)
    (hw : d₀.window = client.window) (hbuf : d₀.fileBuffer = []) (hl : l ≠ [])
    (hlen : l.length ≤ 32) :
    (advance env client (client.outFile.write d.fileBuffer) d).session =
      client.session.commit (l.map Packet.content) := by
  have hslots := h.slots hc hlen client.session (by rw [hw]; rfl) (by rw [hw]; rfl)
  have hcnt : d.cnt = l.length := by rw [h.cnt, hc, Nat.zero_add]
  have hfile : d.fileBuffer = l.flatMap Packet.data := by rw [h.fileBuffer, hbuf, List.nil_append]
  have hrem : d.remove = l.any Packet.isEnd := by rw [h.remove, if_neg hl]
  have hlast : d.lastTimestamp = (l.getLast?.map Packet.timestamp).getD client.lastTimestamp := by
    rw [h.lastTimestamp, List.getLast?_eq_some_getLast hl]
    rfl
  have hlow := h.low
  have hlength := h.length
  rw [hw] at hlow hlength
  rw [Session.commit, flatMap_content, any_content, getLast?_content, List.length_map, ← hslots]
  unfold advance
  simp only [hcnt, hfile, hrem, hlast, hlow, hlength]
  cases he : l.any Packet.isEnd <;> cases ha : client.active <;>
    simp [Client.session, ha, Buf.held]

def Intake.drain (s : Intake) (env : Env) : Drain :=
  { window := s.client.window, fileBuffer := [], lastTimestamp := s.lastTimestamp, cnt := 0
    i := s.client.window.windowLow.toNat, remove := env.remove, delivered := [] }

theorem drain_intake (s : Intake) (env : Env) :
    Drained (s.drain env) (drain maxWindowSize (s.drain env)) s.client.window.taken :=
  drain_spec (d := s.drain env) rfl rfl

theorem deliver_written {s : Intake} {d : Drain} {l : List Packet}
    (hd : Drained (s.drain env) d l) (hl : l ≠ []) (hlen : l.length ≤ 32)
    (hw : Session.writes env.accepted (l.map Packet.content)) :
    let r := deliver crc cfg env s d
    r.client.session = s.client.session.commit (l.map Packet.content) ∧
      r.replies = emitAck crc cfg r.client env.toSend
        ((l.getLast?.map Packet.timestamp).getD s.lastTimestamp) s.replies ∧
      r.delivered = l ∧ r.writeFailed = false := by
  intro r
  have hbuf : d.fileBuffer = l.flatMap Packet.data := hd.fileBuffer
  have hres : (s.client.outFile.fwrite env.accepted d.fileBuffer).1 = d.fileBuffer.length := by
    rw [Session.writes, flatMap_content, ← hbuf] at hw
    exact Nat.min_eq_right hw
  have hr : r = { client := advance env s.client (s.client.outFile.write d.fileBuffer) d
                  decoded := s.decoded
                  replies := emitAck crc cfg
                    (advance env s.client (s.client.outFile.write d.fileBuffer) d) env.toSend
                    d.lastTimestamp s.replies
                  delivered := d.delivered
                  writeFailed := false } := by
    show deliver crc cfg env s d = _
    rw [deliver, File.fwrite_of_result hres]
    simp
  refine ⟨?_, ?_, ?_, by rw [hr]⟩
  · rw [hr]
    exact advance_session hd rfl rfl rfl hl hlen
  · rw [hr, hd.lastTimestamp]
    rfl
  · rw [hr, hd.delivered]
    rfl

theorem deliver_lost {s : Intake} {d : Drain} {l : List Packet}
    (hd : Drained (s.drain env) d l) (hlen : l.length ≤ 32)
    (hw : ¬ Session.writes env.accepted (l.map Packet.content)) :
    let r := deliver crc cfg env s d
    r.client.session = s.client.session.lose (l.map Packet.content) env.accepted ∧
      r.replies = [] ∧ r.delivered = [] ∧ r.writeFailed = true := by
  intro r
  have hbuf : d.fileBuffer = l.flatMap Packet.data := hd.fileBuffer
  have hshort : env.accepted < d.fileBuffer.length := by
    rw [Session.writes, flatMap_content, ← hbuf] at hw
    exact not_le.mp hw
  have hres : s.client.outFile.fwrite env.accepted d.fileBuffer =
      (env.accepted, s.client.outFile.write (d.fileBuffer.take env.accepted)) := by
    rw [File.fwrite, Nat.min_eq_left (Nat.le_of_lt hshort)]
  have hne : env.accepted ≠ d.fileBuffer.length := Nat.ne_of_lt hshort
  have hslots := hd.slots rfl hlen s.client.session rfl rfl
  have hr : r = { client := { s.client with
                    window := d.window
                    outFile := (s.client.outFile.write
                      (d.fileBuffer.take env.accepted)).fseekSet env.accepted }
                  decoded := s.decoded, replies := [], delivered := []
                  writeFailed := true } := by
    show deliver crc cfg env s d = _
    rw [deliver, hres]
    simp [hne]
  refine ⟨?_, by rw [hr], by rw [hr], by rw [hr]⟩
  rw [hr, Session.lose, flatMap_content, ← hbuf, List.length_map, ← hslots]
  simp only [Client.session, hd.low, hd.length, Intake.drain]

/-- A request delivers nothing, or delivers the packets taken from the window,
or takes them and fails to write them. -/
theorem handleRequest_cases (crc : Crc) (cfg : HdCfg) (env : Env) (client : Client)
    (decoded : Packet) (ds : List Datagram) :
    let s := intakeAll crc cfg env client decoded ds
    let l := s.client.window.taken
    let r := handleRequest crc cfg env client decoded ds
    (l = [] ∧ r.client.session = s.client.session ∧ r.replies = s.replies ∧ r.delivered = [] ∧
        r.writeFailed = false) ∨
      (l ≠ [] ∧ Session.writes env.accepted (l.map Packet.content) ∧
        r.client.session = s.client.session.commit (l.map Packet.content) ∧
        r.replies = emitAck crc cfg r.client env.toSend
          ((l.getLast?.map Packet.timestamp).getD s.lastTimestamp) s.replies ∧
        r.delivered = l ∧ r.writeFailed = false) ∨
      (l ≠ [] ∧ ¬ Session.writes env.accepted (l.map Packet.content) ∧
        r.client.session = s.client.session.lose (l.map Packet.content) env.accepted ∧
        r.replies = [] ∧ r.delivered = [] ∧ r.writeFailed = true) := by
  intro s l r
  let d := drain maxWindowSize (s.drain env)
  have hd : Drained (s.drain env) d l := drain_intake s env
  have hr : r = if d.cnt > 0 then deliver crc cfg env s d
      else { client := { s.client with window := d.window }, decoded := s.decoded
             replies := s.replies, delivered := [], writeFailed := false } := rfl
  have hcnt : d.cnt = l.length := by
    rw [hd.cnt]
    exact Nat.zero_add _
  have hlen : l.length ≤ 32 := Nat.le_succ_of_le (gapless_length_le _ _)
  by_cases hl : l = []
  · left
    have hz : ¬ d.cnt > 0 := by simp [hcnt, hl]
    rw [if_neg hz] at hr
    have hk : ∀ k, d.window.held k = s.client.window.held k := fun k =>
      hd.kept k fun m _ h2 => absurd h2 (by simp [hl, Intake.drain])
    refine ⟨hl, ?_, by rw [hr], by rw [hr], by rw [hr]⟩
    rw [hr]
    simp only [Client.session, hk, hd.low, hd.length, Intake.drain]
  · right
    have hpos : d.cnt > 0 := by
      rw [hcnt]
      exact List.length_pos_iff.mpr hl
    rw [if_pos hpos] at hr
    rw [hr]
    by_cases hw : Session.writes env.accepted (l.map Packet.content)
    · exact .inl ⟨hl, hw, deliver_written hd hl hlen hw⟩
    · exact .inr ⟨hl, hw, deliver_lost hd hlen hw⟩

/-- A request acts on the session of its client by `Session.step`. -/
theorem handleRequest_session :
    (handleRequest crc cfg env client decoded ds).client.session =
      client.session.step env.accepted (contents crc ds) := by
  have hs : (intakeAll crc cfg env client decoded ds).client.session =
      (contents crc ds).foldl Session.accept client.session := intakeAll_session
  have ht := taken_content (intakeAll crc cfg env client decoded ds).client
  rw [Session.step, ← hs, Session.deliver, ← ht]
  obtain ⟨hl, h, -⟩ | ⟨hl, hw, h, -⟩ | ⟨hl, hw, h, -⟩ :=
    handleRequest_cases crc cfg env client decoded ds
  · rw [if_pos (by rw [hl]; rfl), h]
  · rw [if_neg (by simpa using hl), if_pos hw, h]
  · rw [if_neg (by simpa using hl), if_neg hw, h]

/-- A request that does not fail to write delivers what is ready. -/
theorem handleRequest_written
    (h : (handleRequest crc cfg env client decoded ds).writeFailed = false) :
    (handleRequest crc cfg env client decoded ds).client.session =
        ((contents crc ds).foldl Session.accept client.session).flush ∧
      (handleRequest crc cfg env client decoded ds).delivered.map Packet.content =
        ((contents crc ds).foldl Session.accept client.session).ready := by
  have hs : (intakeAll crc cfg env client decoded ds).client.session =
      (contents crc ds).foldl Session.accept client.session := intakeAll_session
  have ht := taken_content (intakeAll crc cfg env client decoded ds).client
  rw [← hs, Session.flush, ← ht]
  obtain ⟨hl, h1, -, h2, -⟩ | ⟨hl, -, h1, -, h2, -⟩ | ⟨-, -, -, -, -, h1⟩ :=
    handleRequest_cases crc cfg env client decoded ds
  · rw [hl, List.map_nil, if_pos rfl, h2]
    exact ⟨h1, rfl⟩
  · rw [if_neg (by simpa using hl), h2]
    exact ⟨h1, rfl⟩
  · rw [h1] at h
    cases h

end Request

end Trtp
