import Trtp.Packet.Basic

/-!
# What `unpack` computes

The early returns of `unpack` are folded here into two facts.  `unpack_short`:
a buffer that cannot hold the header is refused.  `unpack_long_enough`: any other
buffer is a header check followed by `unpackPayload`.

The rest of the file says what a successful call leaves in `out`, and that for a
DATA packet the verdict and the packet do not depend on what `out` held before.
-/

namespace Trtp

section Header

variable (packet : List UInt8)

def longAt : Bool := (byteAt packet 1 &&& 0x80) >>> 7 ≠ 0

def longSize : Nat := if longAt packet then 1 else 0

def lengthAt : UInt16 :=
  if longAt packet then
    ntohs ((byteAt packet 1 &&& 0x7F).toUInt16 ||| ((byteAt packet 2).toUInt16 <<< 8))
  else (byteAt packet 1 &&& 0x7F).toUInt16

def rawAt : List UInt8 :=
  (byteAt packet 0 &&& 0xDF) :: bytesAt packet 1 (6 + longSize packet)

def headerAt (out : Packet) : Packet :=
  { out with
    type := .ofCode ((byteAt packet 0 &&& 0xC0) >>> 6)
    truncated := (byteAt packet 0 &&& 0x20) >>> 5 ≠ 0
    window := byteAt packet 0 &&& 0x1F
    longLength := longAt packet
    length := lengthAt packet
    seqnum := byteAt packet (2 + longSize packet)
    timestamp := wordAt packet (3 + longSize packet)
    crc1 := wordAt packet (7 + longSize packet) }

theorem longSize_le : longSize packet ≤ 1 := by
  unfold longSize
  split <;> omega

end Header

section Unpack

variable {crc : Crc} {packet : List UInt8} {out : Packet}

theorem unpackFields_short {isLong : Bool} {buffer : Nat} {rest : Int} (h : rest < 9) :
    (unpackFields crc packet isLong buffer rest out).ret = .error .packetTooShort := by
  unfold unpackFields
  by_cases h1 : rest - 1 ≤ 0
  · simp only [h1, if_true]
  by_cases h2 : rest - 1 - 4 ≤ 0
  · simp only [h1, h2, if_true, if_false]
  have h3 : rest - 1 - 4 - 4 < 0 := by omega
  simp only [h1, h2, h3, if_true, if_false]

theorem unpackFields_long_enough {isLong : Bool} {buffer : Nat} {rest : Int} (h : 9 ≤ rest) :
    unpackFields crc packet isLong buffer rest out =
      let out := { out with
        seqnum := byteAt packet buffer
        timestamp := wordAt packet (buffer + 1)
        crc1 := wordAt packet (buffer + 5) }
      let raw := (byteAt packet 0 &&& 0xDF) :: bytesAt packet 1 (6 + (if isLong then 1 else 0))
      if wordAt packet (buffer + 5) ≠ crc32H crc 0 raw then ⟨.error .crcValidationFailed, out⟩
      else unpackPayload crc packet (buffer + 9) (rest - 9) out := by
  have h1 : ¬ rest - 1 ≤ 0 := by omega
  have h2 : ¬ rest - 1 - 4 ≤ 0 := by omega
  have h3 : rest - 1 - 4 - 4 = rest - 9 := by omega
  have h4 : ¬ rest - 9 < 0 := by omega
  have h5 : 7 + (if isLong then 1 else 0) - 1 = 6 + (if isLong then 1 else 0) := by omega
  unfold unpackFields
  simp only [h1, h2, h3, if_false, h4, h5, Nat.add_assoc, Nat.reduceAdd]

theorem unpack_eq {length : Int} (h : 3 + longSize packet ≤ length) :
    unpack crc packet length out =
      unpackFields crc packet (longAt packet) (2 + longSize packet)
        (length - 2 - longSize packet)
        { out with
          type := .ofCode ((byteAt packet 0 &&& 0xC0) >>> 6)
          truncated := (byteAt packet 0 &&& 0x20) >>> 5 ≠ 0
          window := byteAt packet 0 &&& 0x1F
          longLength := longAt packet
          length := lengthAt packet } := by
  have h1 : ¬ length - 1 ≤ 0 := by omega
  have h2 : ¬ length - 1 - 1 ≤ 0 := by omega
  have hlong : decide ((byteAt packet 1 &&& 0x80) >>> 7 ≠ 0) = longAt packet := rfl
  unfold unpack
  simp only [h1, h2, if_false, hlong]
  cases hl : longAt packet with
  | false =>
    have h3 : length - 1 - 1 = length - 2 - ((0 : Nat) : Int) := by omega
    simp only [Bool.false_eq_true, if_false, h3, lengthAt, longSize, hl]
  | true =>
    have h3 : length - 1 - 1 - 1 = length - 2 - ((1 : Nat) : Int) := by omega
    have h4 : ¬ length - 2 - ((1 : Nat) : Int) ≤ 0 := by
      simp only [longSize, hl, if_true] at h
      omega
    simp only [if_true, h3, if_false, h4, lengthAt, longSize, hl]

theorem unpack_short {length : Int} (h : length < 11 + longSize packet) :
    (unpack crc packet length out).ret = .error .packetTooShort := by
  by_cases hl : 3 + longSize packet ≤ length
  · rw [unpack_eq hl, unpackFields_short (by omega)]
  · unfold unpack
    by_cases h1 : length - 1 ≤ 0
    · simp only [h1, if_true]
    by_cases h2 : length - 1 - 1 ≤ 0
    · simp only [h1, h2, if_true, if_false]
    have hlong : longAt packet = true := by
      by_contra hn
      simp only [longSize, hn, if_false] at hl
      omega
    have h3 : length - 1 - 1 - 1 ≤ 0 := by
      have := longSize_le packet
      omega
    have hdec : decide ((byteAt packet 1 &&& 0x80) >>> 7 ≠ 0) = true := hlong
    simp only [h1, h2, h3, hdec, if_true, if_false]

/-- On a buffer that holds the header, `unpack` reads the header, validates it
and goes on to the payload. -/
theorem unpack_long_enough {length : Int} (h : 11 + longSize packet ≤ length) :
    unpack crc packet length out =
      if wordAt packet (7 + longSize packet) ≠ crc32H crc 0 (rawAt packet) then
        ⟨.error .crcValidationFailed, headerAt packet out⟩
      else
        unpackPayload crc packet (11 + longSize packet) (length - 11 - longSize packet)
          (headerAt packet out) := by
  have hbuf : ∀ k, 2 + longSize packet + k = (2 + k) + longSize packet := by omega
  rw [unpack_eq (by omega), unpackFields_long_enough (by omega)]
  have hrest : length - 2 - (longSize packet : Int) - 9 = length - 11 - longSize packet := by
    omega
  simp only [hbuf, Nat.reduceAdd, hrest]
  rfl

def payloadAt (packet : List UInt8) (buffer : Nat) (out : Packet) : Packet :=
  { out with
    payload := out.payload.copy (bytesAt packet buffer out.length.toNat)
    crc2 := wordAt packet (buffer + out.length.toNat) }

@[simp] theorem bytesAt_length (i n : Nat) : (bytesAt packet i n).length = n := by
  simp [bytesAt]

theorem payloadAt_data {buffer : Nat} (h : out.length.toNat ≤ maxPayloadSize) :
    (payloadAt packet buffer out).data = bytesAt packet buffer out.length.toNat := by
  have hlen : (bytesAt packet buffer out.length.toNat).length ≤ maxPayloadSize := by
    rwa [bytesAt_length]
  have := out.payload.take_copy hlen
  rwa [bytesAt_length] at this

theorem hasPayload_iff {p : Packet} :
    p.hasPayload = true ↔ p.type = .data ∧ p.truncated = false ∧ p.length ≠ 0 := by
  simp [Packet.hasPayload]

theorem unpackChecks_out (rest : Int) : (unpackChecks crc rest out).out = out := by
  unfold unpackChecks
  split_ifs <;> rfl

theorem unpackChecks_ok_iff {rest : Int} :
    (unpackChecks crc rest out).ret = .ok () ↔
      rest ≤ 0 ∧ out.type ≠ .ignore ∧ (out.type ≠ .data → out.truncated = false) ∧
        out.length.toNat ≤ maxPayloadSize ∧
        (out.length > 0 → out.truncated = false → out.crc2 = crc32P crc 0 out.data) := by
  unfold unpackChecks
  split_ifs with h1 h2 h3 h4 h5
  · simp only [false_iff]; omega
  · simp [h2]
  · simp [h3]
  · simp only [false_iff]; omega
  · obtain ⟨h5, h6, h7⟩ := h5
    have h6 : out.truncated = false := by simpa using h6
    simp [h5, h6, h7]
  · simp only [true_iff]
    refine ⟨by omega, h2, fun ht => ?_, by omega, fun hl htr => ?_⟩
    · by_contra hn
      exact h3 ⟨ht, by simpa using hn⟩
    · by_contra hn
      exact h5 ⟨hl, by simp [htr], hn⟩

theorem unpackPayload_of_not_hasPayload {buffer : Nat} {rest : Int} (hp : out.hasPayload = false)
    (hl : out.length.toNat ≤ maxPayloadSize) :
    unpackPayload crc packet buffer rest out = unpackChecks crc rest out := by
  unfold unpackPayload
  have hl : ¬ out.length.toNat > maxPayloadSize := by omega
  simp only [hp, Bool.false_eq_true, and_false, if_false, hl]

theorem unpackPayload_of_hasPayload {buffer : Nat} {rest : Int} (hp : out.hasPayload)
    (hl : out.length.toNat ≤ maxPayloadSize) (hrest : out.length.toNat + 4 ≤ rest) :
    unpackPayload crc packet buffer rest out =
      unpackChecks crc (rest - out.length.toNat - 4) (payloadAt packet buffer out) := by
  unfold unpackPayload
  have h0 : ¬ rest = 0 := by omega
  have hl : ¬ out.length.toNat > maxPayloadSize := by omega
  have h4 : ¬ rest - out.length.toNat < 4 := by omega
  have h5 : ¬ rest - out.length.toNat - 4 < 0 := by omega
  simp only [hp, and_true, if_true, h0, hl, h4, h5, if_false]
  rfl

theorem unpackPayload_too_long {buffer : Nat} {rest : Int}
    (hl : maxPayloadSize < out.length.toNat) :
    (unpackPayload crc packet buffer rest out).ret ≠ .ok () := by
  unfold unpackPayload
  split_ifs <;> simp

theorem unpackPayload_too_short {buffer : Nat} {rest : Int} (hp : out.hasPayload)
    (hrest : rest < out.length.toNat + 4) :
    (unpackPayload crc packet buffer rest out).ret ≠ .ok () := by
  unfold unpackPayload
  have h4 : rest - out.length.toNat < 4 := by omega
  split_ifs <;> simp [h4]

end Unpack

/-! ## Accepted DATA

`accepted` is the test under which a packet can enter a window.  Its verdict and
the content of the packet are functions of the buffer alone. -/

/-- The part of a packet that is read from the buffer when the packet is DATA. -/
structure Content where
  type : PType
  truncated : Bool
  window : UInt8
  longLength : Bool
  length : UInt16
  seqnum : UInt8
  timestamp : UInt32
  crc1 : UInt32
  data : List UInt8
  deriving DecidableEq

def Packet.content (p : Packet) : Content :=
  { type := p.type, truncated := p.truncated, window := p.window, longLength := p.longLength,
    length := p.length, seqnum := p.seqnum, timestamp := p.timestamp, crc1 := p.crc1,
    data := p.data }

def Unpacked.accepted (r : Unpacked) : Bool :=
  r.ret.isOk && r.out.type = .data && !r.out.truncated

def Unpacked.content? (r : Unpacked) : Option Content :=
  if r.accepted then some r.out.content else none

theorem isOk_iff {r : Except Errors Unit} : r.isOk = true ↔ r = .ok () := by
  cases r <;> simp [Except.isOk, Except.toBool]

theorem accepted_iff {r : Unpacked} :
    r.accepted = true ↔ r.ret = .ok () ∧ r.out.type = .data ∧ r.out.truncated = false := by
  simp [Unpacked.accepted, isOk_iff, and_assoc]

theorem content?_eq_some_iff {r : Unpacked} {c : Content} :
    r.content? = some c ↔ r.accepted = true ∧ r.out.content = c := by
  simp [Unpacked.content?]

section Stale

variable {crc : Crc} {packet : List UInt8}

/-- The final checks on a DATA packet do not read what `out` held before, once
the payload, if there is one, has been overwritten. -/
theorem unpackChecks_content? {rest : Int} {p q : Packet} (hc : p.content = q.content)
    (hcrc : p.hasPayload → p.crc2 = q.crc2) :
    (unpackChecks crc rest p).content? = (unpackChecks crc rest q).content? := by
  have ht : p.type = q.type := congrArg Content.type hc
  have htr : p.truncated = q.truncated := congrArg Content.truncated hc
  have hl : p.length = q.length := congrArg Content.length hc
  have hd : p.data = q.data := congrArg Content.data hc
  have key : (unpackChecks crc rest p).accepted = (unpackChecks crc rest q).accepted := by
    rw [Bool.eq_iff_iff, accepted_iff, accepted_iff, unpackChecks_ok_iff, unpackChecks_ok_iff,
      unpackChecks_out, unpackChecks_out, ht, htr, hl, hd]
    refine and_congr_left fun ⟨hdata, hntr⟩ => ?_
    refine and_congr_right fun _ => and_congr_right fun _ => and_congr_right fun _ =>
      and_congr_right fun _ => forall_congr' fun hpos => ?_
    have hp : p.hasPayload = true := by
      refine hasPayload_iff.mpr ⟨ht.trans hdata, htr.trans hntr, ?_⟩
      rw [hl]
      rintro h0
      rw [h0] at hpos
      exact absurd hpos (by decide)
    rw [hcrc hp]
  unfold Unpacked.content?
  rw [key, unpackChecks_out, unpackChecks_out, hc]

theorem content?_eq_none {r : Unpacked} (h : r.ret ≠ .ok ()) : r.content? = none := by
  have : ¬ r.accepted = true := fun ha => h (accepted_iff.mp ha).1
  simp [Unpacked.content?, this]

theorem payloadAt_headerAt_content {buffer : Nat} (o₁ o₂ : Packet)
    (hl : (lengthAt packet).toNat ≤ maxPayloadSize) :
    (payloadAt packet buffer (headerAt packet o₁)).content =
      (payloadAt packet buffer (headerAt packet o₂)).content := by
  have h₁ : (payloadAt packet buffer (headerAt packet o₁)).data =
      bytesAt packet buffer (lengthAt packet).toNat := payloadAt_data hl
  have h₂ : (payloadAt packet buffer (headerAt packet o₂)).data =
      bytesAt packet buffer (lengthAt packet).toNat := payloadAt_data hl
  rw [Packet.content, Packet.content, h₁, h₂]
  rfl

/-- Once the header is validated, the verdict on a DATA packet and its content
are functions of the buffer. -/
theorem unpackPayload_content? {buffer : Nat} {rest : Int} (o₁ o₂ : Packet) :
    (unpackPayload crc packet buffer rest (headerAt packet o₁)).content? =
      (unpackPayload crc packet buffer rest (headerAt packet o₂)).content? := by
  by_cases hl : (lengthAt packet).toNat ≤ maxPayloadSize
  · have hl₁ : (headerAt packet o₁).length.toNat ≤ maxPayloadSize := hl
    have hl₂ : (headerAt packet o₂).length.toNat ≤ maxPayloadSize := hl
    have hh : (headerAt packet o₂).hasPayload = (headerAt packet o₁).hasPayload := rfl
    cases hp : (headerAt packet o₁).hasPayload with
    | true =>
      rw [hp] at hh
      by_cases hr : ((headerAt packet o₁).length.toNat : Int) + 4 ≤ rest
      · have hr₂ : ((headerAt packet o₂).length.toNat : Int) + 4 ≤ rest := hr
        rw [unpackPayload_of_hasPayload hp hl₁ hr, unpackPayload_of_hasPayload hh hl₂ hr₂]
        exact unpackChecks_content? (payloadAt_headerAt_content o₁ o₂ hl) fun _ => rfl
      · have hr := not_le.mp hr
        have hr₂ : rest < ((headerAt packet o₂).length.toNat : Int) + 4 := hr
        rw [content?_eq_none (unpackPayload_too_short hp hr),
          content?_eq_none (unpackPayload_too_short hh hr₂)]
    | false =>
      rw [hp] at hh
      rw [unpackPayload_of_not_hasPayload hp hl₁, unpackPayload_of_not_hasPayload hh hl₂]
      by_cases hd : (headerAt packet o₁).type = .data ∧ (headerAt packet o₁).truncated = false
      · -- A DATA packet without payload has length zero, so it has no data.
        have hz : (headerAt packet o₁).length = 0 := by
          by_contra hz
          rw [hasPayload_iff.mpr ⟨hd.1, hd.2, hz⟩] at hp
          cases hp
        have hz' : lengthAt packet = 0 := hz
        refine unpackChecks_content? ?_ fun h => absurd h (by rw [hp]; simp)
        simp [Packet.content, Packet.data, headerAt, hz']
      · have hn : ∀ o, (unpackChecks crc rest (headerAt packet o)).content? = none := by
          intro o
          have : ¬ (unpackChecks crc rest (headerAt packet o)).accepted = true := by
            intro ha
            obtain ⟨-, h1, h2⟩ := accepted_iff.mp ha
            rw [unpackChecks_out] at h1 h2
            exact hd ⟨h1, h2⟩
          simp [Unpacked.content?, this]
        rw [hn, hn]
  · have hl₁ : maxPayloadSize < (headerAt packet o₁).length.toNat := not_le.mp hl
    have hl₂ : maxPayloadSize < (headerAt packet o₂).length.toNat := not_le.mp hl
    rw [content?_eq_none (unpackPayload_too_long hl₁),
      content?_eq_none (unpackPayload_too_long hl₂)]

/-- Whether `unpack` accepts a DATA packet, and the packet it then yields, do not
depend on the previous contents of `out`. -/
theorem unpack_content? (length : Int) (o₁ o₂ : Packet) :
    (unpack crc packet length o₁).content? = (unpack crc packet length o₂).content? := by
  by_cases h : 11 + longSize packet ≤ length
  · rw [unpack_long_enough h, unpack_long_enough h]
    split_ifs
    · rw [content?_eq_none (by simp), content?_eq_none (by simp)]
    · exact unpackPayload_content? o₁ o₂
  · have h := not_le.mp h
    rw [content?_eq_none (by simp [unpack_short h]), content?_eq_none (by simp [unpack_short h])]

def Packet.header (p : Packet) : Packet := { p with crc2 := 0, payload := .zero }

theorem unpackPayload_header {buffer : Nat} {rest : Int} {out : Packet} :
    (unpackPayload crc packet buffer rest out).out.header = out.header := by
  unfold unpackPayload
  dsimp only
  split_ifs
  all_goals simp only [unpackChecks_out, Packet.header]

theorem unpack_ok {length : Int} {out : Packet} (h : (unpack crc packet length out).ret = .ok ()) :
    (unpack crc packet length out).out.header = (headerAt packet out).header ∧
      (lengthAt packet).toNat ≤ maxPayloadSize := by
  by_cases hs : 11 + longSize packet ≤ length
  · rw [unpack_long_enough hs] at h ⊢
    split_ifs at h ⊢ with hc
    · refine ⟨unpackPayload_header, ?_⟩
      by_contra hl
      have hl : maxPayloadSize < (headerAt packet out).length.toNat := not_le.mp hl
      exact unpackPayload_too_long hl h
  · rw [unpack_short (not_le.mp hs)] at h
    cases h

theorem length_of_accepted {length : Int} {out : Packet}
    (h : (unpack crc packet length out).accepted = true) :
    (unpack crc packet length out).out.length.toNat ≤ maxPayloadSize := by
  obtain ⟨hh, hl⟩ := unpack_ok (accepted_iff.mp h).1
  have : (unpack crc packet length out).out.length = lengthAt packet := congrArg Packet.length hh
  rwa [this]

end Stale

end Trtp
