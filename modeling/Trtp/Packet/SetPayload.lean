import Trtp.Packet.RoundTrip

/-!
# Setting the payload

`set_length` and `set_payload` of `src/packet.c`.

`set_length` decides with the mask `0x11111` whether the length needs two bytes.  The mask
has five bits that are four apart and not the lowest seven bits, so that the flag is set for
most lengths that fit one byte and left alone for 256, 257, 272 and 273, which do not.  It is
never cleared either.  Everything else that `set_payload` does is right.
-/

namespace Trtp

/-- `memset(payload + len, 0, MAX_PAYLOAD_SIZE - len)`. -/
def Payload.clearFrom (p : Payload) (len : ℕ) : Payload :=
  ⟨p.bytes.take len ++ List.replicate (maxPayloadSize - len) 0, by
    have := p.size
    simp only [List.length_append, List.length_take, List.length_replicate]
    omega⟩

/-- `set_length`.  The mask is applied to the length as an `int`. -/
def setLength (self : Packet) (length : UInt16) : Packet :=
  if length.toNat > maxPayloadSize then self
  else
    let self :=
      if length.toNat &&& 0x11111 ≠ length.toNat then { self with longLength := true } else self
    { self with length := length }

def setPayload (self : Packet) (payload : List UInt8) (len : UInt16) : Packet :=
  if len.toNat > maxPayloadSize then self
  else
    let self := setLength self len
    let self := { self with payload := self.payload.copy (payload.take len.toNat) }
    { self with payload := self.payload.clearFrom len.toNat }

/-- What `set_payload` is to make of the packet `old` for a payload that fits. -/
structure PayloadSet (old : Packet) (payload : List UInt8) (p : Packet) : Prop where
  length : p.length.toNat = payload.length
  longLength : p.longLength = true ↔ 127 < payload.length
  -- The one byte that `pack` then writes is the length.
  oneByte : p.longLength = false → (packLength p).map UInt8.toNat = [payload.length]
  bytes : p.payload.bytes = payload ++ List.replicate (maxPayloadSize - payload.length) 0
  others : p =
    { old with longLength := p.longLength, length := p.length, payload := p.payload }

/-- What is promised of `set_payload`: a payload that is too long is ignored. -/
def SetsPayload (self : Packet) (payload : List UInt8) (len : UInt16) : Prop :=
  if len.toNat ≤ maxPayloadSize then PayloadSet self payload (setPayload self payload len)
  else setPayload self payload len = self

section SetPayload

variable {self : Packet} {payload : List UInt8} {len : UInt16}

theorem setPayload_eq (h : len.toNat ≤ maxPayloadSize) :
    setPayload self payload len =
      { self with
        longLength := decide (len.toNat &&& 0x11111 ≠ len.toNat) || self.longLength
        length := len
        payload := (self.payload.copy (payload.take len.toNat)).clearFrom len.toNat } := by
  have hle : ¬ len.toNat > maxPayloadSize := not_lt.mpr h
  simp only [setPayload, setLength, if_neg hle]
  by_cases hmask : len.toNat &&& 0x11111 = len.toNat
  · simp [hmask]
  · simp [hmask]

theorem setPayload_bytes (h : len.toNat ≤ maxPayloadSize) (hlen : payload.length = len.toNat) :
    ((self.payload.copy (payload.take len.toNat)).clearFrom len.toNat).bytes =
      payload ++ List.replicate (maxPayloadSize - payload.length) 0 := by
  have hall : payload.take len.toNat = payload := List.take_of_length_le hlen.le
  show ((self.payload.copy (payload.take len.toNat)).bytes.take len.toNat) ++ _ = _
  rw [hall, ← hlen, Payload.take_copy self.payload (hlen.trans_le h)]

theorem mask_eq_iff {n : ℕ} (h : n ≤ maxPayloadSize) :
    n &&& 0x11111 = n ↔ n ∈ [0, 1, 16, 17] ∨ n ∈ [256, 257, 272, 273] := by
  have hall : ∀ k : Fin 513,
      k.val &&& 0x11111 = k.val ↔ k.val ∈ [0, 1, 16, 17] ∨ k.val ∈ [256, 257, 272, 273] := by
    decide +kernel
  exact hall ⟨n, Nat.lt_succ_of_le h⟩

/-- Everything but the flag is always right. -/
theorem payloadSet_iff (h : len.toNat ≤ maxPayloadSize) (hlen : payload.length = len.toNat) :
    PayloadSet self payload (setPayload self payload len) ↔
      ((setPayload self payload len).longLength = true ↔ 127 < payload.length) := by
  constructor
  · intro hset
    exact hset.longLength
  · intro hlong
    have hlength : (setPayload self payload len).length = len := by rw [setPayload_eq h]
    refine ⟨by rw [hlength, hlen], hlong, fun hshort => ?_, ?_, ?_⟩
    · have hle : len.toNat ≤ 127 := by
        rw [hshort, hlen] at hlong
        simpa using hlong
      have hmod : (len &&& 0x7F).toUInt8.toNat = len.toNat := by
        rw [UInt16.toNat_toUInt8, UInt16.toNat_and]
        show (len.toNat &&& (2 ^ 7 - 1)) % 2 ^ 8 = len.toNat
        rw [Nat.and_two_pow_sub_one_eq_mod]
        omega
      rw [packLength_short hshort, hlength, List.map_singleton, hmod, hlen]
    · rw [setPayload_eq h]
      exact setPayload_bytes h hlen
    · rw [setPayload_eq h]

theorem setPayload_longLength (h : len.toNat ≤ maxPayloadSize) :
    (setPayload self payload len).longLength = true ↔
      ¬ (len.toNat ∈ [0, 1, 16, 17] ∨ len.toNat ∈ [256, 257, 272, 273]) ∨
        self.longLength = true := by
  rw [setPayload_eq h, ← mask_eq_iff h]
  simp

/-- `set_payload` does what is promised exactly for payloads that are too long, for those that
need two bytes, as long as the flag is set already where the mask misses them, and for those
of 0, 1, 16 or 17 bytes, as long as the flag is not set. -/
theorem setsPayload_iff (self : Packet) (payload : List UInt8) (len : UInt16)
    (hlen : payload.length = len.toNat) :
    SetsPayload self payload len ↔
      maxPayloadSize < payload.length ∨
        127 < payload.length ∧
          (payload.length ∈ [256, 257, 272, 273] → self.longLength = true) ∨
        payload.length ∈ [0, 1, 16, 17] ∧ self.longLength = false := by
  unfold SetsPayload
  split
  · rename_i h
    have hsize : ¬ maxPayloadSize < payload.length := by omega
    rw [payloadSet_iff h hlen, setPayload_longLength h, ← hlen]
    simp only [List.mem_cons, List.not_mem_nil, or_false, hsize, false_or]
    cases self.longLength with
    | false =>
      simp only [Bool.false_eq_true, or_false, imp_false, and_true]
      omega
    | true =>
      simp only [or_true, true_iff, implies_true, and_true, Bool.true_eq_false, and_false,
        or_false]
  · rename_i h
    have hsize : maxPayloadSize < payload.length := by omega
    have hself : setPayload self payload len = self := by
      rw [setPayload, if_pos (not_le.mp h)]
    simp [hsize, hself]

end SetPayload

theorem setsPayload_iff_initPacket : SetsPayload initPacket (List.replicate 128 1) 128 :=
  (setsPayload_iff initPacket (List.replicate 128 1) 128 List.length_replicate).mpr
    (.inr (.inl ⟨by rw [List.length_replicate]; decide, by rw [List.length_replicate]; decide⟩))

/-- A payload of 256 bytes leaves a new packet without the flag, and `pack` writes the length
0.  One of two bytes sets the flag. -/
theorem not_setsPayload_256 :
    packLength (setPayload initPacket (List.replicate 256 1) 256) = [0] ∧
      ¬ SetsPayload initPacket (List.replicate 256 1) 256 ∧
      ¬ SetsPayload initPacket [1, 1] 2 := by
  refine ⟨by decide +kernel, fun h => ?_, fun h => ?_⟩
  · rw [SetsPayload, if_pos (by decide)] at h
    exact absurd h.longLength (by decide +kernel)
  · rw [SetsPayload, if_pos (by decide)] at h
    exact absurd h.longLength (by decide +kernel)

end Trtp
