import Trtp.Packet.Crc
import Trtp.Packet.Unpack

/-!
# The round trip of `pack` and `unpack`

`pack` and `unpack` agree on everything but the two-byte length.  `pack` stores
`len >> 7` of the swapped length where `unpack` reads `len >> 8`, so the low
byte of the length arrives doubled.  The round trip therefore holds for a
packet with the one-byte length, and with the two-byte length exactly when the
low byte of the length is zero.
-/

namespace Trtp

/-- The packets a caller may hand to `pack`. -/
structure Packable (p : Packet) : Prop where
  type_ne : p.type ≠ .ignore
  truncated_data : p.truncated = true → p.type = .data
  window_le : p.window ≤ 31
  length_le : p.length.toNat ≤ maxPayloadSize
  length_data : p.type ≠ .data → p.length = 0
  long_length : 127 < p.length.toNat → p.longLength = true

/-- The number of bytes `pack` is to write. -/
def packedSize (p : Packet) : Nat :=
  11 + (if p.longLength then 1 else 0) + (if p.hasPayload then p.length.toNat + 4 else 0)

/-- `pack` succeeds, writes `packedSize` bytes, and `unpack` reads the packet
back from them, whatever its output packet held. -/
def RoundTrips (crc : Crc) (p : Packet) : Prop :=
  ∃ bytes, pack crc (some p) true = .ok bytes ∧ bytes.length = packedSize p ∧
    ∀ out, (unpack crc bytes bytes.length out).ret = .ok () ∧
      (unpack crc bytes bytes.length out).out.type = p.type ∧
      (unpack crc bytes bytes.length out).out.truncated = p.truncated ∧
      (unpack crc bytes bytes.length out).out.window = p.window ∧
      (unpack crc bytes bytes.length out).out.longLength = p.longLength ∧
      (unpack crc bytes bytes.length out).out.length = p.length ∧
      (unpack crc bytes bytes.length out).out.seqnum = p.seqnum ∧
      (unpack crc bytes bytes.length out).out.timestamp = p.timestamp ∧
      (p.hasPayload → (unpack crc bytes bytes.length out).out.data = p.data)

/-! ## The header byte -/

def packHeaderTr (p : Packet) : UInt8 :=
  packHeader p ||| ((if p.truncated then 1 else 0 : UInt8) <<< 5)

theorem header_fields (t : PType) (tr : Bool) (w : Fin 32) :
    let h : UInt8 := (t.code <<< 6) ||| (UInt8.ofNat w &&& 0x1F)
    let h' : UInt8 := h ||| ((if tr then 1 else 0 : UInt8) <<< 5)
    PType.ofCode ((h' &&& 0xC0) >>> 6) = t ∧ (decide ((h' &&& 0x20) >>> 5 ≠ 0) = tr) ∧
      h' &&& 0x1F = UInt8.ofNat w ∧ h' &&& 0xDF = h := by
  revert w
  cases t <;> cases tr <;> decide

theorem packHeaderTr_fields {p : Packet} (h : p.window ≤ 31) :
    PType.ofCode ((packHeaderTr p &&& 0xC0) >>> 6) = p.type ∧
      (decide ((packHeaderTr p &&& 0x20) >>> 5 ≠ 0) = p.truncated) ∧
      packHeaderTr p &&& 0x1F = p.window ∧ packHeaderTr p &&& 0xDF = packHeader p := by
  have hw : p.window.toNat < 32 := Nat.lt_succ_of_le (UInt8.le_iff_toNat_le.mp h)
  have := header_fields p.type p.truncated ⟨p.window.toNat, hw⟩
  simp only [UInt8.ofNat_toNat] at this
  exact this

/-! ## The length field -/

theorem packLength_short {p : Packet} (h : p.longLength = false) :
    packLength p = [(p.length &&& 0x7F).toUInt8] := by
  simp [packLength, h]

theorem packLength_long {p : Packet} (h : p.longLength = true) :
    packLength p =
      [(0x80 ||| (htons p.length &&& 0x7F)).toUInt8, (htons p.length >>> 7).toUInt8] := by
  simp [packLength, h]

theorem byteAt_one (h l : UInt8) (rest : List UInt8) : byteAt (h :: l :: rest) 1 = l := rfl

theorem byteAt_two (h l m : UInt8) (rest : List UInt8) : byteAt (h :: l :: m :: rest) 2 = m := rfl

theorem shortLength_byte (n : Fin 128) :
    let l : UInt8 := (UInt16.ofNat n &&& 0x7F).toUInt8
    (decide ((l &&& 0x80) >>> 7 ≠ 0) = false) ∧ (l &&& 0x7F).toUInt16 = UInt16.ofNat n := by
  revert n
  decide

theorem lengthAt_short {p : Packet} (hs : p.longLength = false) (hl : p.length.toNat ≤ 127)
    (h : UInt8) (rest : List UInt8) :
    longAt (h :: (packLength p ++ rest)) = false ∧
      lengthAt (h :: (packLength p ++ rest)) = p.length := by
  have key := shortLength_byte ⟨p.length.toNat, by omega⟩
  simp only [UInt16.ofNat_toNat] at key
  obtain ⟨k1, k2⟩ := key
  rw [packLength_short hs, List.cons_append, List.nil_append]
  have hlong : longAt (h :: (p.length &&& 0x7F).toUInt8 :: rest) = false := k1
  refine ⟨hlong, ?_⟩
  rw [lengthAt, hlong, if_neg (by simp), byteAt_one]
  exact k2

theorem htons_and {l : UInt16} (h : l.toNat ≤ maxPayloadSize) :
    htons l &&& 0x7F = UInt16.ofNat (l.toNat / 256) := by
  apply UInt16.toNat_inj.mp
  have hl : l.toNat ≤ 512 := h
  rw [UInt16.toNat_and, htons_toNat]
  show (l.toNat / 2 ^ 8 + l.toNat % 2 ^ 8 * 2 ^ 8) &&& (2 ^ 7 - 1) = _
  have hsize : l.toNat / 256 < UInt16.size := by
    show _ < 65536
    omega
  rw [Nat.and_two_pow_sub_one_eq_mod, UInt16.toNat_ofNat_of_lt' hsize]
  omega

theorem htons_shiftRight {l : UInt16} (h : l.toNat ≤ maxPayloadSize) :
    (htons l >>> 7).toUInt8.toNat = 2 * (l.toNat % 256) % 256 := by
  have hl : l.toNat ≤ 512 := h
  rw [UInt16.toNat_toUInt8, UInt16.toNat_shiftRight, htons_toNat]
  show (l.toNat / 2 ^ 8 + l.toNat % 2 ^ 8 * 2 ^ 8) >>> 7 % 2 ^ 8 = _
  have hhi : l.toNat / 2 ^ 8 < 2 ^ 7 := by omega
  have hdiv : (l.toNat / 2 ^ 8 + l.toNat % 2 ^ 8 * 2 ^ 8) / 2 ^ 7 = 2 * (l.toNat % 2 ^ 8) := by
    omega
  rw [Nat.shiftRight_eq_div_pow, hdiv]
  omega

theorem longLength_byte (n : Fin 3) :
    let l : UInt8 := (0x80 ||| UInt16.ofNat n).toUInt8
    (decide ((l &&& 0x80) >>> 7 ≠ 0) = true) ∧ (l &&& 0x7F).toUInt16.toNat = n := by
  revert n
  decide

/-- The two-byte length is read back with its low byte doubled. -/
theorem lengthAt_long {p : Packet} (hs : p.longLength = true)
    (hl : p.length.toNat ≤ maxPayloadSize) (h : UInt8) (rest : List UInt8) :
    longAt (h :: (packLength p ++ rest)) = true ∧
      (lengthAt (h :: (packLength p ++ rest))).toNat =
        p.length.toNat / 256 * 256 + 2 * (p.length.toNat % 256) % 256 := by
  have hl' : p.length.toNat ≤ 512 := hl
  obtain ⟨k1, k2⟩ := longLength_byte ⟨p.length.toNat / 256, by omega⟩
  have k3 := htons_shiftRight hl
  rw [packLength_long hs, htons_and hl, List.cons_append, List.cons_append, List.nil_append]
  set b1 := (0x80 ||| UInt16.ofNat (p.length.toNat / 256)).toUInt8
  set b2 := (htons p.length >>> 7).toUInt8
  have hlong : longAt (h :: b1 :: b2 :: rest) = true := k1
  refine ⟨hlong, ?_⟩
  have hb2 := b2.toNat_lt
  have hsh : b2.toNat <<< 8 % 2 ^ 16 = b2.toNat <<< 8 := by
    rw [Nat.shiftLeft_eq]
    omega
  have hword : ((b1 &&& 0x7F).toUInt16 ||| (b2.toUInt16 <<< 8)).toNat =
      p.length.toNat / 256 + b2.toNat * 2 ^ 8 := by
    rw [UInt16.toNat_or, UInt16.toNat_shiftLeft, k2, UInt8.toNat_toUInt16]
    show p.length.toNat / 256 ||| b2.toNat <<< 8 % 2 ^ 16 = _
    rw [hsh, or_shiftLeft_eq_add (by omega)]
  rw [lengthAt, hlong, if_pos rfl, byteAt_one, byteAt_two, ntohs, htons_toNat, hword, k3]
  omega

/-! ## The fields of a packed buffer -/

section Fields

variable (pre post : List UInt8)

theorem byteAt_append (b : UInt8) : byteAt (pre ++ b :: post) pre.length = b := by
  simp [byteAt]

theorem bytesAt_append (xs : List UInt8) :
    bytesAt (pre ++ (xs ++ post)) pre.length xs.length = xs := by
  apply List.ext_getElem
  · simp
  · intro i h1 h2
    simp [bytesAt, byteAt, List.getElem?_append_right, List.getElem?_append_left h2, h2]

theorem wordAt_append (x : UInt32) :
    wordAt (pre ++ (bytesOfU32 (htonl x) ++ post)) pre.length = x := by
  have h0 := byteAt_append pre ((htonl x >>> 8).toUInt8 :: (htonl x >>> 16).toUInt8 ::
    (htonl x >>> 24).toUInt8 :: post) (htonl x).toUInt8
  have h1 : ∀ k, byteAt (pre ++ (bytesOfU32 (htonl x) ++ post)) (pre.length + k) =
      byteAt (bytesOfU32 (htonl x) ++ post) k := by
    intro k
    simp [byteAt, List.getElem?_append_right]
  rw [wordAt, h1 1, h1 2, h1 3]
  have h2 := h1 0
  rw [Nat.add_zero] at h2
  rw [h2]
  exact ntohl_bytes x

end Fields

section Packed

variable (crc : Crc) (p : Packet)

def headerCrc : UInt32 := crc32H crc 0 (packHeader p :: packFields p)

def packed : List UInt8 :=
  packHeaderTr p :: (packLength p ++ (p.seqnum :: (bytesOfU32 (htonl p.timestamp) ++
    (bytesOfU32 (htonl (headerCrc crc p)) ++ packPayload crc p true))))

theorem pack_eq : pack crc (some p) true = .ok (packed crc p) := by
  show Except.ok (packHeaderTr p :: packFields p ++ bytesOfU32 (htonl (headerCrc crc p)) ++
    packPayload crc p true) = _
  simp [packed, packFields]

theorem packLength_length : (packLength p).length = 1 + (if p.longLength then 1 else 0) := by
  cases h : p.longLength
  · simp [packLength_short h]
  · simp [packLength_long h]

variable {crc p}

theorem packPayload_of_hasPayload (h : p.hasPayload) :
    packPayload crc p true = p.data ++ bytesOfU32 (htonl (crc32P crc 0 p.data)) := by
  obtain ⟨ht, htr, hl⟩ := hasPayload_iff.mp h
  have hl0 : p.length > 0 := UInt16.pos_iff_ne_zero.mpr hl
  simp [packPayload, ht, htr, hl0]

theorem packPayload_of_not_hasPayload (h : p.hasPayload = false) : packPayload crc p true = [] := by
  unfold packPayload
  rw [if_neg]
  intro hp
  simp only [Bool.and_eq_true, Bool.not_eq_true', decide_eq_true_eq] at hp
  rw [hasPayload_iff.mpr ⟨hp.1.2, hp.1.1, UInt16.pos_iff_ne_zero.mp hp.2⟩] at h
  cases h

theorem data_length (hl : p.length.toNat ≤ maxPayloadSize) : p.data.length = p.length.toNat := by
  rw [Packet.data, List.length_take, p.payload.size]
  exact Nat.min_eq_left hl

theorem packed_length (hl : p.length.toNat ≤ maxPayloadSize) :
    (packed crc p).length = packedSize p := by
  have hpay : (packPayload crc p true).length = if p.hasPayload then p.length.toNat + 4 else 0 := by
    cases h : p.hasPayload
    · simp [packPayload_of_not_hasPayload h]
    · simp [packPayload_of_hasPayload h, data_length hl]
  simp only [packed, packedSize, List.length_cons, List.length_append, packLength_length, hpay,
    bytesOfU32_length]
  omega

variable (hlong : longAt (packed crc p) = p.longLength)
include hlong

theorem longSize_packed : longSize (packed crc p) = if p.longLength then 1 else 0 := by
  rw [longSize, hlong]

theorem seqnum_packed : byteAt (packed crc p) (2 + longSize (packed crc p)) = p.seqnum := by
  have hi : 2 + longSize (packed crc p) = (packHeaderTr p :: packLength p).length := by
    rw [longSize_packed hlong, List.length_cons, packLength_length]
    omega
  rw [hi]
  exact byteAt_append (packHeaderTr p :: packLength p) _ p.seqnum

theorem timestamp_packed : wordAt (packed crc p) (3 + longSize (packed crc p)) = p.timestamp := by
  let pre := packHeaderTr p :: packLength p ++ [p.seqnum]
  have hi : 3 + longSize (packed crc p) = pre.length := by
    simp only [pre, longSize_packed hlong, List.length_append, List.length_cons,
      packLength_length, List.length_nil]
    omega
  have hb : packed crc p = pre ++ (bytesOfU32 (htonl p.timestamp) ++
      (bytesOfU32 (htonl (headerCrc crc p)) ++ packPayload crc p true)) := by
    simp [packed, pre]
  rw [hi, hb]
  exact wordAt_append pre _ p.timestamp

theorem crc1_packed : wordAt (packed crc p) (7 + longSize (packed crc p)) = headerCrc crc p := by
  let pre := packHeaderTr p :: packLength p ++ p.seqnum :: bytesOfU32 (htonl p.timestamp)
  have hi : 7 + longSize (packed crc p) = pre.length := by
    simp only [pre, longSize_packed hlong, List.length_append, List.length_cons,
      packLength_length, bytesOfU32_length]
    omega
  have hb : packed crc p = pre ++ (bytesOfU32 (htonl (headerCrc crc p)) ++
      packPayload crc p true) := by
    simp [packed, pre]
  rw [hi, hb]
  exact wordAt_append pre _ (headerCrc crc p)

theorem rawAt_packed (hw : p.window ≤ 31) :
    rawAt (packed crc p) = packHeader p :: packFields p := by
  have hn : 6 + longSize (packed crc p) = (packFields p).length := by
    simp only [packFields, longSize_packed hlong, List.length_append, packLength_length,
      List.length_cons, bytesOfU32_length]
    omega
  have hb : packed crc p = [packHeaderTr p] ++ (packFields p ++
      (bytesOfU32 (htonl (headerCrc crc p)) ++ packPayload crc p true)) := by
    simp [packed, packFields]
  have h0 : byteAt (packed crc p) 0 = packHeaderTr p := rfl
  rw [rawAt, h0, (packHeaderTr_fields hw).2.2.2, hn, hb]
  exact congrArg _ (bytesAt_append [packHeaderTr p] _ (packFields p))

theorem data_packed (hp : p.hasPayload) (hl : p.length.toNat ≤ maxPayloadSize) :
    bytesAt (packed crc p) (11 + longSize (packed crc p)) p.length.toNat = p.data ∧
      wordAt (packed crc p) (11 + longSize (packed crc p) + p.length.toNat) =
        crc32P crc 0 p.data := by
  let pre := packHeaderTr p :: packLength p ++ p.seqnum :: (bytesOfU32 (htonl p.timestamp) ++
    bytesOfU32 (htonl (headerCrc crc p)))
  have hi : 11 + longSize (packed crc p) = pre.length := by
    simp only [pre, longSize_packed hlong, List.length_append, List.length_cons,
      packLength_length, bytesOfU32_length]
    omega
  have hb : packed crc p = pre ++ (p.data ++ bytesOfU32 (htonl (crc32P crc 0 p.data))) := by
    simp [packed, pre, packPayload_of_hasPayload hp]
  rw [hi, hb, ← data_length hl, ← List.length_append]
  refine ⟨bytesAt_append pre _ p.data, ?_⟩
  have := wordAt_append (pre ++ p.data) [] (crc32P crc 0 p.data)
  rwa [List.append_nil, List.append_assoc] at this

theorem headerAt_packed (hw : p.window ≤ 31) (out : Packet) :
    headerAt (packed crc p) out = { out with
      type := p.type, truncated := p.truncated, window := p.window, longLength := p.longLength
      length := lengthAt (packed crc p), seqnum := p.seqnum, timestamp := p.timestamp
      crc1 := headerCrc crc p } := by
  obtain ⟨h1, h2, h3, -⟩ := packHeaderTr_fields hw
  have hb : byteAt (packed crc p) 0 = packHeaderTr p := rfl
  rw [headerAt, hb, h1, h2, h3, hlong, seqnum_packed hlong, timestamp_packed hlong,
    crc1_packed hlong]

theorem unpack_packed (hp : Packable p) (hlen : lengthAt (packed crc p) = p.length)
    (out : Packet) :
    (unpack crc (packed crc p) (packed crc p).length out).ret = .ok () ∧
      (p.hasPayload → (unpack crc (packed crc p) (packed crc p).length out).out.data = p.data) := by
  have hl := hp.length_le
  have hh := headerAt_packed hlong hp.window_le out
  have hsize : ((packed crc p).length : Int) - 11 - longSize (packed crc p) =
      if p.hasPayload then (p.length.toNat : Int) + 4 else 0 := by
    rw [packed_length hl, packedSize, longSize_packed hlong]
    split <;> split <;> push_cast <;> omega
  have hlong_enough : (11 : Int) + longSize (packed crc p) ≤ (packed crc p).length := by
    split at hsize <;> omega
  have hcrc : ¬ wordAt (packed crc p) (7 + longSize (packed crc p)) ≠
      crc32H crc 0 (rawAt (packed crc p)) := by
    rw [crc1_packed hlong, rawAt_packed hlong hp.window_le]
    exact not_not.mpr rfl
  rw [unpack_long_enough hlong_enough, if_neg hcrc, hh, hlen, hsize]
  set o : Packet := { out with
      type := p.type, truncated := p.truncated, window := p.window, longLength := p.longLength
      length := p.length, seqnum := p.seqnum, timestamp := p.timestamp
      crc1 := headerCrc crc p }
  have ho : o.hasPayload = p.hasPayload := rfl
  cases hpay : p.hasPayload with
  | true =>
    rw [hpay] at ho
    obtain ⟨hd, hc⟩ := data_packed hlong hpay hl
    have hdata : (payloadAt (packed crc p) (11 + longSize (packed crc p)) o).data = p.data :=
      (payloadAt_data (show o.length.toNat ≤ _ from hl)).trans hd
    rw [if_pos rfl, unpackPayload_of_hasPayload ho hl (le_refl _), unpackChecks_ok_iff,
      unpackChecks_out, hdata]
    refine ⟨⟨?_, hp.type_ne, ?_, hl, fun _ _ => hc⟩, fun _ => rfl⟩
    · show (p.length.toNat : Int) + 4 - p.length.toNat - 4 ≤ 0
      omega
    · exact fun h => absurd (hasPayload_iff.mp hpay).1 h
  | false =>
    rw [hpay] at ho
    rw [if_neg (by simp), unpackPayload_of_not_hasPayload ho hl, unpackChecks_ok_iff]
    refine ⟨⟨le_refl _, hp.type_ne, fun h => ?_, hl, fun hpos htr => ?_⟩, fun h => by cases h⟩
    · by_contra htr
      exact h (hp.truncated_data (by simpa using htr))
    · -- Only DATA may have a length, and untruncated DATA with a length has a payload.
      have hne : p.length ≠ 0 := UInt16.pos_iff_ne_zero.mp hpos
      have ht : p.type = .data := by
        by_contra ht
        exact hne (hp.length_data ht)
      rw [hasPayload_iff.mpr ⟨ht, htr, hne⟩] at hpay
      cases hpay

end Packed

/-! ## The two-byte length -/

section LongLength

variable {crc : Crc} {p : Packet}

theorem Packable.length_le_of_short (hp : Packable p) (h : p.longLength = false) :
    p.length.toNat ≤ 127 := by
  by_contra hl
  rw [hp.long_length (not_le.mp hl)] at h
  cases h

theorem longAt_packed (hp : Packable p) : longAt (packed crc p) = p.longLength := by
  cases h : p.longLength with
  | false => exact (lengthAt_short h (hp.length_le_of_short h) _ _).1
  | true => exact (lengthAt_long h hp.length_le _ _).1

/-- The length field survives exactly when it takes one byte or its low byte is
zero. -/
theorem lengthAt_packed_iff (hp : Packable p) :
    lengthAt (packed crc p) = p.length ↔ p.longLength = false ∨ p.length.toNat % 256 = 0 := by
  cases h : p.longLength with
  | false =>
    simp only [true_or, iff_true]
    exact (lengthAt_short h (hp.length_le_of_short h) _ _).2
  | true =>
    have hlen : (lengthAt (packed crc p)).toNat =
        p.length.toNat / 256 * 256 + 2 * (p.length.toNat % 256) % 256 :=
      (lengthAt_long h hp.length_le _ _).2
    rw [← UInt16.toNat_inj, hlen]
    simp only [Bool.true_eq_false, false_or]
    omega

theorem roundTrips_of_lengthAt (hp : Packable p) (hlen : lengthAt (packed crc p) = p.length) :
    RoundTrips crc p := by
  refine ⟨packed crc p, pack_eq crc p, packed_length hp.length_le, fun out => ?_⟩
  have hlong : longAt (packed crc p) = p.longLength := longAt_packed hp
  obtain ⟨hret, hdata⟩ := unpack_packed hlong hp hlen out
  have hh := (unpack_ok hret).1
  rw [headerAt_packed hlong hp.window_le, hlen] at hh
  exact ⟨hret, (congrArg Packet.type hh :), (congrArg Packet.truncated hh :),
    (congrArg Packet.window hh :), (congrArg Packet.longLength hh :),
    (congrArg Packet.length hh :), (congrArg Packet.seqnum hh :),
    (congrArg Packet.timestamp hh :), hdata⟩

theorem lengthAt_of_roundTrips (h : RoundTrips crc p) : lengthAt (packed crc p) = p.length := by
  obtain ⟨bytes, hpack, -, hunpack⟩ := h
  rw [pack_eq] at hpack
  obtain rfl : packed crc p = bytes := by injection hpack
  obtain ⟨hret, -, -, -, -, hlen, -⟩ := hunpack initPacket
  rw [← hlen]
  exact (congrArg Packet.length (unpack_ok hret).1 :).symm

end LongLength

/-- A packet that `pack` may be given survives the round trip exactly when it
has the one-byte length or the low byte of its length is zero. -/
theorem roundTrips_iff (crc : Crc) (p : Packet) (hp : Packable p) :
    RoundTrips crc p ↔ p.longLength = false ∨ p.length.toNat % 256 = 0 :=
  ⟨fun h => (lengthAt_packed_iff hp).mp (lengthAt_of_roundTrips h),
    fun h => roundTrips_of_lengthAt hp ((lengthAt_packed_iff hp).mpr h)⟩

def data128 : Packet := { initPacket with type := .data, length := 128, longLength := true }

theorem data128_packable : Packable data128 where
  type_ne := by decide
  truncated_data := by decide
  window_le := by decide
  length_le := by decide
  length_data := by decide
  long_length := by decide

theorem roundTrips_iff_data128 :
    Packable data128 ∧
      (RoundTrips bitwiseCrc data128 ↔
        data128.longLength = false ∨ data128.length.toNat % 256 = 0) :=
  ⟨data128_packable, roundTrips_iff bitwiseCrc data128 data128_packable⟩

/-- The length 128 is sent as 0. -/
theorem not_roundTrips_data128 : Packable data128 ∧ ¬ RoundTrips bitwiseCrc data128 := by
  refine ⟨data128_packable, fun h => ?_⟩
  have := (lengthAt_packed_iff data128_packable).mp (lengthAt_of_roundTrips h)
  exact absurd this (by decide)

end Trtp
