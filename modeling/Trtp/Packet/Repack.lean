import Trtp.Packet.Format
import Trtp.Packet.RoundTrip

/-!
# Packing what has been unpacked

A byte string that `unpack` accepts is the `Packet.image` of the packet it is read into.  So it is
determined by the fields of this packet (`unpack_same_iff`).  `pack` gives it back, except where
the second byte of its length is not zero, since `pack` writes this byte shifted by one bit
(`repack_iff`).
-/

namespace Trtp

def Packet.lengthBytes (p : Packet) : List UInt8 :=
  if p.longLength then
    [(0x80 ||| (htons p.length &&& 0x7F)).toUInt8, (htons p.length >>> 8).toUInt8]
  else [(p.length &&& 0x7F).toUInt8]

def Packet.fieldBytes (p : Packet) : List UInt8 :=
  p.lengthBytes ++ p.seqnum :: bytesOfU32 (htonl p.timestamp)

/-- The byte string of a packet: what `pack` writes, with the length as `unpack` reads it. -/
def Packet.image (crc : Crc) (p : Packet) : List UInt8 :=
  packHeaderTr p :: p.fieldBytes ++
    bytesOfU32 (htonl (crc32H crc 0 (packHeader p :: p.fieldBytes))) ++ packPayload crc p true

/-- The packets agree on the fields of the header, the CRC apart, and on the payload, if they have
one. -/
structure SameFields (p q : Packet) : Prop where
  type : p.type = q.type
  truncated : p.truncated = q.truncated
  window : p.window = q.window
  longLength : p.longLength = q.longLength
  length : p.length = q.length
  seqnum : p.seqnum = q.seqnum
  timestamp : p.timestamp = q.timestamp
  data : p.hasPayload = true → p.data = q.data

/-! ## Bytes -/

section Bytes

variable {b : List UInt8}

theorem bytesAt_split {i j m n k : ℕ} (hj : j = i + m) (hk : k = m + n) :
    bytesAt b i m ++ bytesAt b j n = bytesAt b i k := by
  subst hj hk
  simp only [bytesAt, List.range_add, List.map_append, List.map_map, Function.comp_def,
    Nat.add_assoc]

theorem bytesAt_all (b : List UInt8) : bytesAt b 0 b.length = b := by
  rw [bytesAt_eq (Nat.le_of_eq (Nat.zero_add _)), List.drop_zero, List.take_length]

theorem bytesOfU32_wordAt (b : List UInt8) (i : ℕ) :
    bytesOfU32 (htonl (wordAt b i)) = bytesAt b i 4 := by
  rw [wordAt, ntohl, htonl_htonl, bytesOfU32, u32FromBytes_byte0, u32FromBytes_byte1,
    u32FromBytes_byte2, u32FromBytes_byte3]
  rfl

theorem htons_htons (x : UInt16) : htons (htons x) = x := by
  have hx := x.toNat_lt
  apply UInt16.toNat_inj.mp
  rw [htons_toNat, htons_toNat]
  omega

theorem headerByte_fin (n : Fin 256) :
    let x : UInt8 := UInt8.ofNat n
    let h := ((PType.ofCode ((x &&& 0xC0) >>> 6)).code <<< 6) ||| ((x &&& 0x1F) &&& 0x1F)
    h = x &&& 0xDF ∧ h ||| ((if (x &&& 0x20) >>> 5 ≠ 0 then 1 else 0 : UInt8) <<< 5) = x := by
  revert n
  decide +kernel

theorem shortByte_fin (n : Fin 256) (h : (UInt8.ofNat n &&& 0x80) >>> 7 = 0) :
    ((UInt8.ofNat n &&& 0x7F).toUInt16 &&& 0x7F).toUInt8 = UInt8.ofNat n := by
  revert n
  decide +kernel

theorem longByte_fin (n : Fin 256) (h : (UInt8.ofNat n &&& 0x80) >>> 7 ≠ 0) :
    (0x80 ||| UInt16.ofNat (n % 128)).toUInt8 = UInt8.ofNat n := by
  revert n
  decide +kernel

theorem longWord_toNat (x y : UInt8) :
    ((x &&& 0x7F).toUInt16 ||| (y.toUInt16 <<< 8)).toNat = x.toNat % 128 + y.toNat * 2 ^ 8 := by
  have hx := (byte_bits x).2.2.2.2
  have hy := y.toNat_lt
  have hsh : y.toNat <<< 8 % 2 ^ 16 = y.toNat <<< 8 := by
    rw [Nat.shiftLeft_eq]
    omega
  rw [UInt16.toNat_or, UInt16.toNat_shiftLeft, UInt8.toNat_toUInt16, UInt8.toNat_toUInt16, hx]
  show x.toNat % 128 ||| y.toNat <<< 8 % 2 ^ 16 = _
  rw [hsh, or_shiftLeft_eq_add (by omega)]

theorem longWord_and (x y : UInt8) :
    ((x &&& 0x7F).toUInt16 ||| (y.toUInt16 <<< 8)) &&& 0x7F = UInt16.ofNat (x.toNat % 128) := by
  have hlt : x.toNat % 128 < UInt16.size := by
    show _ < 65536
    omega
  apply UInt16.toNat_inj.mp
  rw [UInt16.toNat_and, longWord_toNat, UInt16.toNat_ofNat_of_lt' hlt]
  show _ &&& (2 ^ 7 - 1) = _
  rw [Nat.and_two_pow_sub_one_eq_mod]
  omega

theorem longWord_shiftRight (x y : UInt8) :
    (((x &&& 0x7F).toUInt16 ||| (y.toUInt16 <<< 8)) >>> 8).toUInt8 = y := by
  have hy := y.toNat_lt
  apply UInt8.toNat_inj.mp
  rw [UInt16.toNat_toUInt8, UInt16.toNat_shiftRight, longWord_toNat]
  show (x.toNat % 128 + y.toNat * 2 ^ 8) >>> 8 % 2 ^ 8 = _
  rw [Nat.shiftRight_eq_div_pow]
  omega

end Bytes

/-! ## The image of an accepted string -/

section Image

variable {crc : Crc} {b : List UInt8} {out : Packet}

theorem header_eq (h : (unpack crc b b.length out).ret = .ok ()) :
    packHeader (unpack crc b b.length out).out = byteAt b 0 &&& 0xDF ∧
      packHeaderTr (unpack crc b b.length out).out = byteAt b 0 := by
  have hh := (unpack_ok h).1
  have ht := congrArg Packet.type hh
  have htr := congrArg Packet.truncated hh
  have hw := congrArg Packet.window hh
  have key := headerByte_fin ⟨(byteAt b 0).toNat, (byteAt b 0).toNat_lt⟩
  simp only [Packet.header, headerAt] at ht htr hw
  simp only [UInt8.ofNat_toNat] at key
  simp only [packHeaderTr, packHeader, ht, htr, hw, decide_eq_true_eq]
  exact key

theorem lengthBytes_eq (h : (unpack crc b b.length out).ret = .ok ()) :
    (unpack crc b b.length out).out.lengthBytes = bytesAt b 1 (1 + longSize b) := by
  have hh := (unpack_ok h).1
  have hlong : (unpack crc b b.length out).out.longLength = longAt b :=
    congrArg Packet.longLength hh
  have hlen : (unpack crc b b.length out).out.length = lengthAt b := congrArg Packet.length hh
  have hx := (byteAt b 1).toNat_lt
  unfold Packet.lengthBytes
  rw [hlong, hlen]
  cases hl : longAt b with
  | false =>
    have key := shortByte_fin ⟨(byteAt b 1).toNat, hx⟩
    simp only [UInt8.ofNat_toNat] at key
    have hbit : (byteAt b 1 &&& 0x80) >>> 7 = 0 := by
      simpa [longAt] using hl
    simp only [lengthAt, longSize, hl, Bool.false_eq_true, if_false, key hbit]
    rfl
  | true =>
    have key := longByte_fin ⟨(byteAt b 1).toNat, hx⟩
    simp only [UInt8.ofNat_toNat] at key
    have hbit : (byteAt b 1 &&& 0x80) >>> 7 ≠ 0 := by
      simpa [longAt] using hl
    simp only [lengthAt, longSize, hl, if_true, ntohs, htons_htons, longWord_and,
      longWord_shiftRight, key hbit]
    rfl

theorem fieldBytes_eq (h : (unpack crc b b.length out).ret = .ok ()) :
    (unpack crc b b.length out).out.fieldBytes = bytesAt b 1 (6 + longSize b) := by
  have hh := (unpack_ok h).1
  have hseq : (unpack crc b b.length out).out.seqnum = byteAt b (2 + longSize b) :=
    congrArg Packet.seqnum hh
  have htime : (unpack crc b b.length out).out.timestamp = wordAt b (3 + longSize b) :=
    congrArg Packet.timestamp hh
  rw [Packet.fieldBytes, lengthBytes_eq h, hseq, htime, bytesOfU32_wordAt]
  calc bytesAt b 1 (1 + longSize b) ++
        (bytesAt b (2 + longSize b) 1 ++ bytesAt b (3 + longSize b) 4)
    _ = bytesAt b 1 (1 + longSize b) ++ bytesAt b (2 + longSize b) 5 := by
      rw [bytesAt_split (by omega) rfl]
    _ = bytesAt b 1 (6 + longSize b) := bytesAt_split (by omega) (by omega)

theorem hasPayload_out (h : (unpack crc b b.length out).ret = .ok ()) :
    (unpack crc b b.length out).out.hasPayload = Format.carries b := by
  rw [← hasPayload_headerAt out]
  exact (congrArg Packet.hasPayload (unpack_ok h).1 :)

theorem crc2_out (h : (unpack crc b b.length out).ret = .ok ())
    (hp : (unpack crc b b.length out).out.hasPayload = true) :
    (unpack crc b b.length out).out.crc2 =
      crc32P crc 0 (unpack crc b b.length out).out.data := by
  rw [hasPayload_out h] at hp
  obtain ⟨hdata, hcrc⟩ := (unpack_holds h).payload hp
  rw [← UInt32.toNat_inj, hdata, hcrc]
  exact (unpack_ok_iff.mp h).1.crc2_eq hp

theorem packPayload_eq (h : (unpack crc b b.length out).ret = .ok ()) :
    packPayload crc (unpack crc b b.length out).out true =
      bytesAt b (11 + longSize b) (b.length - (11 + longSize b)) := by
  have hv := (unpack_ok_iff.mp h).1
  have hsize := hv.size
  have hlong := longSize_eq (b := b)
  cases hp : Format.carries b with
  | false =>
    rw [hp, if_neg (by simp)] at hsize
    rw [show b.length - (11 + longSize b) = 0 by omega,
      packPayload_of_not_hasPayload (by rw [hasPayload_out h, hp])]
    rfl
  | true =>
    rw [hp, if_pos rfl] at hsize
    have hpay : (unpack crc b b.length out).out.hasPayload = true := by rw [hasPayload_out h, hp]
    have hdata : (unpack crc b b.length out).out.data =
        bytesAt b (11 + longSize b) (Format.len b) := by
      rw [bytesAt_eq (by omega), hlong]
      exact ((unpack_holds h).payload hp).1
    have hcrc : (unpack crc b b.length out).out.crc2 =
        wordAt b (11 + longSize b + Format.len b) := by
      rw [← UInt32.toNat_inj, wordAt_toNat, hlong]
      exact ((unpack_holds h).payload hp).2
    rw [packPayload_of_hasPayload hpay, ← crc2_out h hpay, hdata, hcrc, bytesOfU32_wordAt]
    exact bytesAt_split rfl (by omega)

/-- An accepted string is the image of the packet that it is read into. -/
theorem image_eq (h : (unpack crc b b.length out).ret = .ok ()) :
    (unpack crc b b.length out).out.image crc = b := by
  have hv := (unpack_ok_iff.mp h).1
  have hsize := hv.size
  have hlong := longSize_eq (b := b)
  have hs : 11 + longSize b ≤ b.length := by omega
  have hraw : rawAt b = Format.header b := rawAt_eq (by omega)
  have hcrc : wordAt b (7 + longSize b) = crc32H crc 0 (rawAt b) :=
    crc1_eq_iff.mpr (hraw ▸ hv.crc1_eq)
  obtain ⟨hheader, htr⟩ := header_eq h
  rw [Packet.image, htr, hheader, fieldBytes_eq h, packPayload_eq h]
  rw [rawAt] at hcrc
  rw [← hcrc, bytesOfU32_wordAt]
  calc bytesAt b 0 1 ++ bytesAt b 1 (6 + longSize b) ++ bytesAt b (7 + longSize b) 4 ++
        bytesAt b (11 + longSize b) (b.length - (11 + longSize b))
    _ = bytesAt b 0 (7 + longSize b) ++ bytesAt b (7 + longSize b) 4 ++
        bytesAt b (11 + longSize b) (b.length - (11 + longSize b)) := by
      rw [bytesAt_split (k := 7 + longSize b) rfl (by omega)]
    _ = bytesAt b 0 (11 + longSize b) ++
        bytesAt b (11 + longSize b) (b.length - (11 + longSize b)) := by
      rw [bytesAt_split (k := 11 + longSize b) (by omega) (by omega)]
    _ = bytesAt b 0 b.length := bytesAt_split (by omega) (by omega)
    _ = b := bytesAt_all b

/-! ## The fields determine the string -/

theorem SameFields.hasPayload_eq {p q : Packet} (h : SameFields p q) :
    p.hasPayload = q.hasPayload := by
  rw [Packet.hasPayload, Packet.hasPayload, h.type, h.truncated, h.length]

theorem SameFields.image_eq {p q : Packet} (h : SameFields p q) : p.image crc = q.image crc := by
  have hheader : packHeader p = packHeader q := by
    rw [packHeader, packHeader, h.type, h.window]
  have hfields : p.fieldBytes = q.fieldBytes := by
    rw [Packet.fieldBytes, Packet.fieldBytes, Packet.lengthBytes, Packet.lengthBytes, h.longLength,
      h.length, h.seqnum, h.timestamp]
  have hpayload : packPayload crc p true = packPayload crc q true := by
    cases hp : p.hasPayload with
    | false =>
      rw [packPayload_of_not_hasPayload hp,
        packPayload_of_not_hasPayload (h.hasPayload_eq.symm.trans hp)]
    | true =>
      rw [packPayload_of_hasPayload hp, packPayload_of_hasPayload (h.hasPayload_eq.symm.trans hp),
        h.data hp]
  rw [Packet.image, Packet.image, packHeaderTr, packHeaderTr, hheader, h.truncated, hfields,
    hpayload]

/-- What `out` held before has no influence on these fields. -/
theorem sameFields_out {out' : Packet} (h : (unpack crc b b.length out).ret = .ok ())
    (h' : (unpack crc b b.length out').ret = .ok ()) :
    SameFields (unpack crc b b.length out).out (unpack crc b b.length out').out := by
  have hh := (unpack_ok h).1
  have hh' := (unpack_ok h').1
  have key : (unpack crc b b.length out).out.header = (unpack crc b b.length out').out.header :=
    hh.trans hh'.symm
  refine ⟨(congrArg Packet.type key :), (congrArg Packet.truncated key :),
    (congrArg Packet.window key :), (congrArg Packet.longLength key :),
    (congrArg Packet.length key :), (congrArg Packet.seqnum key :),
    (congrArg Packet.timestamp key :), fun hp => ?_⟩
  rw [hasPayload_out h] at hp
  rw [((unpack_holds h).payload hp).1, ((unpack_holds h').payload hp).1]

end Image

/-- Two accepted strings are equal exactly when the packets that they are read into have the same
fields: no packet has two encodings, and the CRCs distinguish nothing. -/
theorem unpack_same_iff (crc : Crc) (b b' : List UInt8) (out out' : Packet)
    (h : (unpack crc b b.length out).ret = .ok ())
    (h' : (unpack crc b' b'.length out').ret = .ok ()) :
    SameFields (unpack crc b b.length out).out (unpack crc b' b'.length out').out ↔ b = b' := by
  constructor
  · intro hsame
    calc b = (unpack crc b b.length out).out.image crc := (image_eq h).symm
      _ = (unpack crc b' b'.length out').out.image crc := hsame.image_eq
      _ = b' := image_eq h'
  · rintro rfl
    exact sameFields_out h h'

theorem unpack_same_iff_dataA_ackOne :
    ¬ SameFields (unpack bitwiseCrc dataA dataA.length initPacket).out
      (unpack bitwiseCrc ackOne ackOne.length { initPacket with crc2 := 0xD202EF8D }).out := by
  intro hsame
  have heq := (unpack_same_iff bitwiseCrc dataA ackOne initPacket
    { initPacket with crc2 := 0xD202EF8D } (by decide +kernel) (by decide +kernel)).mp hsame
  exact absurd heq (by decide)

/-! ## Packing -/

section Repack

variable {crc : Crc} {b : List UInt8} {out p : Packet}

theorem packPayload_of_crc2 (hc : p.hasPayload = true → p.crc2 = crc32P crc 0 p.data)
    (recomputeCrc2 : Bool) : packPayload crc p recomputeCrc2 = packPayload crc p true := by
  cases recomputeCrc2 with
  | true => rfl
  | false =>
    unfold packPayload
    by_cases hcond : (!p.truncated && p.type = .data && p.length > 0) = true
    · have hp : p.hasPayload = true := by
        simp only [Bool.and_eq_true, Bool.not_eq_true', decide_eq_true_eq] at hcond
        exact hasPayload_iff.mpr ⟨hcond.1.2, hcond.1.1, UInt16.pos_iff_ne_zero.mp hcond.2⟩
      rw [if_pos hcond, if_pos hcond, hc hp]
      rfl
    · rw [if_neg hcond, if_neg hcond]

theorem pack_of_crc2 (hc : p.hasPayload = true → p.crc2 = crc32P crc 0 p.data)
    (recomputeCrc2 : Bool) : pack crc (some p) recomputeCrc2 = .ok (packed crc p) := by
  rw [← pack_eq, pack, pack, packPayload_of_crc2 hc]

theorem lengthBytes_length (p : Packet) :
    p.lengthBytes.length = 1 + (if p.longLength then 1 else 0) := by
  cases h : p.longLength <;> simp [Packet.lengthBytes, h]

/-- `pack` writes the image exactly when it writes the length as it is read. -/
theorem packed_eq_image_iff : packed crc p = p.image crc ↔ packLength p = p.lengthBytes := by
  constructor
  · intro h
    simp only [packed, Packet.image, Packet.fieldBytes, List.cons_append, List.append_assoc,
      List.cons.injEq, true_and] at h
    exact List.append_inj_left h (by rw [packLength_length, lengthBytes_length])
  · intro h
    simp only [packed, headerCrc, packFields, Packet.image, Packet.fieldBytes, h, List.cons_append,
      List.append_assoc]

theorem htons_shiftRight_eight (l : UInt16) : (htons l >>> 8).toUInt8.toNat = l.toNat % 256 := by
  have hl := l.toNat_lt
  rw [UInt16.toNat_toUInt8, UInt16.toNat_shiftRight, htons_toNat]
  show (l.toNat / 2 ^ 8 + l.toNat % 2 ^ 8 * 2 ^ 8) >>> 8 % 2 ^ 8 = _
  have hdiv : (l.toNat / 2 ^ 8 + l.toNat % 2 ^ 8 * 2 ^ 8) / 2 ^ 8 = l.toNat % 2 ^ 8 := by
    omega
  rw [Nat.shiftRight_eq_div_pow, hdiv]
  omega

theorem packLength_eq_iff (hl : p.length.toNat ≤ maxPayloadSize) :
    packLength p = p.lengthBytes ↔ p.longLength = false ∨ p.length.toNat % 256 = 0 := by
  cases h : p.longLength with
  | false => simp [packLength, Packet.lengthBytes, h]
  | true =>
    rw [packLength_long h, Packet.lengthBytes, if_pos h]
    simp only [List.cons.injEq, and_true, true_and, Bool.true_eq_false, false_or]
    rw [← UInt8.toNat_inj, htons_shiftRight hl, htons_shiftRight_eight]
    omega

end Repack

/-- `pack` gives an accepted string back, whether it computes the CRC of the payload or takes the
one that has been read, exactly when the length has one byte or its second byte is zero. -/
theorem repack_iff (crc : Crc) (b : List UInt8) (out : Packet) (recomputeCrc2 : Bool)
    (h : (unpack crc b b.length out).ret = .ok ()) :
    pack crc (some (unpack crc b b.length out).out) recomputeCrc2 = .ok b ↔
      Format.long b = 0 ∨ Format.len b % 256 = 0 := by
  have hholds := unpack_holds h
  have hlong : (unpack crc b b.length out).out.longLength = false ↔ Format.long b = 0 := by
    have hle := long_le b
    rw [hholds.longLength, decide_eq_false_iff_not]
    omega
  have hl : (unpack crc b b.length out).out.length.toNat ≤ maxPayloadSize :=
    hholds.length.trans_le (unpack_ok_iff.mp h).1.len_le
  set p := (unpack crc b b.length out).out with hp
  have himage : p.image crc = b := image_eq h
  calc pack crc (some p) recomputeCrc2 = .ok b ↔ packed crc p = p.image crc := by
        rw [pack_of_crc2 (crc2_out h), Except.ok.injEq, himage]
    _ ↔ packLength p = p.lengthBytes := packed_eq_image_iff
    _ ↔ Format.long b = 0 ∨ Format.len b % 256 = 0 := by
        rw [packLength_eq_iff hl, hlong, hholds.length]

def truncated128 : List UInt8 :=
  [0x65, 0x80, 0x80, 0x07, 0x00, 0x00, 0x00, 0x09, 0x59, 0x05, 0x89, 0x7E]

theorem not_repack_truncated128 :
    pack bitwiseCrc (some (unpack bitwiseCrc truncated128 truncated128.length initPacket).out)
      true ≠ .ok truncated128 := by
  intro hpack
  have hlen := (repack_iff bitwiseCrc truncated128 initPacket true (by decide +kernel)).mp hpack
  exact absurd hlen (by decide)

end Trtp
