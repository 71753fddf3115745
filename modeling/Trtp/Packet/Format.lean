import Trtp.Packet.Crc
import Trtp.Packet.Unpack

/-!
# The packet format

`Format` reads the fields of a byte string as big-endian numbers, without the bit
operations, the byte swaps and the running offsets of the code.  `unpack` accepts
exactly the strings that are `Format.Valid`, as long as the packet is DATA or has no
length.

The exception is an ACK or a NACK with a length.  No payload follows it, but the
final check compares `crc2` and the payload all the same, and both are what the
output packet held before the call.
-/

namespace Trtp

namespace Format

variable (b : List UInt8)

def octet (i : Nat) : Nat := (b.getD i 0).toNat

def number (i : Nat) : Nat → Nat
  | 0 => 0
  | n + 1 => number i n * 256 + octet b (i + n)

def type : PType :=
  match octet b 0 / 64 with
  | 0 => .ignore
  | 1 => .data
  | 2 => .ack
  | _ => .nack

def truncated : Bool := octet b 0 / 32 % 2 = 1

def window : Nat := octet b 0 % 32

def long : Nat := octet b 1 / 128

def len : Nat :=
  if long b = 0 then octet b 1 % 128 else octet b 1 % 128 * 256 + octet b 2

def seqnum : Nat := octet b (2 + long b)

def timestamp : Nat := number b (3 + long b) 4

def crc1 : Nat := number b (7 + long b) 4

def carries : Bool := type b = .data ∧ truncated b = false ∧ 0 < len b

/-- The first `7 + L` bytes with the TR bit cleared. -/
def header : List UInt8 := (b.take (7 + long b)).modifyHead (· &&& 0xDF)

def payload : List UInt8 := (b.drop (11 + long b)).take (len b)

def crc2 : Nat := number b (11 + long b + len b) 4

structure Valid (crc : Crc) : Prop where
  size : b.length = 11 + long b + if carries b then len b + 4 else 0
  len_le : len b ≤ 512
  type_ne : type b ≠ .ignore
  truncated_data : truncated b = true → type b = .data
  crc1_eq : crc1 b = (crc32H crc 0 (header b)).toNat
  crc2_eq : carries b = true → crc2 b = (crc32P crc 0 (payload b)).toNat

/-- The packet `p` holds the fields of `b`. -/
structure Holds (p : Packet) : Prop where
  type : p.type = type b
  truncated : p.truncated = truncated b
  window : p.window.toNat = window b
  longLength : p.longLength = decide (long b = 1)
  length : p.length.toNat = len b
  seqnum : p.seqnum.toNat = seqnum b
  timestamp : p.timestamp.toNat = timestamp b
  crc1 : p.crc1.toNat = crc1 b
  payload : carries b = true → p.data = payload b ∧ p.crc2.toNat = crc2 b

end Format

/-! ## Reading the fields -/

section Fields

variable {b : List UInt8}

theorem byteAt_toNat (b : List UInt8) (i : Nat) : (byteAt b i).toNat = Format.octet b i := rfl

theorem bits_of_byte (n : Fin 256) :
    let x : UInt8 := UInt8.ofNat n
    ((x &&& 0xC0) >>> 6).toNat = n / 64 ∧ ((x &&& 0x20) >>> 5).toNat = n / 32 % 2 ∧
      (x &&& 0x1F).toNat = n % 32 ∧ ((x &&& 0x80) >>> 7).toNat = n / 128 ∧
      (x &&& 0x7F).toNat = n % 128 := by
  revert n
  decide +kernel

theorem byte_bits (x : UInt8) :
    ((x &&& 0xC0) >>> 6).toNat = x.toNat / 64 ∧ ((x &&& 0x20) >>> 5).toNat = x.toNat / 32 % 2 ∧
      (x &&& 0x1F).toNat = x.toNat % 32 ∧ ((x &&& 0x80) >>> 7).toNat = x.toNat / 128 ∧
      (x &&& 0x7F).toNat = x.toNat % 128 := by
  have h := bits_of_byte ⟨x.toNat, x.toNat_lt⟩
  simp only [UInt8.ofNat_toNat] at h
  exact h

theorem ofCode_eq (c : UInt8) :
    PType.ofCode c = match c.toNat with
      | 0 => .ignore
      | 1 => .data
      | 2 => .ack
      | _ => .nack := by
  unfold PType.ofCode
  simp only [← UInt8.toNat_inj, UInt8.reduceToNat]
  split_ifs with h0 h1 h2
  · rw [h0]
    rfl
  · rw [h1]
    rfl
  · rw [h2]
    rfl
  · split <;> first | contradiction | rfl

theorem type_headerAt (out : Packet) : (headerAt b out).type = Format.type b := by
  show PType.ofCode _ = _
  rw [ofCode_eq, (byte_bits _).1]
  rfl

theorem truncated_headerAt (out : Packet) :
    (headerAt b out).truncated = Format.truncated b := by
  show decide ((byteAt b 0 &&& 0x20) >>> 5 ≠ 0) = decide (Format.octet b 0 / 32 % 2 = 1)
  rw [decide_eq_decide, ne_eq, ← UInt8.toNat_inj, (byte_bits _).2.1, byteAt_toNat]
  show ¬ Format.octet b 0 / 32 % 2 = 0 ↔ _
  omega

theorem longAt_eq : longAt b = decide (Format.long b = 1) := by
  have hlt := (byteAt b 1).toNat_lt
  show decide ((byteAt b 1 &&& 0x80) >>> 7 ≠ 0) = _
  rw [decide_eq_decide, ne_eq, ← UInt8.toNat_inj, (byte_bits _).2.2.2.1]
  show ¬ (byteAt b 1).toNat / 128 = 0 ↔ (byteAt b 1).toNat / 128 = 1
  omega

theorem long_le (b : List UInt8) : Format.long b ≤ 1 := by
  have hlt := (byteAt b 1).toNat_lt
  show (byteAt b 1).toNat / 128 ≤ 1
  omega

theorem longSize_eq : longSize b = Format.long b := by
  have hle := long_le b
  unfold longSize
  rw [longAt_eq]
  by_cases h : Format.long b = 1
  · simp [h]
  · have h0 : Format.long b = 0 := by omega
    simp [h0]

theorem lengthAt_toNat : (lengthAt b).toNat = Format.len b := by
  have hle := long_le b
  have h1 := (byte_bits (byteAt b 1)).2.2.2.2
  unfold lengthAt Format.len
  rw [longAt_eq]
  by_cases h : Format.long b = 1
  · have hlt := (byteAt b 2).toNat_lt
    have h7 : (byteAt b 1).toNat % 128 < 2 ^ 8 := by omega
    have hsh : (byteAt b 2).toNat <<< 8 % 2 ^ 16 = (byteAt b 2).toNat <<< 8 := by
      rw [Nat.shiftLeft_eq]
      omega
    have hword : ((byteAt b 1 &&& 0x7F).toUInt16 ||| ((byteAt b 2).toUInt16 <<< 8)).toNat =
        (byteAt b 1).toNat % 128 + (byteAt b 2).toNat * 2 ^ 8 := by
      rw [UInt16.toNat_or, UInt16.toNat_shiftLeft, UInt8.toNat_toUInt16, UInt8.toNat_toUInt16, h1]
      show (byteAt b 1).toNat % 128 ||| (byteAt b 2).toNat <<< 8 % 2 ^ 16 = _
      rw [hsh, or_shiftLeft_eq_add h7]
    rw [if_pos (by simp [h]), if_neg (by omega), ntohs, htons_toNat, hword]
    simp only [byteAt_toNat] at hlt h7 ⊢
    omega
  · rw [if_neg (by simp [h]), if_pos (by omega), UInt8.toNat_toUInt16, h1]
    rfl

theorem wordAt_toNat (i : Nat) : (wordAt b i).toNat = Format.number b i 4 := by
  have h0 := (byteAt b i).toNat_lt
  have h1 := (byteAt b (i + 1)).toNat_lt
  have h2 := (byteAt b (i + 2)).toNat_lt
  have h3 := (byteAt b (i + 3)).toNat_lt
  rw [wordAt, ntohl, htonl, u32FromBytes_byte0, u32FromBytes_byte1, u32FromBytes_byte2,
    u32FromBytes_byte3, u32FromBytes_toNat]
  simp only [Format.number, byteAt_toNat, Nat.add_zero] at *
  omega

theorem bytesAt_eq {i n : Nat} (h : i + n ≤ b.length) : bytesAt b i n = (b.drop i).take n := by
  apply List.ext_getElem
  · simp
    omega
  · intro k h1 h2
    simp only [bytesAt_length] at h1
    have hk : i + k < b.length := by omega
    simp [bytesAt, byteAt, hk]

theorem rawAt_eq (h : 7 + Format.long b ≤ b.length) : rawAt b = Format.header b := by
  unfold rawAt Format.header
  rw [longSize_eq, bytesAt_eq (by omega)]
  cases b with
  | nil => simp at h
  | cons x rest =>
    rw [show 7 + Format.long (x :: rest) = 6 + Format.long (x :: rest) + 1 by omega,
      List.take_succ_cons, List.modifyHead_cons]
    rfl

theorem hasPayload_headerAt (out : Packet) : (headerAt b out).hasPayload = Format.carries b := by
  have hz : (headerAt b out).length ≠ 0 ↔ 0 < Format.len b := by
    rw [ne_eq, ← UInt16.toNat_inj]
    show ¬ (lengthAt b).toNat = 0 ↔ _
    rw [lengthAt_toNat]
    omega
  rw [Bool.eq_iff_iff, hasPayload_iff, type_headerAt, truncated_headerAt, hz]
  simp [Format.carries]

end Fields

/-! ## The bytes that are read -/

section Reads

variable {crc : Crc} {b b' : List UInt8} {n : Nat}

theorem wordAt_congr {i : Nat} (h : ∀ k < n, byteAt b k = byteAt b' k) (hi : i + 4 ≤ n) :
    wordAt b i = wordAt b' i := by
  unfold wordAt
  rw [h i (by omega), h (i + 1) (by omega), h (i + 2) (by omega), h (i + 3) (by omega)]

theorem bytesAt_congr {i m : Nat} (h : ∀ k < n, byteAt b k = byteAt b' k) (hi : i + m ≤ n) :
    bytesAt b i m = bytesAt b' i m := by
  apply List.map_congr_left
  intro k hk
  have hk := List.mem_range.mp hk
  exact h (i + k) (by omega)

theorem unpackPayload_congr {buffer : Nat} {rest : Int} {out : Packet}
    (h : ∀ k < n, byteAt b k = byteAt b' k) (hn : buffer + rest = n) :
    unpackPayload crc b buffer rest out = unpackPayload crc b' buffer rest out := by
  unfold unpackPayload
  by_cases h4 : rest - out.length.toNat < 4
  · simp only [h4, if_true]
  · have hword : wordAt b (buffer + out.length.toNat) = wordAt b' (buffer + out.length.toNat) :=
      wordAt_congr h (by omega)
    have hbytes : bytesAt b buffer out.length.toNat = bytesAt b' buffer out.length.toNat :=
      bytesAt_congr h (by omega)
    dsimp only
    rw [hbytes, hword]

theorem unpackFields_congr {isLong : Bool} {buffer : Nat} {rest : Int} {out : Packet}
    (h : ∀ k < n, byteAt b k = byteAt b' k) (hn : buffer + rest = n)
    (hbuffer : buffer = 2 + if isLong then 1 else 0) :
    unpackFields crc b isLong buffer rest out = unpackFields crc b' isLong buffer rest out := by
  have hlong : (if isLong then 1 else 0) ≤ 1 := by
    split <;> omega
  unfold unpackFields
  by_cases h1 : rest - 1 ≤ 0
  · simp only [h1, if_true]
  by_cases h2 : rest - 1 - 4 ≤ 0
  · simp only [h1, h2, if_true, if_false]
    rw [h buffer (by omega)]
  by_cases h3 : rest - 1 - 4 - 4 < 0
  · simp only [h1, h2, h3, if_true, if_false]
    rw [h buffer (by omega), wordAt_congr h (by omega)]
  · simp only [h1, h2, h3, if_false]
    rw [h buffer (by omega), h 0 (by omega), wordAt_congr (i := buffer + 1) h (by omega),
      wordAt_congr (i := buffer + 1 + 4) h (by omega), bytesAt_congr h (by omega),
      unpackPayload_congr h (by omega)]

theorem unpack_congr {out : Packet} (h : ∀ k < n, byteAt b k = byteAt b' k) :
    unpack crc b n out = unpack crc b' n out := by
  unfold unpack
  by_cases h1 : (n : Int) - 1 ≤ 0
  · simp only [h1, if_true]
  by_cases h2 : (n : Int) - 1 - 1 ≤ 0
  · simp only [h1, h2, if_true, if_false]
    rw [h 0 (by omega)]
  simp only [h1, h2, if_false]
  rw [h 0 (by omega), h 1 (by omega)]
  cases hl : decide ((byteAt b' 1 &&& 0x80) >>> 7 ≠ 0) with
  | true =>
    by_cases h3 : (n : Int) - 1 - 1 - 1 ≤ 0
    · simp only [h3, if_true]
    · simp only [h3, if_true, if_false]
      rw [h 2 (by omega)]
      exact unpackFields_congr h (by omega) rfl
  | false =>
    simp only [Bool.false_eq_true, if_false]
    exact unpackFields_congr h (by omega) rfl

end Reads

/-! ## Acceptance -/

section Acceptance

variable {crc : Crc} {b : List UInt8} {out : Packet}

/-- What the final check asks of the previous contents of `out` when the packet has a
length and no payload. -/
def StaleOk (crc : Crc) (b : List UInt8) (out : Packet) : Prop :=
  Format.carries b = false → 0 < Format.len b → Format.truncated b = false →
    out.crc2 = crc32P crc 0 (headerAt b out).data

theorem length_headerAt (out : Packet) : (headerAt b out).length.toNat = Format.len b :=
  lengthAt_toNat

theorem length_pos_iff (p : Packet) : p.length > 0 ↔ 0 < p.length.toNat :=
  UInt16.lt_iff_toNat_lt

theorem data_payloadAt (hl : Format.len b ≤ 512)
    (hsize : 11 + Format.long b + Format.len b ≤ b.length) :
    (payloadAt b (11 + longSize b) (headerAt b out)).data = Format.payload b := by
  rw [payloadAt_data (by rw [length_headerAt]; exact hl), length_headerAt, longSize_eq]
  exact bytesAt_eq (by omega)

theorem crc2_payloadAt :
    (payloadAt b (11 + longSize b) (headerAt b out)).crc2.toNat = Format.crc2 b := by
  have hlen : (lengthAt b).toNat = Format.len b := lengthAt_toNat
  show (wordAt b (11 + longSize b + (lengthAt b).toNat)).toNat = _
  rw [wordAt_toNat, longSize_eq, hlen]
  rfl

theorem checks_of_carries (hp : Format.carries b = true) (hl : Format.len b ≤ 512)
    (hsize : 11 + Format.long b + Format.len b + 4 ≤ b.length) (rest : Int) :
    (unpackChecks crc rest (payloadAt b (11 + longSize b) (headerAt b out))).ret = .ok () ↔
      rest ≤ 0 ∧ Format.crc2 b = (crc32P crc 0 (Format.payload b)).toNat := by
  rw [← hasPayload_headerAt out] at hp
  obtain ⟨ht, htr, -⟩ := hasPayload_iff.mp hp
  rw [hasPayload_headerAt] at hp
  have hpos : 0 < Format.len b := by
    simp only [Format.carries, decide_eq_true_eq] at hp
    exact hp.2.2
  have ht' : (payloadAt b (11 + longSize b) (headerAt b out)).type = .data := ht
  have htr' : (payloadAt b (11 + longSize b) (headerAt b out)).truncated = false := htr
  have hl' : (payloadAt b (11 + longSize b) (headerAt b out)).length.toNat = Format.len b :=
    length_headerAt out
  rw [unpackChecks_ok_iff, length_pos_iff, ht', htr', hl', data_payloadAt hl (by omega),
    ← UInt32.toNat_inj, crc2_payloadAt]
  simp [hl, hpos, maxPayloadSize]

theorem checks_of_not_carries (hp : Format.carries b = false) (hl : Format.len b ≤ 512)
    (rest : Int) :
    (unpackChecks crc rest (headerAt b out)).ret = .ok () ↔
      rest ≤ 0 ∧ Format.type b ≠ .ignore ∧
        (Format.truncated b = true → Format.type b = .data) ∧ StaleOk crc b out := by
  have hcrc : (headerAt b out).crc2 = out.crc2 := rfl
  rw [unpackChecks_ok_iff, length_pos_iff, length_headerAt, type_headerAt, truncated_headerAt, hcrc]
  unfold StaleOk
  have hnot : (Format.type b ≠ .data → Format.truncated b = false) ↔
      (Format.truncated b = true → Format.type b = .data) := by
    cases Format.truncated b <;> simp
  rw [hnot]
  simp [hp, hl, maxPayloadSize]

theorem unpackPayload_ok_of_carries (hp : Format.carries b = true) (hl : Format.len b ≤ 512) :
    (unpackPayload crc b (11 + longSize b) (b.length - 11 - longSize b) (headerAt b out)).ret =
        .ok () ↔
      b.length = 11 + Format.long b + (Format.len b + 4) ∧
        Format.crc2 b = (crc32P crc 0 (Format.payload b)).toNat := by
  have hlong := longSize_eq (b := b)
  have hpay : (headerAt b out).hasPayload = true := by rw [hasPayload_headerAt, hp]
  have hl' : (headerAt b out).length.toNat ≤ maxPayloadSize := by
    rw [length_headerAt]
    exact hl
  by_cases hr : 11 + Format.long b + Format.len b + 4 ≤ b.length
  · have hr' : ((headerAt b out).length.toNat : Int) + 4 ≤ b.length - 11 - longSize b := by
      rw [length_headerAt]
      omega
    rw [unpackPayload_of_hasPayload hpay hl' hr', checks_of_carries hp hl hr, length_headerAt]
    refine and_congr_left fun _ => ?_
    omega
  · have hr' : ((b.length : Int) - 11 - longSize b) < (headerAt b out).length.toNat + 4 := by
      rw [length_headerAt]
      omega
    refine iff_of_false (unpackPayload_too_short hpay hr') fun h => ?_
    omega

theorem unpackPayload_ok_of_not_carries (hp : Format.carries b = false)
    (hl : Format.len b ≤ 512) :
    (unpackPayload crc b (11 + longSize b) (b.length - 11 - longSize b) (headerAt b out)).ret =
        .ok () ↔
      b.length ≤ 11 + Format.long b ∧ Format.type b ≠ .ignore ∧
        (Format.truncated b = true → Format.type b = .data) ∧ StaleOk crc b out := by
  have hlong := longSize_eq (b := b)
  have hpay : (headerAt b out).hasPayload = false := by rw [hasPayload_headerAt, hp]
  have hl' : (headerAt b out).length.toNat ≤ maxPayloadSize := by
    rw [length_headerAt]
    exact hl
  rw [unpackPayload_of_not_hasPayload hpay hl', checks_of_not_carries hp hl]
  refine and_congr_left fun _ => ?_
  omega

theorem valid_iff_of_carries (hp : Format.carries b = true) (hl : Format.len b ≤ 512)
    (hcrc : Format.crc1 b = (crc32H crc 0 (Format.header b)).toNat) :
    Format.Valid b crc ∧ StaleOk crc b out ↔
      b.length = 11 + Format.long b + (Format.len b + 4) ∧
        Format.crc2 b = (crc32P crc 0 (Format.payload b)).toNat := by
  have hdata : Format.type b = .data := by
    simp only [Format.carries, decide_eq_true_eq] at hp
    exact hp.1
  constructor
  · intro h
    have hsize := h.1.size
    rw [hp, if_pos rfl] at hsize
    exact ⟨hsize, h.1.crc2_eq hp⟩
  · intro h
    refine ⟨⟨?_, hl, ?_, fun _ => hdata, hcrc, fun _ => h.2⟩, fun hn => ?_⟩
    · rw [hp, if_pos rfl]
      exact h.1
    · rw [hdata]
      exact PType.noConfusion
    · rw [hp] at hn
      cases hn

theorem valid_iff_of_not_carries (hp : Format.carries b = false) (hl : Format.len b ≤ 512)
    (hcrc : Format.crc1 b = (crc32H crc 0 (Format.header b)).toNat)
    (hs : 11 + Format.long b ≤ b.length) :
    Format.Valid b crc ∧ StaleOk crc b out ↔
      b.length ≤ 11 + Format.long b ∧ Format.type b ≠ .ignore ∧
        (Format.truncated b = true → Format.type b = .data) ∧ StaleOk crc b out := by
  constructor
  · intro h
    have hsize := h.1.size
    rw [hp, if_neg (by simp)] at hsize
    exact ⟨by omega, h.1.type_ne, h.1.truncated_data, h.2⟩
  · intro h
    obtain ⟨hsize, htype, htr, hstale⟩ := h
    refine ⟨⟨?_, hl, htype, htr, hcrc, fun h => ?_⟩, hstale⟩
    · rw [hp, if_neg (by simp)]
      omega
    · rw [hp] at h
      cases h

/-- `unpack` returns 0 on the valid packets, apart from what it then asks of the
previous contents of `out`. -/
theorem unpack_ok_iff :
    (unpack crc b b.length out).ret = .ok () ↔ Format.Valid b crc ∧ StaleOk crc b out := by
  have hlong := longSize_eq (b := b)
  by_cases hs : 11 + longSize b ≤ b.length
  swap
  · rw [unpack_short (by omega)]
    constructor
    · intro h
      cases h
    · intro h
      have := h.1.size
      omega
  have hcrc : wordAt b (7 + longSize b) = crc32H crc 0 (rawAt b) ↔
      Format.crc1 b = (crc32H crc 0 (Format.header b)).toNat := by
    rw [← UInt32.toNat_inj, wordAt_toNat, hlong, rawAt_eq (by omega)]
    rfl
  rw [unpack_long_enough (by omega)]
  by_cases hc : wordAt b (7 + longSize b) = crc32H crc 0 (rawAt b)
  swap
  · rw [if_pos hc]
    constructor
    · intro h
      cases h
    · intro h
      exact absurd (hcrc.mpr h.1.crc1_eq) hc
  rw [if_neg (not_not_intro hc)]
  have hc' := hcrc.mp hc
  by_cases hl : Format.len b ≤ 512
  swap
  · have hl' : maxPayloadSize < (headerAt b out).length.toNat := by
      rw [length_headerAt]
      exact not_le.mp hl
    constructor
    · intro h
      exact absurd h (unpackPayload_too_long hl')
    · intro h
      exact absurd h.1.len_le hl
  cases hp : Format.carries b with
  | true => rw [unpackPayload_ok_of_carries hp hl, valid_iff_of_carries hp hl hc']
  | false =>
    rw [unpackPayload_ok_of_not_carries hp hl, valid_iff_of_not_carries hp hl hc' (by omega)]

theorem unpackPayload_out {buffer : Nat} {rest : Int}
    (h : (unpackPayload crc b buffer rest out).ret = .ok ()) :
    (unpackPayload crc b buffer rest out).out =
      if out.hasPayload then payloadAt b buffer out else out := by
  have hl : out.length.toNat ≤ maxPayloadSize := by
    by_contra hl
    exact unpackPayload_too_long (not_le.mp hl) h
  cases hp : out.hasPayload with
  | true =>
    have hr : (out.length.toNat : Int) + 4 ≤ rest := by
      by_contra hr
      exact unpackPayload_too_short hp (not_le.mp hr) h
    rw [unpackPayload_of_hasPayload hp hl hr, unpackChecks_out]
    rfl
  | false =>
    rw [unpackPayload_of_not_hasPayload hp hl, unpackChecks_out]
    rfl

/-- The packet that a successful call leaves in `out`. -/
theorem unpack_out {n : Int} (h : (unpack crc b n out).ret = .ok ()) :
    (unpack crc b n out).out =
      if Format.carries b then payloadAt b (11 + longSize b) (headerAt b out)
      else headerAt b out := by
  by_cases hs : 11 + longSize b ≤ n
  swap
  · rw [unpack_short (not_le.mp hs)] at h
    cases h
  rw [unpack_long_enough hs] at h ⊢
  split_ifs at h ⊢ with hc hp
  · rw [unpackPayload_out h, if_pos (by rw [hasPayload_headerAt, hp])]
  · rw [unpackPayload_out h, if_neg (by rw [hasPayload_headerAt]; exact hp)]

theorem Format.holds_of_header {p : Packet} (h : p.header = (headerAt b out).header)
    (hpay : Format.carries b = true → p.data = Format.payload b ∧ p.crc2.toNat = Format.crc2 b) :
    Format.Holds b p where
  type := (congrArg Packet.type h).trans (type_headerAt out)
  truncated := (congrArg Packet.truncated h).trans (truncated_headerAt out)
  window := (congrArg (UInt8.toNat ∘ Packet.window) h).trans (byte_bits _).2.2.1
  longLength := (congrArg Packet.longLength h).trans longAt_eq
  length := (congrArg (UInt16.toNat ∘ Packet.length) h).trans (length_headerAt out)
  seqnum := by
    refine (congrArg (UInt8.toNat ∘ Packet.seqnum) h).trans ?_
    show (byteAt b (2 + longSize b)).toNat = _
    rw [longSize_eq]
    rfl
  timestamp := by
    refine (congrArg (UInt32.toNat ∘ Packet.timestamp) h).trans ?_
    show (wordAt b (3 + longSize b)).toNat = _
    rw [longSize_eq, wordAt_toNat]
    rfl
  crc1 := by
    refine (congrArg (UInt32.toNat ∘ Packet.crc1) h).trans ?_
    show (wordAt b (7 + longSize b)).toNat = _
    rw [longSize_eq, wordAt_toNat]
    rfl
  payload := hpay

theorem unpack_holds (h : (unpack crc b b.length out).ret = .ok ()) :
    Format.Holds b (unpack crc b b.length out).out := by
  have hv := (unpack_ok_iff.mp h).1
  refine Format.holds_of_header (unpack_ok h).1 fun hp => ?_
  have hsize := hv.size
  rw [hp, if_pos rfl] at hsize
  rw [unpack_out h, if_pos hp]
  exact ⟨data_payloadAt hv.len_le (by omega), crc2_payloadAt⟩

/-- `unpack` accepts exactly the packet format.  A packet that is DATA or has no length
is accepted when it is `Format.Valid`, the packet left in `out` then holds the fields
of `b`, and what follows the `b.length` bytes in memory does not matter. -/
theorem unpack_accepts_format (crc : Crc) (b : List UInt8) (out : Packet)
    (h : Format.type b = .data ∨ Format.len b = 0) :
    ((unpack crc b b.length out).ret = .ok () ↔ Format.Valid b crc) ∧
      ((unpack crc b b.length out).ret = .ok () →
        Format.Holds b (unpack crc b b.length out).out) ∧
      ∀ rest, unpack crc (b ++ rest) b.length out = unpack crc b b.length out := by
  refine ⟨?_, unpack_holds, fun rest => ?_⟩
  · rw [unpack_ok_iff]
    refine and_iff_left_of_imp fun _ hp hl htr => ?_
    rcases h with h | h
    · simp [Format.carries, h, htr, hl] at hp
    · omega
  · refine unpack_congr fun k hk => ?_
    simp [byteAt, List.getElem?_append_left hk]

def dataA : List UInt8 :=
  [0x45, 0x01, 0x07, 0x00, 0x00, 0x00, 0x09, 0x8B, 0xFF, 0x32, 0xB1, 0x61, 0xE8, 0xB7, 0xBE, 0x43]

theorem unpack_accepts_format_dataA :
    Format.Valid dataA bitwiseCrc ∧
      Format.Holds dataA (unpack bitwiseCrc dataA 16 initPacket).out := by
  have htype : Format.type dataA = .data := by decide
  have hret : (unpack bitwiseCrc dataA 16 initPacket).ret = .ok () := by decide +kernel
  have h := unpack_accepts_format bitwiseCrc dataA initPacket (.inl htype)
  exact ⟨h.1.mp hret, h.2.1 hret⟩

end Acceptance

/-! ## Stale contents of `out` -/

section Stale

variable {crc : Crc} {b : List UInt8} {n : Int}

/-- The previous contents of `out` decide neither the return code nor, on success, the
header fields and the payload, when there is one. -/
def StaleFree (crc : Crc) (b : List UInt8) (n : Int) : Prop :=
  ∀ o₁ o₂ : Packet,
    (unpack crc b n o₁).ret = (unpack crc b n o₂).ret ∧
      ((unpack crc b n o₁).ret = .ok () →
        (unpack crc b n o₁).out.header = (unpack crc b n o₂).out.header ∧
          ((unpack crc b n o₁).out.hasPayload = true →
            (unpack crc b n o₁).out.data = (unpack crc b n o₂).out.data))

/-- The `n` bytes are the header of an ACK or a NACK that announces a length, without
the TR bit, and its CRC is right.  There is no payload behind the length. -/
structure Format.Unbacked (b : List UInt8) (crc : Crc) (n : Int) : Prop where
  size : n = 11 + long b
  type : type b = .ack ∨ type b = .nack
  truncated : truncated b = false
  len_pos : 0 < len b
  len_le : len b ≤ 512
  crc1_eq : crc1 b = (crc32H crc 0 (rawAt b)).toNat

theorem crc1_eq_iff :
    wordAt b (7 + longSize b) = crc32H crc 0 (rawAt b) ↔
      Format.crc1 b = (crc32H crc 0 (rawAt b)).toNat := by
  rw [← UInt32.toNat_inj, wordAt_toNat, longSize_eq]
  rfl

theorem unpackChecks_ret_congr {rest : Int} {p q : Packet} (ht : p.type = q.type)
    (htr : p.truncated = q.truncated) (hl : p.length = q.length)
    (hcrc : rest ≤ 0 → q.type ≠ .ignore → q.length > 0 → q.truncated = false →
      (p.crc2 ≠ crc32P crc 0 p.data ↔ q.crc2 ≠ crc32P crc 0 q.data)) :
    (unpackChecks crc rest p).ret = (unpackChecks crc rest q).ret := by
  unfold unpackChecks
  rw [ht, htr, hl]
  by_cases h1 : rest > 0
  · simp only [h1, if_true]
  by_cases h2 : q.type = .ignore
  · simp only [h1, h2, if_true, if_false]
  by_cases h3 : q.type ≠ .data ∧ q.truncated
  · simp only [h1, h2, if_pos h3, if_false]
  by_cases h4 : q.length.toNat > maxPayloadSize
  · simp only [h1, h2, h4, if_neg h3, if_true, if_false]
  simp only [h1, h2, h4, if_neg h3, if_false]
  by_cases h5 : q.length > 0 ∧ !q.truncated
  · have h6 : q.truncated = false := by simpa using h5.2
    have := hcrc (not_lt.mp h1) h2 h5.1 h6
    simp only [h5.1, h6, this, Bool.not_false, true_and]
    split_ifs <;> rfl
  · rw [if_neg fun h => h5 ⟨h.1, h.2.1⟩, if_neg fun h => h5 ⟨h.1, h.2.1⟩]

theorem unpackPayload_ret_of_too_long {buffer : Nat} {rest : Int} {out : Packet}
    (hl : maxPayloadSize < out.length.toNat) :
    (unpackPayload crc b buffer rest out).ret =
      .error (if rest = 0 ∧ out.hasPayload then .packetTooShort else .packetIncorrectLength) := by
  unfold unpackPayload
  split_ifs <;> rfl

theorem unpackPayload_ret_of_too_short {buffer : Nat} {rest : Int} {out : Packet}
    (hp : out.hasPayload) (hl : out.length.toNat ≤ maxPayloadSize)
    (hrest : rest < out.length.toNat + 4) :
    (unpackPayload crc b buffer rest out).ret = .error .packetTooShort := by
  have h4 : rest - out.length.toNat < 4 := by omega
  have hl : ¬ out.length.toNat > maxPayloadSize := not_lt.mpr hl
  unfold unpackPayload
  split_ifs
  · rfl
  · simp only [h4, if_true]

theorem Format.unbacked_of_checks (h : wordAt b (7 + longSize b) = crc32H crc 0 (rawAt b))
    (hn : 11 + longSize b ≤ n) (hrest : n - 11 - longSize b ≤ 0) (hp : Format.carries b = false)
    (htype : Format.type b ≠ .ignore) (htr : Format.truncated b = false)
    (hpos : 0 < Format.len b) (hl : Format.len b ≤ 512) : Format.Unbacked b crc n where
  size := by
    rw [longSize_eq] at hn hrest
    omega
  type := by
    cases ht : Format.type b with
    | ignore => exact absurd ht htype
    | data => simp [Format.carries, ht, htr, hpos] at hp
    | ack => exact .inl rfl
    | nack => exact .inr rfl
  truncated := htr
  len_pos := hpos
  len_le := hl
  crc1_eq := crc1_eq_iff.mp h

theorem unpackPayload_ret_congr (o₁ o₂ : Packet)
    (h : wordAt b (7 + longSize b) = crc32H crc 0 (rawAt b)) (hn : 11 + longSize b ≤ n)
    (hf : ¬ Format.Unbacked b crc n) :
    (unpackPayload crc b (11 + longSize b) (n - 11 - longSize b) (headerAt b o₁)).ret =
      (unpackPayload crc b (11 + longSize b) (n - 11 - longSize b) (headerAt b o₂)).ret := by
  have hl₁ := length_headerAt (b := b) o₁
  have hl₂ := length_headerAt (b := b) o₂
  have hp₁ := hasPayload_headerAt (b := b) o₁
  have hp₂ := hasPayload_headerAt (b := b) o₂
  by_cases hl : Format.len b ≤ maxPayloadSize
  swap
  · have hl := not_le.mp hl
    rw [unpackPayload_ret_of_too_long (hl.trans_eq hl₁.symm),
      unpackPayload_ret_of_too_long (hl.trans_eq hl₂.symm), hp₁, hp₂]
  cases hp : Format.carries b with
  | true =>
    rw [hp] at hp₁ hp₂
    by_cases hr : (Format.len b : Int) + 4 ≤ n - 11 - longSize b
    · rw [unpackPayload_of_hasPayload hp₁ (hl₁.trans_le hl) (by omega),
        unpackPayload_of_hasPayload hp₂ (hl₂.trans_le hl) (by omega)]
      refine unpackChecks_ret_congr rfl rfl rfl fun _ _ _ _ => ?_
      have hcontent : (payloadAt b (11 + longSize b) (headerAt b o₁)).content =
          (payloadAt b (11 + longSize b) (headerAt b o₂)).content :=
        payloadAt_headerAt_content o₁ o₂ (lengthAt_toNat.trans_le hl)
      have hdata := congrArg Content.data hcontent
      simp only [Packet.content] at hdata
      rw [hdata]
      rfl
    · rw [unpackPayload_ret_of_too_short hp₁ (hl₁.trans_le hl) (by omega),
        unpackPayload_ret_of_too_short hp₂ (hl₂.trans_le hl) (by omega)]
  | false =>
    rw [hp] at hp₁ hp₂
    rw [unpackPayload_of_not_hasPayload hp₁ (hl₁.trans_le hl),
      unpackPayload_of_not_hasPayload hp₂ (hl₂.trans_le hl)]
    -- Without a payload the final check is reached only by what `hf` excludes.
    refine unpackChecks_ret_congr rfl rfl rfl fun hrest htype hpos htr => absurd ?_ hf
    rw [type_headerAt] at htype
    rw [truncated_headerAt] at htr
    rw [gt_iff_lt, UInt16.lt_iff_toNat_lt, length_headerAt] at hpos
    exact Format.unbacked_of_checks h hn hrest hp htype htr hpos hl

theorem staleFree_of_not_unbacked (hf : ¬ Format.Unbacked b crc n) : StaleFree crc b n := by
  intro o₁ o₂
  have hret : (unpack crc b n o₁).ret = (unpack crc b n o₂).ret := by
    by_cases hn : 11 + longSize b ≤ n
    · rw [unpack_long_enough hn, unpack_long_enough hn]
      split_ifs with h
      · rfl
      · exact unpackPayload_ret_congr o₁ o₂ (not_not.mp h) hn hf
    · rw [unpack_short (not_le.mp hn), unpack_short (not_le.mp hn)]
  refine ⟨hret, fun hok => ⟨?_, fun hp => ?_⟩⟩
  · rw [(unpack_ok hok).1, (unpack_ok (hret ▸ hok)).1]
    rfl
  · rw [unpack_out hok] at hp ⊢
    rw [unpack_out (hret ▸ hok)]
    have hl := (unpack_ok hok).2
    split_ifs at hp ⊢ with hc
    · exact congrArg Content.data (payloadAt_headerAt_content o₁ o₂ hl)
    · rw [hasPayload_headerAt] at hp
      exact absurd hp hc

theorem not_staleFree_of_unbacked (hf : Format.Unbacked b crc n) : ¬ StaleFree crc b n := by
  have hp : Format.carries b = false := by
    rcases hf.type with h | h <;> simp [Format.carries, h]
  have hn : n = 11 + longSize b := by rw [hf.size, longSize_eq]
  have hl : Format.len b ≤ 512 := hf.len_le
  have hret (o : Packet) : (unpack crc b n o).ret = .ok () ↔
      o.crc2 = crc32P crc 0 (headerAt b o).data := by
    rw [unpack_long_enough hn.ge, if_neg (not_not_intro (crc1_eq_iff.mpr hf.crc1_eq)),
      unpackPayload_of_not_hasPayload (by rw [hasPayload_headerAt, hp])
        (by rw [length_headerAt]; exact hl), checks_of_not_carries hp hl]
    constructor
    · intro h
      exact h.2.2.2 hp hf.len_pos hf.truncated
    · intro h
      refine ⟨by omega, ?_, fun htr => ?_, fun _ _ _ => h⟩
      · rcases hf.type with h | h <;> rw [h] <;> exact PType.noConfusion
      · rw [hf.truncated] at htr
        cases htr
  intro hs
  -- The same payload left in `out`, once with its CRC and once with another value.
  let stale := crc32P crc 0 (headerAt b initPacket).data
  have h₁ := (hret { initPacket with crc2 := stale }).mpr rfl
  rw [(hs _ { initPacket with crc2 := stale + 1 }).1, hret] at h₁
  have h₂ : stale + 1 = stale := h₁
  simp at h₂

/-- The verdict of `unpack` depends on what `out` held exactly on the headers of ACKs and
NACKs that announce a length. -/
theorem staleFree_iff (crc : Crc) (b : List UInt8) (n : Int) :
    StaleFree crc b n ↔ ¬ Format.Unbacked b crc n := by
  constructor
  · intro hs hf
    exact not_staleFree_of_unbacked hf hs
  · exact staleFree_of_not_unbacked

def ackOne : List UInt8 :=
  [0x80, 0x01, 0x00, 0x00, 0x00, 0x00, 0x00, 0xDE, 0x26, 0xE6, 0x29]

/-- The ACK is refused when `out` is a new packet, and accepted when the payload of `out`
has the CRC that `out` also holds. -/
theorem not_staleFree_ackOne : ¬ StaleFree bitwiseCrc ackOne 11 := by
  have h₁ : (unpack bitwiseCrc ackOne 11 initPacket).ret = .error .payloadValidationFailed := by
    decide +kernel
  have h₂ : (unpack bitwiseCrc ackOne 11 { initPacket with crc2 := 0xD202EF8D }).ret = .ok () := by
    decide +kernel
  intro hs
  rw [(hs _ { initPacket with crc2 := 0xD202EF8D }).1, h₂] at h₁
  cases h₁

end Stale

end Trtp
