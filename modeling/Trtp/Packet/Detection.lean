import Trtp.Packet.Corruption
import Trtp.Packet.CrcRoutines

/-!
# What the CRC detects

With the routines that `packet.c` calls, `unpack` rejects every packet in which two bits have
been flipped, and every one in which up to four bytes in a row have been replaced, within the
fields after the length, within the payload or within one of the CRCs.

A flipped bit adds a value to the register that depends on its distance from the end only: it
is `topBit` after so many steps.  The bits of the CRC itself are the last 32 of them.  The
values repeat only after more steps than a packet has bits (`iterate_topBit_ne`), so two
flips never cancel out.
-/

namespace Trtp

/-- The bit that enters the register. -/
def topBit : UInt32 := 0x80000000

theorem iterate_crcBit_injective (n : ℕ) : Function.Injective crcBit^[n] :=
  crcBit_injective.iterate n

/-- The bits of the longest header and payload, with their CRC. -/
theorem natBit_orbit :
    (List.iterate natBit (natBit 0x80000000) 4200).all (· != 0x80000000) = true := by
  decide +kernel

theorem iterate_topBit_ne {d : ℕ} (hd : d < 4200) : crcBit^[d + 1] topBit ≠ topBit := by
  intro h
  have hnat : ∀ n, (crcBit^[n] topBit).toNat = natBit^[n] 0x80000000 := by
    intro n
    induction n with
    | zero => rfl
    | succ n ih => rw [Function.iterate_succ_apply', Function.iterate_succ_apply', crcBit_toNat, ih]
  have hget : (List.iterate natBit (natBit 0x80000000) 4200)[d]? =
      some (natBit^[d + 1] 0x80000000) :=
    List.getElem?_iterate _ _ _ _ hd
  have hne := List.all_eq_true.mp natBit_orbit _ (List.mem_of_getElem? hget)
  rw [← hnat, h] at hne
  exact absurd hne (by decide)

/-- Bits at different distances from the end have different values. -/
theorem iterate_topBit_inj {m n : ℕ} (hm : m ≤ 4200) (hn : n ≤ 4200)
    (h : crcBit^[m] topBit = crcBit^[n] topBit) : m = n := by
  by_contra hne
  wlog hlt : m < n generalizing m n
  · exact this hn hm h.symm (Ne.symm hne) (by omega)
  obtain ⟨d, rfl⟩ := Nat.exists_eq_add_of_lt hlt
  rw [Nat.add_assoc, Function.iterate_add_apply] at h
  exact iterate_topBit_ne (by omega) (iterate_crcBit_injective m h).symm

theorem iterate_topBit_ne_zero (n : ℕ) : crcBit^[n] topBit ≠ 0 := by
  intro h
  rw [← iterate_crcBit_zero n] at h
  exact absurd (iterate_crcBit_injective n h) (by decide)

/-! ## Flipped bits -/

theorem foldl_crcByte_xor (l : List UInt8) (crc d : UInt32) :
    l.foldl crcByte (crc ^^^ d) = l.foldl crcByte crc ^^^ crcBit^[8 * l.length] d := by
  induction l generalizing crc d with
  | nil => rfl
  | cons b l ih =>
    have hbyte : crcByte (crc ^^^ d) b = crcByte crc b ^^^ crcBit^[8] d := by
      rw [crcByte_eq, crcByte_eq, ← iterate_crcBit_xor, UInt32.xor_assoc, UInt32.xor_comm d,
        ← UInt32.xor_assoc]
    rw [List.foldl_cons, hbyte, ih, List.foldl_cons, ← Function.iterate_add_apply,
      List.length_cons, Nat.mul_succ]

theorem flipByte_toUInt32 (k : Fin 8) (x : UInt8) :
    (flipByte k x).toUInt32 = x.toUInt32 ^^^ crcBit^[31 - k] topBit := by
  have hbit : ∀ k : Fin 8, ((1 : UInt8) <<< UInt8.ofNat k).toUInt32 = crcBit^[31 - k] topBit := by
    decide +kernel
  rw [flipByte, UInt8.toUInt32_xor, hbit]

theorem foldl_crcByte_flipBit {l : List UInt8} {i : ℕ} (k : Fin 8) (hi : i < l.length)
    (crc : UInt32) :
    (flipBit l i k).foldl crcByte crc =
      l.foldl crcByte crc ^^^ crcBit^[8 * (l.length - i) + (31 - k)] topBit := by
  induction l generalizing i crc with
  | nil => exact absurd hi (Nat.not_lt_zero i)
  | cons b l ih =>
    cases i with
    | zero =>
      have hbyte : crcByte crc (flipByte k b) =
          crcByte crc b ^^^ crcBit^[8 + (31 - k)] topBit := by
        rw [crcByte_eq, crcByte_eq, flipByte_toUInt32, ← UInt32.xor_assoc, iterate_crcBit_xor,
          ← Function.iterate_add_apply]
      show l.foldl crcByte (crcByte crc (flipByte k b)) = _
      rw [hbyte, foldl_crcByte_xor, ← Function.iterate_add_apply, List.foldl_cons, ← Nat.add_assoc]
      rfl
    | succ i =>
      show (flipBit l i k).foldl crcByte (crcByte crc b) = _
      rw [ih (Nat.lt_of_succ_lt_succ hi), List.foldl_cons, List.length_cons, Nat.add_sub_add_right]

theorem crc32Bitwise_flipBit {l : List UInt8} {i : ℕ} (k : Fin 8) (hi : i < l.length)
    (previous : UInt32) :
    crc32Bitwise (flipBit l i k) previous =
      crc32Bitwise l previous ^^^ crcBit^[8 * (l.length - i) + (31 - k)] topBit := by
  rw [crc32Bitwise, crc32Bitwise, foldl_crcByte_flipBit k hi, UInt32.not_xor]

/-! ## Flipped bits of a CRC field -/

theorem u32FromBytes_split (a b c d : UInt8) :
    u32FromBytes a b c d = a.toUInt32 ^^^ (u32FromBytes b c d 0 <<< 8) := by
  have h : u32FromBytes a b c d = (u32FromBytes a b c d &&& (0xFF : UInt32)) ^^^
      ((u32FromBytes a b c d >>> 8) <<< 8) := by
    apply UInt32.toBitVec_inj.mp
    exact Lib.eq_low_xor (u32FromBytes a b c d).toBitVec 8
  rw [u32FromBytes_low, u32FromBytes_shiftRight] at h
  exact h

theorem xor_shiftLeft_xor (x x' y y' : UInt32) :
    (x ^^^ x') ^^^ ((y ^^^ y') <<< 8) = (x ^^^ (y <<< 8)) ^^^ (x' ^^^ (y' <<< 8)) := by
  rw [UInt32.shiftLeft_xor]
  ac_rfl

theorem u32FromBytes_xor (a b c d a' b' c' d' : UInt8) :
    u32FromBytes (a ^^^ a') (b ^^^ b') (c ^^^ c') (d ^^^ d') =
      u32FromBytes a b c d ^^^ u32FromBytes a' b' c' d' := by
  have hzero : u32FromBytes 0 0 0 0 <<< 8 = 0 := rfl
  have hsplit : ∀ a b c d : UInt8, u32FromBytes a b c d = a.toUInt32 ^^^
      ((b.toUInt32 ^^^ ((c.toUInt32 ^^^ (d.toUInt32 <<< 8)) <<< 8)) <<< 8) := by
    intro a b c d
    rw [u32FromBytes_split a, u32FromBytes_split b, u32FromBytes_split c, u32FromBytes_split d,
      hzero, UInt32.xor_zero]
  rw [hsplit, hsplit a, hsplit a', UInt8.toUInt32_xor, UInt8.toUInt32_xor, UInt8.toUInt32_xor,
    UInt8.toUInt32_xor]
  rw [xor_shiftLeft_xor c.toUInt32, xor_shiftLeft_xor b.toUInt32, xor_shiftLeft_xor a.toUInt32]

theorem wordAt_eq (b : List UInt8) (i : ℕ) :
    wordAt b i =
      u32FromBytes (byteAt b (i + 3)) (byteAt b (i + 2)) (byteAt b (i + 1)) (byteAt b i) := by
  rw [wordAt, ntohl, htonl, u32FromBytes_byte0, u32FromBytes_byte1, u32FromBytes_byte2,
    u32FromBytes_byte3]

theorem byteAt_flipBit {b : List UInt8} {i : ℕ} (k : Fin 8) (hi : i < b.length) (j : ℕ) :
    byteAt (flipBit b i k) j =
      byteAt b j ^^^ if j = i then (1 : UInt8) <<< UInt8.ofNat k else 0 := by
  split
  · rename_i h
    subst h
    simp [byteAt, flipBit, flipByte, hi]
  · rename_i h
    have hj : ¬ i = j := fun hij => h hij.symm
    simp [byteAt, flipBit, hj]

theorem wordAt_flipBit {b : List UInt8} {lo j : ℕ} (k : Fin 8) (hj : j < 4)
    (hi : lo + j < b.length) :
    wordAt (flipBit b (lo + j) k) lo = wordAt b lo ^^^ crcBit^[8 * j + (7 - k)] topBit := by
  have hword : ∀ (j : Fin 4) (k : Fin 8),
      u32FromBytes (if 3 = j.val then (1 : UInt8) <<< UInt8.ofNat k else 0)
        (if 2 = j.val then (1 : UInt8) <<< UInt8.ofNat k else 0)
        (if 1 = j.val then (1 : UInt8) <<< UInt8.ofNat k else 0)
        (if 0 = j.val then (1 : UInt8) <<< UInt8.ofNat k else 0) =
      crcBit^[8 * j.val + (7 - k)] topBit := by
    decide +kernel
  rw [wordAt_eq, wordAt_eq, byteAt_flipBit k hi, byteAt_flipBit k hi, byteAt_flipBit k hi,
    byteAt_flipBit k hi, u32FromBytes_xor, ← hword ⟨j, hj⟩ k]
  have hzero : (lo = lo + j) = (0 = j) := propext (by omega)
  simp only [Nat.add_left_cancel_iff, hzero]

theorem wordAt_flipBit_of_ne {b : List UInt8} {i lo : ℕ} {k : Fin 8}
    (h : i < lo ∨ lo + 4 ≤ i) : wordAt (flipBit b i k) lo = wordAt b lo := by
  have hbyte : ∀ j, j ≠ i → byteAt (flipBit b i k) j = byteAt b j := fun j hj =>
    UInt8.toNat_inj.mp (octet_flipBit_of_ne hj)
  rw [wordAt_eq, wordAt_eq, hbyte lo (by omega), hbyte (lo + 1) (by omega),
    hbyte (lo + 2) (by omega), hbyte (lo + 3) (by omega)]

/-! ## Syndromes -/

/-- The difference between the CRC of the header that a packet has and the one it should
have. -/
def headerSyndrome (b : List UInt8) : UInt32 :=
  wordAt b (7 + Format.long b) ^^^ crc32Bitwise (Format.header b) 0

def payloadSyndrome (b : List UInt8) : UInt32 :=
  wordAt b (11 + Format.long b + Format.len b) ^^^ crc32Bitwise (Format.payload b) 0

section Syndromes

variable {b : List UInt8} {i j : ℕ} {k l : Fin 8}

theorem headerSyndrome_of_valid (h : Format.Valid b bitwiseCrc) : headerSyndrome b = 0 := by
  have hcrc1 := h.crc1_eq
  rw [Format.crc1, ← wordAt_toNat, UInt32.toNat_inj] at hcrc1
  rw [headerSyndrome, hcrc1]
  exact UInt32.xor_self

theorem payloadSyndrome_of_valid (h : Format.Valid b bitwiseCrc)
    (hcarries : Format.carries b = true) : payloadSyndrome b = 0 := by
  have hcrc2 := h.crc2_eq hcarries
  rw [Format.crc2, ← wordAt_toNat, UInt32.toNat_inj] at hcrc2
  rw [payloadSyndrome, hcrc2]
  exact UInt32.xor_self

/-- The distance of a bit from the end of a string with its CRC behind it, where `size` is the
length of the string. -/
def distance (size i : ℕ) (k : Fin 8) : ℕ :=
  if i < size then 8 * (size - i) + (31 - k) else 8 * (i - size) + (7 - k)

theorem syndrome_flipBit (data : List UInt8) (lo : ℕ) (hlo : lo ≤ i) (hi : i < b.length)
    (hend : i < lo + data.length + 4) :
    wordAt (flipBit b i k) (lo + data.length) ^^^ crc32Bitwise (flipBit data (i - lo) k) 0 =
      wordAt b (lo + data.length) ^^^ crc32Bitwise data 0 ^^^
        crcBit^[distance data.length (i - lo) k] topBit := by
  unfold distance
  split
  · rename_i h
    rw [wordAt_flipBit_of_ne (.inl (by omega)), crc32Bitwise_flipBit k h, UInt32.xor_assoc]
  · rename_i h
    have hsame : flipBit data (i - lo) k = data := List.modify_eq_self (not_lt.mp h)
    obtain ⟨j, hj⟩ := Nat.exists_eq_add_of_le (not_lt.mp h)
    have hij : i = lo + data.length + j := by omega
    rw [hsame, hij, wordAt_flipBit k (by omega) (by omega)]
    have hdist : lo + data.length + j - lo - data.length = j := by omega
    rw [hdist]
    ac_rfl

theorem distance_inj (size : ℕ) (hi : i < size + 4) (hj : j < size + 4)
    (h : distance size i k = distance size j l) : i = j ∧ k = l := by
  have hk := k.isLt
  have hl := l.isLt
  unfold distance at h
  rw [Fin.ext_iff]
  split at h <;> split at h <;> omega

theorem distance_le {size : ℕ} (hsize : size ≤ 512) (hi : i < size + 4) :
    distance size i k ≤ 4200 := by
  have hk := k.isLt
  unfold distance
  split <;> omega

theorem headerSyndrome_flipBit (hlong : Format.long (flipBit b i k) = Format.long b)
    (hTR : ¬ (i = 0 ∧ k = 5)) (hi : i < 11 + Format.long b)
    (hsize : 11 + Format.long b ≤ b.length) :
    headerSyndrome (flipBit b i k) =
      headerSyndrome b ^^^ crcBit^[distance (7 + Format.long b) i k] topBit := by
  have hlength : (Format.header b).length = 7 + Format.long b := by
    simp only [Format.header, List.length_modifyHead, List.length_take]
    omega
  have h := syndrome_flipBit (b := b) (i := i) (k := k) (Format.header b) 0
    (Nat.zero_le i) (by omega) (by omega)
  rw [Nat.zero_add, Nat.sub_zero, hlength] at h
  rw [headerSyndrome, hlong, header_flipBit hlong hTR]
  exact h

theorem headerSyndrome_flipBit_of_le (hlong : Format.long (flipBit b i k) = Format.long b)
    (hi : 11 + Format.long b ≤ i) : headerSyndrome (flipBit b i k) = headerSyndrome b := by
  rw [headerSyndrome, hlong, (fields_flipBit hlong (by omega)).1,
    wordAt_flipBit_of_ne (.inr (by omega))]
  rfl

theorem headerSyndrome_flipBit_tr (hpos : 11 ≤ b.length) :
    headerSyndrome (flipBit b 0 5) = headerSyndrome b := by
  obtain ⟨hlong, -, -, -, hheader⟩ := fields_flipBit_tr (b := b) (by omega)
  rw [headerSyndrome, hlong, hheader, wordAt_flipBit_of_ne (.inl (by omega))]
  rfl

theorem payloadSyndrome_flipBit (hlong : Format.long (flipBit b i k) = Format.long b)
    (hlow : 11 + Format.long b ≤ i) (hi : i < b.length)
    (hsize : b.length = 11 + Format.long b + Format.len b + 4) :
    payloadSyndrome (flipBit b i k) =
      payloadSyndrome b ^^^
        crcBit^[distance (Format.len b) (i - (11 + Format.long b)) k] topBit := by
  have hlength : (Format.payload b).length = Format.len b := by
    simp only [Format.payload, List.length_take, List.length_drop]
    omega
  have hlen := (fields_flipBit hlong (by omega)).2.1
  have hpayload : Format.payload (flipBit b i k) =
      flipBit (Format.payload b) (i - (11 + Format.long b)) k := by
    rw [Format.payload, hlong, hlen, drop_flipBit hlow, take_flipBit]
    rfl
  have h := syndrome_flipBit (b := b) (i := i) (k := k) (Format.payload b) (11 + Format.long b) hlow
    hi (by omega)
  rw [hlength] at h
  rw [payloadSyndrome, hpayload, hlong, hlen]
  exact h

/-- The flip is seen in the header: it is in the header or in its CRC, and not the TR bit. -/
def SeenInHeader (b : List UInt8) (i : ℕ) (k : Fin 8) : Prop :=
  ¬ (i = 0 ∧ k = 5) ∧ i < 11 + Format.long b

theorem headerSyndrome_of_not_seen (hlong : Format.long (flipBit b i k) = Format.long b)
    (hsize : 11 + Format.long b ≤ b.length) (hseen : ¬ SeenInHeader b i k) :
    headerSyndrome (flipBit b i k) = headerSyndrome b := by
  by_cases hTR : i = 0 ∧ k = 5
  · obtain ⟨rfl, rfl⟩ := hTR
    exact headerSyndrome_flipBit_tr (by omega)
  · refine headerSyndrome_flipBit_of_le hlong ?_
    by_contra hi
    exact hseen ⟨hTR, not_le.mp hi⟩

/-- Flips that leave the header right are both seen in it and the same, or neither is seen. -/
theorem seenInHeader_of_syndrome (hlong : Format.long (flipBit b i k) = Format.long b)
    (hlong' : Format.long (flipBit (flipBit b i k) j l) = Format.long b)
    (hsize : 11 + Format.long b ≤ b.length) (h : headerSyndrome b = 0)
    (h' : headerSyndrome (flipBit (flipBit b i k) j l) = 0) :
    (i = j ∧ k = l) ∨ ¬ SeenInHeader b i k ∧ ¬ SeenInHeader b j l := by
  have hle := long_le b
  have hsecond : Format.long (flipBit (flipBit b i k) j l) = Format.long (flipBit b i k) :=
    hlong'.trans hlong.symm
  have hsize' : 11 + Format.long (flipBit b i k) ≤ (flipBit b i k).length := by
    rw [hlong, flipBit_length]
    exact hsize
  have hsame : SeenInHeader (flipBit b i k) j l ↔ SeenInHeader b j l := by
    rw [SeenInHeader, hlong]
    rfl
  by_cases hi : SeenInHeader b i k
  · have hfirst := headerSyndrome_flipBit hlong hi.1 hi.2 hsize
    rw [h, UInt32.zero_xor] at hfirst
    by_cases hj : SeenInHeader b j l
    · left
      have hj' := hsame.mpr hj
      rw [headerSyndrome_flipBit hsecond hj'.1 hj'.2 hsize', hfirst, hlong,
        UInt32.xor_eq_zero_iff] at h'
      exact distance_inj (7 + Format.long b) (by have := hi.2; omega)
        (by have := hj.2; omega)
        (iterate_topBit_inj (distance_le (by omega) (by have := hi.2; omega))
          (distance_le (by omega) (by have := hj.2; omega)) h')
    · rw [headerSyndrome_of_not_seen hsecond hsize' (mt hsame.mp hj), hfirst] at h'
      exact absurd h' (iterate_topBit_ne_zero _)
  · right
    refine ⟨hi, fun hj => ?_⟩
    have hj' := hsame.mpr hj
    rw [headerSyndrome_flipBit hsecond hj'.1 hj'.2 hsize',
      headerSyndrome_of_not_seen hlong hsize hi, h, UInt32.zero_xor] at h'
    exact iterate_topBit_ne_zero _ h'

theorem carries_flipBit_tr (hpos : 0 < b.length) (h : Format.carries b = true) :
    Format.carries (flipBit b 0 5) = false := by
  obtain ⟨-, -, -, htr, -⟩ := fields_flipBit_tr hpos
  simp only [Format.carries, decide_eq_true_eq] at h
  simp [Format.carries, htr, h.2.1]

end Syndromes

/-- A packet that `unpack` accepts is rejected once two bits of it have been flipped, wherever
they are.  The L bit is left out, as it moves every field that follows it. -/
theorem two_bits_rejected (b : List UInt8) (out out' : Packet)
    (hok : (unpack slicedCrc b b.length out).ret = .ok ()) (i j : ℕ) (k l : Fin 8)
    (hi : i < b.length) (hj : j < b.length) (hne : ¬ (i = j ∧ k = l))
    (hLi : ¬ (i = 1 ∧ k = 7)) (hLj : ¬ (j = 1 ∧ l = 7)) :
    (unpack slicedCrc (flipBit (flipBit b i k) j l) b.length out').ret ≠ .ok () := by
  rw [slicedCrc_eq] at hok ⊢
  have hb : Format.Valid b bitwiseCrc := (unpack_ok_iff.mp hok).1
  intro hbad
  have hlength : (flipBit (flipBit b i k) j l).length = b.length := by
    rw [flipBit_length, flipBit_length]
  rw [← hlength] at hbad
  have hv : Format.Valid (flipBit (flipBit b i k) j l) bitwiseCrc := (unpack_ok_iff.mp hbad).1
  have hsize := hb.size
  have hlong := long_flipBit (b := b) hi hLi
  have hlong' := long_flipBit (b := flipBit b i k) (i := j) (k := l)
    (by rw [flipBit_length]; exact hj) hLj
  rcases seenInHeader_of_syndrome hlong (hlong'.trans hlong) (by omega)
    (headerSyndrome_of_valid hb) (headerSyndrome_of_valid hv) with hsame | ⟨hiSeen, hjSeen⟩
  · exact hne hsame
  -- Both are behind the header or flip the TR bit, and one of them is behind it.
  have hbehind : ∀ {m : ℕ} {n : Fin 8}, ¬ SeenInHeader b m n → ¬ (m = 0 ∧ n = 5) →
      11 + Format.long b ≤ m := fun hseen hTR => not_lt.mp fun hm => hseen ⟨hTR, hm⟩
  have hcarries : Format.carries b = true := by
    by_contra hnone
    rw [if_neg hnone] at hsize
    have hi' : i = 0 ∧ k = 5 := by
      by_contra hTR
      have := hbehind hiSeen hTR
      omega
    have hj' : j = 0 ∧ l = 5 := by
      by_contra hTR
      have := hbehind hjSeen hTR
      omega
    exact hne ⟨hi'.1.trans hj'.1.symm, hi'.2.trans hj'.2.symm⟩
  rw [if_pos hcarries] at hsize
  have hsize' := hv.size
  rw [hlength, hlong', hlong] at hsize'
  by_cases hTRi : i = 0 ∧ k = 5
  · obtain ⟨rfl, rfl⟩ := hTRi
    have hj' := hbehind hjSeen fun hTR => hne ⟨hTR.1.symm, hTR.2.symm⟩
    rw [(fields_flipBit hlong' (by rw [hlong]; omega)).2.2, carries_flipBit_tr hi hcarries,
      if_neg (by decide)] at hsize'
    omega
  have hi' := hbehind hiSeen hTRi
  obtain ⟨-, hlen, hcarries'⟩ := fields_flipBit hlong (by omega)
  by_cases hTRj : j = 0 ∧ l = 5
  · obtain ⟨rfl, rfl⟩ := hTRj
    rw [carries_flipBit_tr (by rw [flipBit_length]; exact hj) (hcarries'.trans hcarries),
      if_neg (by decide)] at hsize'
    omega
  have hj' := hbehind hjSeen hTRj
  have hfirst := payloadSyndrome_flipBit (k := k) hlong hi' hi (by omega)
  have hsecond := payloadSyndrome_flipBit (k := l) hlong' (by rw [hlong]; exact hj')
    (by rw [flipBit_length]; exact hj) (by rw [flipBit_length, hlong, hlen]; omega)
  have hcarries'' := (fields_flipBit hlong' (by rw [hlong]; omega)).2.2
  rw [hfirst, payloadSyndrome_of_valid hb hcarries, UInt32.zero_xor, hlong, hlen,
    payloadSyndrome_of_valid hv (hcarries''.trans (hcarries'.trans hcarries))] at hsecond
  have hle := hb.len_le
  obtain ⟨hij, hkl⟩ := distance_inj (Format.len b) (by omega) (by omega)
    (iterate_topBit_inj (distance_le hle (by omega)) (distance_le hle (by omega))
      (UInt32.xor_eq_zero_iff.mp hsecond.symm))
  exact hne ⟨by omega, hkl⟩

theorem two_bits_rejected_dataA :
    (unpack slicedCrc (flipBit (flipBit dataA 0 5) 11 6) dataA.length initPacket).ret ≠
      .ok () := by
  have hok : (unpack slicedCrc dataA dataA.length initPacket).ret = .ok () := by
    rw [slicedCrc_eq]
    decide +kernel
  exact two_bits_rejected dataA initPacket initPacket hok 0 11 5 6 (by decide) (by decide)
    (by decide) (by decide) (by decide)

/-! ## Bursts -/

theorem eq_of_byteAt {b b' : List UInt8} (hlength : b'.length = b.length)
    (h : ∀ m, byteAt b' m = byteAt b m) : b' = b := by
  apply List.ext_getElem hlength
  intro m hm hm'
  have hbyte := h m
  rw [byteAt, byteAt, List.getD_eq_getElem _ _ hm, List.getD_eq_getElem _ _ hm'] at hbyte
  exact hbyte

theorem getElem?_of_byteAt {b b' : List UInt8} (hlength : b'.length = b.length) {m : ℕ}
    (h : byteAt b' m = byteAt b m) : b'[m]? = b[m]? := by
  rw [byteAt, byteAt, List.getD_eq_getElem?_getD, List.getD_eq_getElem?_getD] at h
  by_cases hlt : m < b.length
  · rw [List.getElem?_eq_getElem hlt, List.getElem?_eq_getElem (hlength ▸ hlt)] at h ⊢
    exact congrArg some h
  · rw [List.getElem?_eq_none (by omega), List.getElem?_eq_none (by omega)]

theorem byteAt_congr {b b' : List UInt8} {m m' : ℕ} (h : b'[m]? = b[m']?) :
    byteAt b' m = byteAt b m' := by
  rw [byteAt, byteAt, List.getD_eq_getElem?_getD, List.getD_eq_getElem?_getD, h]

/-- Four bytes or less determine what they make of the register. -/
theorem foldl_crcByte_short_inj {x y : List UInt8} (hlength : x.length = y.length)
    (hx : x.length ≤ 4) {crc : UInt32} (h : x.foldl crcByte crc = y.foldl crcByte crc) :
    x = y := by
  -- With zeros behind them, they are a word.
  have hpad : ∀ z : List UInt8, z.length ≤ 4 →
      ∃ a b c d, z ++ List.replicate (4 - z.length) 0 = [a, b, c, d] := by
    intro z hz
    match z, hz with
    | [], _ => exact ⟨_, _, _, _, rfl⟩
    | [_], _ => exact ⟨_, _, _, _, rfl⟩
    | [_, _], _ => exact ⟨_, _, _, _, rfl⟩
    | [_, _, _], _ => exact ⟨_, _, _, _, rfl⟩
    | [_, _, _, _], _ => exact ⟨_, _, _, _, rfl⟩
  obtain ⟨a, b, c, d, hxpad⟩ := hpad x hx
  obtain ⟨a', b', c', d', hypad⟩ := hpad y (hlength ▸ hx)
  have hfold : [a, b, c, d].foldl crcByte crc = [a', b', c', d'].foldl crcByte crc := by
    rw [← hxpad, ← hypad, List.foldl_append, List.foldl_append, h, hlength]
  rw [foldl_crcByte_word, foldl_crcByte_word] at hfold
  have hword : u32FromBytes a b c d = u32FromBytes a' b' c' d' :=
    (UInt32.xor_left_inj crc).mp (iterate_crcBit_injective 32 hfold)
  have ha := u32FromBytes_byte0 a b c d
  have hb := u32FromBytes_byte1 a b c d
  have hc := u32FromBytes_byte2 a b c d
  have hd := u32FromBytes_byte3 a b c d
  rw [hword, u32FromBytes_byte0] at ha
  rw [hword, u32FromBytes_byte1] at hb
  rw [hword, u32FromBytes_byte2] at hc
  rw [hword, u32FromBytes_byte3] at hd
  rw [ha, hb, hc, hd, ← hxpad, hlength] at hypad
  exact (List.append_cancel_right hypad).symm

/-- Two strings with the same CRC that agree outside four bytes are the same. -/
theorem eq_of_crc32Bitwise {data data' : List UInt8} {i n : ℕ}
    (hlength : data'.length = data.length) (hn : n ≤ 4)
    (hsame : ∀ m, m < i ∨ i + n ≤ m → byteAt data' m = byteAt data m)
    (h : crc32Bitwise data' 0 = crc32Bitwise data 0) : data' = data := by
  have hget : ∀ m, m < i ∨ i + n ≤ m → data'[m]? = data[m]? := fun m hm =>
    getElem?_of_byteAt hlength (hsame m hm)
  have htake : data'.take i = data.take i := by
    apply List.ext_getElem?
    intro m
    rw [List.getElem?_take, List.getElem?_take]
    split
    · rename_i hm
      exact hget m (.inl hm)
    · rfl
  have hdrop : data'.drop (i + n) = data.drop (i + n) := by
    apply List.ext_getElem?
    intro m
    rw [List.getElem?_drop, List.getElem?_drop]
    exact hget _ (.inr (Nat.le_add_right _ _))
  have hsplit : ∀ l : List UInt8, l = l.take i ++ ((l.drop i).take n ++ l.drop (i + n)) := by
    intro l
    rw [← List.drop_drop, List.take_append_drop, List.take_append_drop]
  have hfold : data'.foldl crcByte (~~~ 0) = data.foldl crcByte (~~~ 0) :=
    UInt32.not_inj.mp h
  rw [hsplit data', hsplit data, htake, hdrop, List.foldl_append, List.foldl_append,
    List.foldl_append, List.foldl_append] at hfold
  have hmiddle : (data'.drop i).take n = (data.drop i).take n := by
    have hshort := Classical.not_not.mp fun hne => foldl_crcByte_ne _ hne hfold
    refine foldl_crcByte_short_inj ?_ ?_ hshort
    · rw [List.length_take, List.length_drop, List.length_take, List.length_drop, hlength]
    · rw [List.length_take]
      omega
  rw [hsplit data', hsplit data, htake, hdrop, hmiddle]

/-- The parts of a packet in which a burst is always seen: the fields behind the length, the
CRC of the header, the payload and its CRC. -/
def Format.parts (b : List UInt8) : List (ℕ × ℕ) :=
  [(2 + long b, 7 + long b), (7 + long b, 11 + long b), (11 + long b, 11 + long b + len b),
    (11 + long b + len b, 11 + long b + len b + 4)]

section Bursts

variable {b b' : List UInt8} {i n : ℕ}

theorem fields_of_same (hsame : ∀ m, m < i ∨ i + n ≤ m → byteAt b' m = byteAt b m)
    (hi : 2 + Format.long b ≤ i) :
    Format.long b' = Format.long b ∧ Format.len b' = Format.len b ∧
      Format.carries b' = Format.carries b := by
  have hoctet : ∀ m, m < i → Format.octet b' m = Format.octet b m := fun m hm =>
    congrArg UInt8.toNat (hsame m (.inl hm))
  have hlong : Format.long b' = Format.long b := by
    rw [Format.long, Format.long, hoctet 1 (by omega)]
  have hlen : Format.len b' = Format.len b := by
    rw [Format.len, Format.len, hlong, hoctet 1 (by omega)]
    split
    · rfl
    · rw [hoctet 2 (by omega)]
  refine ⟨hlong, hlen, ?_⟩
  rw [Format.carries, Format.carries, hlen, Format.type, Format.type, Format.truncated,
    Format.truncated, hoctet 0 (by omega)]

theorem getElem?_header (m : ℕ) :
    (Format.header b)[m]? =
      if m < 7 + Format.long b then
        if m = 0 then b[0]?.map (· &&& 0xDF) else b[m]?
      else none := by
  have hpos : 0 < 7 + Format.long b := by omega
  rw [Format.header, List.getElem?_modifyHead, List.getElem?_take]
  by_cases hm : m = 0
  · subst hm
    rw [if_pos rfl, if_pos hpos, if_pos hpos, if_pos rfl]
  · rw [if_neg hm, if_neg hm]

theorem getElem?_payload (m : ℕ) :
    (Format.payload b)[m]? = if m < Format.len b then b[11 + Format.long b + m]? else none := by
  rw [Format.payload, List.getElem?_take, List.getElem?_drop]

theorem byteAt_of_wordAt {lo : ℕ} (h : wordAt b' lo = wordAt b lo) {m : ℕ} (hm : m < 4) :
    byteAt b' (lo + m) = byteAt b (lo + m) := by
  have hnumber : Format.number b' lo 4 = Format.number b lo 4 := by
    rw [← wordAt_toNat, ← wordAt_toNat, h]
  exact UInt8.toNat_inj.mp (octet_of_number hnumber m hm)

theorem eq_of_header (hlength : b'.length = b.length) (hn : n ≤ 4)
    (hsame : ∀ m, m < i ∨ i + n ≤ m → byteAt b' m = byteAt b m)
    (hi : 2 + Format.long b ≤ i) (hend : i + n ≤ 7 + Format.long b)
    (h : headerSyndrome b' = headerSyndrome b) : b' = b := by
  obtain ⟨hlong, -, -⟩ := fields_of_same hsame hi
  have hword : wordAt b' (7 + Format.long b) = wordAt b (7 + Format.long b) := by
    rw [wordAt_eq, wordAt_eq, hsame _ (.inr (by omega)), hsame _ (.inr (by omega)),
      hsame _ (.inr (by omega)), hsame _ (.inr (by omega))]
  rw [headerSyndrome, headerSyndrome, hlong, hword, UInt32.xor_right_inj] at h
  have hheader : Format.header b' = Format.header b := by
    refine eq_of_crc32Bitwise (i := i) ?_ hn (fun m hm => byteAt_congr ?_) h
    · simp only [Format.header, List.length_modifyHead, List.length_take, hlong, hlength]
    · have hzero := getElem?_of_byteAt hlength (hsame 0 (.inl (by omega)))
      rw [getElem?_header, getElem?_header, hlong, hzero,
        getElem?_of_byteAt hlength (hsame m hm)]
  refine eq_of_byteAt hlength fun m => ?_
  by_cases hm : m < i ∨ i + n ≤ m
  · exact hsame m hm
  · have hm' := congrArg (fun l => l[m]?) hheader
    simp only [getElem?_header, hlong] at hm'
    rw [if_pos (by omega), if_neg (by omega), if_pos (by omega), if_neg (by omega)] at hm'
    exact byteAt_congr hm'

theorem eq_of_payload (hlength : b'.length = b.length) (hn : n ≤ 4)
    (hsame : ∀ m, m < i ∨ i + n ≤ m → byteAt b' m = byteAt b m)
    (hi : 11 + Format.long b ≤ i) (hend : i + n ≤ 11 + Format.long b + Format.len b)
    (h : payloadSyndrome b' = payloadSyndrome b) : b' = b := by
  obtain ⟨hlong, hlen, -⟩ := fields_of_same hsame (by omega)
  have hword : wordAt b' (11 + Format.long b + Format.len b) =
      wordAt b (11 + Format.long b + Format.len b) := by
    rw [wordAt_eq, wordAt_eq, hsame _ (.inr (by omega)), hsame _ (.inr (by omega)),
      hsame _ (.inr (by omega)), hsame _ (.inr (by omega))]
  rw [payloadSyndrome, payloadSyndrome, hlong, hlen, hword, UInt32.xor_right_inj] at h
  have hpayload : Format.payload b' = Format.payload b := by
    refine eq_of_crc32Bitwise (i := i - (11 + Format.long b)) ?_ hn
      (fun m hm => byteAt_congr ?_) h
    · simp only [Format.payload, List.length_take, List.length_drop, hlong, hlen, hlength]
    · rw [getElem?_payload, getElem?_payload, hlong, hlen,
        getElem?_of_byteAt hlength (hsame (11 + Format.long b + m) (by omega))]
  refine eq_of_byteAt hlength fun m => ?_
  by_cases hm : m < i ∨ i + n ≤ m
  · exact hsame m hm
  · obtain ⟨k, rfl⟩ := Nat.exists_eq_add_of_le (show 11 + Format.long b ≤ m by omega)
    have hk := congrArg (fun l => l[k]?) hpayload
    simp only [getElem?_payload, hlong, hlen] at hk
    rw [if_pos (by omega), if_pos (by omega)] at hk
    exact byteAt_congr hk

theorem eq_of_wordAt {lo : ℕ} (hlength : b'.length = b.length)
    (hsame : ∀ m, m < i ∨ i + n ≤ m → byteAt b' m = byteAt b m) (hi : lo ≤ i)
    (hend : i + n ≤ lo + 4) (h : wordAt b' lo = wordAt b lo) : b' = b := by
  refine eq_of_byteAt hlength fun m => ?_
  by_cases hm : m < i ∨ i + n ≤ m
  · exact hsame m hm
  · obtain ⟨k, rfl⟩ := Nat.exists_eq_add_of_le (show lo ≤ m by omega)
    exact byteAt_of_wordAt h (by omega)

theorem header_of_same (hlong : Format.long b' = Format.long b) (hlength : b'.length = b.length)
    (h : ∀ m < 7 + Format.long b, byteAt b' m = byteAt b m) :
    Format.header b' = Format.header b := by
  apply List.ext_getElem?
  intro m
  rw [getElem?_header, getElem?_header, hlong]
  split
  · rename_i hm
    rw [getElem?_of_byteAt hlength (h 0 (by omega)), getElem?_of_byteAt hlength (h m hm)]
  · rfl

theorem payload_of_same (hlong : Format.long b' = Format.long b)
    (hlen : Format.len b' = Format.len b) (hlength : b'.length = b.length)
    (h : ∀ m < Format.len b,
      byteAt b' (11 + Format.long b + m) = byteAt b (11 + Format.long b + m)) :
    Format.payload b' = Format.payload b := by
  apply List.ext_getElem?
  intro m
  rw [getElem?_payload, getElem?_payload, hlong, hlen]
  split
  · rename_i hm
    rw [getElem?_of_byteAt hlength (h m hm)]
  · rfl

theorem carries_of_behind {crc : Crc} (hb : Format.Valid b crc) (hlength : b'.length = b.length)
    (hne : b' ≠ b) (hsame : ∀ m, m < i ∨ i + n ≤ m → byteAt b' m = byteAt b m)
    (hi : 11 + Format.long b ≤ i) : Format.carries b = true := by
  by_contra hnone
  have hsize := hb.size
  rw [if_neg hnone] at hsize
  refine hne (eq_of_byteAt hlength fun m => ?_)
  by_cases hm : m < i
  · exact hsame m (.inl hm)
  · refine byteAt_congr ?_
    rw [List.getElem?_eq_none (by omega), List.getElem?_eq_none (by omega)]

end Bursts

/-- A packet that `unpack` accepts is rejected once it has been changed in up to four bytes in
a row, as long as these are within one of its parts. -/
theorem burst_rejected (b b' : List UInt8) (out out' : Packet)
    (hok : (unpack slicedCrc b b.length out).ret = .ok ()) (hlength : b'.length = b.length)
    (hne : b' ≠ b) (i n : ℕ) (hn : n ≤ 4)
    (hsame : ∀ m, m < i ∨ i + n ≤ m → byteAt b' m = byteAt b m)
    (hpart : ∃ part ∈ Format.parts b, part.1 ≤ i ∧ i + n ≤ part.2) :
    (unpack slicedCrc b' b'.length out').ret ≠ .ok () := by
  rw [slicedCrc_eq] at hok ⊢
  have hb : Format.Valid b bitwiseCrc := (unpack_ok_iff.mp hok).1
  intro hbad
  have hv : Format.Valid b' bitwiseCrc := (unpack_ok_iff.mp hbad).1
  have hsize := hb.size
  have hheader : headerSyndrome b' = headerSyndrome b :=
    (headerSyndrome_of_valid hv).trans (headerSyndrome_of_valid hb).symm
  have hpayload : Format.carries b = true → Format.carries b' = true →
      payloadSyndrome b' = payloadSyndrome b := fun hc hc' =>
    (payloadSyndrome_of_valid hv hc').trans (payloadSyndrome_of_valid hb hc).symm
  simp only [Format.parts, List.mem_cons, List.not_mem_nil, or_false, exists_eq_or_imp,
    exists_eq_left] at hpart
  rcases hpart with ⟨hlow, hend⟩ | ⟨hlow, hend⟩ | ⟨hlow, hend⟩ | ⟨hlow, hend⟩
  · exact hne (eq_of_header hlength hn hsame hlow hend hheader)
  · obtain ⟨hlong, -, -⟩ := fields_of_same hsame (by omega)
    have hsame' := header_of_same hlong hlength fun m hm => hsame m (.inl (by omega))
    rw [headerSyndrome, headerSyndrome, hlong, hsame', UInt32.xor_left_inj] at hheader
    exact hne (eq_of_wordAt hlength hsame hlow (by omega) hheader)
  · obtain ⟨-, -, hcarries'⟩ := fields_of_same hsame (by omega)
    have hcarries := carries_of_behind hb hlength hne hsame hlow
    exact hne (eq_of_payload hlength hn hsame hlow hend
      (hpayload hcarries (hcarries'.trans hcarries)))
  · obtain ⟨hlong, hlen, hcarries'⟩ := fields_of_same hsame (by omega)
    have hcarries := carries_of_behind hb hlength hne hsame (by omega)
    have hsyndrome := hpayload hcarries (hcarries'.trans hcarries)
    have hsame' := payload_of_same hlong hlen hlength fun m hm => hsame _ (.inl (by omega))
    rw [payloadSyndrome, payloadSyndrome, hlong, hlen, hsame', UInt32.xor_left_inj] at hsyndrome
    exact hne (eq_of_wordAt hlength hsame hlow hend hsyndrome)

/-- Another timestamp. -/
theorem burst_rejected_dataA :
    (unpack slicedCrc (dataA.take 3 ++ [1, 2, 3, 4] ++ dataA.drop 7) 16 initPacket).ret ≠
      .ok () := by
  have hok : (unpack slicedCrc dataA dataA.length initPacket).ret = .ok () := by
    rw [slicedCrc_eq]
    decide +kernel
  have hbytes : ∀ m : Fin 16, m.val < 3 ∨ 3 + 4 ≤ m.val →
      byteAt (dataA.take 3 ++ [1, 2, 3, 4] ++ dataA.drop 7) m = byteAt dataA m := by
    decide
  refine burst_rejected dataA _ initPacket initPacket hok rfl (by decide) 3 4 le_rfl
    (fun m hm => ?_) (by decide)
  by_cases hlt : m < 16
  · exact hbytes ⟨m, hlt⟩ hm
  · refine byteAt_congr ?_
    rw [List.getElem?_eq_none (by show 16 ≤ m; omega),
      List.getElem?_eq_none (by show 16 ≤ m; omega)]

end Trtp
