import Trtp.Lib.Blocks
import Trtp.Packet.CrcSteps
import Trtp.Packet.Format

/-!
# The CRC routines

The routines of `lib/Crc32.cpp`, on a little-endian machine.  `packet.c` calls `crc32_8bytes`
on headers and `crc32_16bytes` on payloads.  They read the bytes in words, several at once, and
take one entry of the lookup table for each byte.  The others differ in how many bytes they
take at once and in how much of the table they need.

All of them are `crc32_bitwise`.
-/

namespace Trtp

/-- The standard algorithm, on one byte. -/
def crcTableByte (crc : UInt32) (b : UInt8) : UInt32 :=
  (crc >>> 8) ^^^ lookup 0 ((crc &&& 0xFF) ^^^ b.toUInt32)

/-- `current[i]` for a pointer to words. -/
def wordOf (block : List UInt8) (i : ℕ) : UInt32 :=
  u32FromBytes (byteAt block (4 * i)) (byteAt block (4 * i + 1)) (byteAt block (4 * i + 2))
    (byteAt block (4 * i + 3))

def lookups (k : ℕ) (x : UInt32) : UInt32 :=
  lookup k ((x >>> 24) &&& 0xFF) ^^^ lookup (k + 1) ((x >>> 16) &&& 0xFF) ^^^
    lookup (k + 2) ((x >>> 8) &&& 0xFF) ^^^ lookup (k + 3) (x &&& 0xFF)

def slicing4 (crc : UInt32) (block : List UInt8) : UInt32 :=
  let one := wordOf block 0 ^^^ crc
  lookups 0 one

def slicing8 (crc : UInt32) (block : List UInt8) : UInt32 :=
  let one := wordOf block 0 ^^^ crc
  let two := wordOf block 1
  lookups 0 two ^^^ lookups 4 one

def slicing16 (crc : UInt32) (block : List UInt8) : UInt32 :=
  let one := wordOf block 0 ^^^ crc
  let two := wordOf block 1
  let three := wordOf block 2
  let four := wordOf block 3
  lookups 0 four ^^^ lookups 4 three ^^^ lookups 8 two ^^^ lookups 12 one

/-- A body for `size` bytes, four times. -/
def unroll (size : ℕ) (body : UInt32 → List UInt8 → UInt32) (crc : UInt32)
    (block : List UInt8) : UInt32 :=
  (List.range 4).foldl (fun crc unrolling => body crc (block.drop (size * unrolling))) crc

/-- A loop over blocks of `size` bytes and one over the bytes that remain. -/
def crcLoops {size : ℕ} (hsize : 0 < size) (ahead : ℕ) (body : UInt32 → List UInt8 → UInt32)
    (data : List UInt8) (previous : UInt32) : UInt32 :=
  let (crc, rest) := Lib.blocks hsize ahead body (~~~ previous) data
  ~~~ (rest.foldl crcTableByte crc)

def crc32_1byte (data : List UInt8) (previous : UInt32) : UInt32 :=
  ~~~ (data.foldl crcTableByte (~~~ previous))

def crc32_4bytes : List UInt8 → UInt32 → UInt32 :=
  crcLoops (by decide : 0 < 4) 0 slicing4

def crc32_8bytes : List UInt8 → UInt32 → UInt32 :=
  crcLoops (by decide : 0 < 8) 0 slicing8

def crc32_4x8bytes : List UInt8 → UInt32 → UInt32 :=
  crcLoops (by decide : 0 < 8 * 4) 0 (unroll 8 slicing8)

def crc32_16bytes : List UInt8 → UInt32 → UInt32 :=
  crcLoops (by decide : 0 < 16 * 4) 0 (unroll 16 slicing16)

/-- `crc32_16bytes_prefetch`, where `64 + prefetchAhead` fits a `size_t`. -/
def crc32_16bytesPrefetch (data : List UInt8) (previous : UInt32) (prefetchAhead : ℕ) : UInt32 :=
  crcLoops (by decide : 0 < 16 * 4) prefetchAhead (unroll 16 slicing16) data previous

def crc32Lookup16 : List UInt32 :=
  [0x00000000, 0x1DB71064, 0x3B6E20C8, 0x26D930AC, 0x76DC4190, 0x6B6B51F4, 0x4DB26158,
    0x5005713C, 0xEDB88320, 0xF00F9344, 0xD6D6A3E8, 0xCB61B38C, 0x9B64C2B0, 0x86D3D2D4,
    0xA00AE278, 0xBDBDF21C]

def crcHalf (crc index : UInt32) : UInt32 :=
  crc32Lookup16.getD (index &&& 0x0F).toNat 0 ^^^ (crc >>> 4)

def crcHalves (crc : UInt32) (b : UInt8) : UInt32 :=
  let crc := crcHalf crc (crc ^^^ b.toUInt32)
  crcHalf crc (crc ^^^ (b.toUInt32 >>> 4))

def crc32Halfbyte (data : List UInt8) (previous : UInt32) : UInt32 :=
  ~~~ (data.foldl crcHalves (~~~ previous))

/-- The part of `crc32_1byte_tableless` that depends on `s` only. -/
def tableless (s : UInt8) : UInt32 :=
  let one : UInt32 := 1
  let low : UInt32 := (s.toUInt32 ^^^ (s.toUInt32 <<< 6)) &&& (0xFF : UInt32)
  let a : UInt32 := low * ((one <<< 23) + (one <<< 14) + (one <<< 2))
  (low * ((one <<< 24) + (one <<< 16) + (one <<< 8))) ^^^ a ^^^ (a >>> 1) ^^^
    (low * ((one <<< 20) + (one <<< 12))) ^^^ (low <<< 19) ^^^ (low <<< 17) ^^^ (low >>> 2)

def crcTablelessByte (crc : UInt32) (b : UInt8) : UInt32 :=
  (crc >>> 8) ^^^ tableless (crc.toUInt8 ^^^ b)

def crc32_1byteTableless (data : List UInt8) (previous : UInt32) : UInt32 :=
  ~~~ (data.foldl crcTablelessByte (~~~ previous))

/-- `(crc << k) >> 31` on a signed number: the bit `31 - k` in every place. -/
def signMask (crc : UInt32) (k : UInt32) : UInt32 := ((crc <<< k).toInt32 >>> 31).toUInt32

/-- The value `c` of `crc32_1byte_tableless2`. -/
def tableless2 (crc : UInt32) : UInt32 :=
  (signMask crc 31 &&& ((polynomial >>> 7) ^^^ (polynomial >>> 1))) ^^^
    (signMask crc 30 &&& ((polynomial >>> 6) ^^^ polynomial)) ^^^
    (signMask crc 29 &&& (polynomial >>> 5)) ^^^ (signMask crc 28 &&& (polynomial >>> 4)) ^^^
    (signMask crc 27 &&& (polynomial >>> 3)) ^^^ (signMask crc 26 &&& (polynomial >>> 2)) ^^^
    (signMask crc 25 &&& (polynomial >>> 1)) ^^^ (signMask crc 24 &&& polynomial)

def crcTableless2Byte (crc : UInt32) (b : UInt8) : UInt32 :=
  let crc := crc ^^^ b.toUInt32
  (crc >>> 8) ^^^ tableless2 crc

def crc32_1byteTableless2 (data : List UInt8) (previous : UInt32) : UInt32 :=
  ~~~ (data.foldl crcTableless2Byte (~~~ previous))

/-- The routines as `packet.c` uses them. -/
def slicedCrc : Crc := ⟨crc32_8bytes, crc32_16bytes⟩

/-! ## Bytes and words -/

/-- A byte that is added to the register does not reach the upper bytes. -/
theorem xor_byte_shiftRight (crc : UInt32) (b : UInt8) :
    (crc ^^^ b.toUInt32) >>> 8 = crc >>> 8 := by
  have hzero : b.toUInt32 >>> 8 = 0 := by
    apply UInt32.toNat_inj.mp
    rw [shiftRight_eight_toNat, UInt8.toNat_toUInt32]
    exact Nat.div_eq_of_lt b.toNat_lt
  rw [UInt32.shiftRight_xor, hzero, UInt32.xor_zero]

theorem xor_byte_low (crc : UInt32) (b : UInt8) :
    (crc ^^^ b.toUInt32) &&& (0xFF : UInt32) = (crc.toUInt8 ^^^ b).toUInt32 := by
  rw [low_eq_toUInt8, UInt32.toUInt8_xor, UInt8.toUInt8_toUInt32]

theorem crcByte_split (crc : UInt32) (b : UInt8) :
    crcByte crc b = (crc >>> 8) ^^^ crcBit^[8] (crc.toUInt8 ^^^ b).toUInt32 := by
  rw [crcByte_eq, iterate_crcBit_split 0, xor_byte_shiftRight, xor_byte_low, UInt32.xor_comm]
  rfl

theorem crcTableByte_eq (crc : UInt32) (b : UInt8) : crcTableByte crc b = crcByte crc b := by
  have hlow : (crc &&& 0xFF) ^^^ b.toUInt32 = (crc.toUInt8 ^^^ b).toUInt32 := by
    rw [low_eq_toUInt8, UInt8.toUInt32_xor]
  have hlt : (crc.toUInt8 ^^^ b).toUInt32.toNat < 256 := by
    rw [UInt8.toNat_toUInt32]
    exact UInt8.toNat_lt _
  rw [crcByte_split, crcTableByte, hlow, lookup_eq (by decide) hlt]

/-- The values that the routines without a table compute for a byte. -/
theorem tableless_fin (n : Fin 256) :
    tableless (.ofNat n) = crcBit^[8] (.ofNat n) ∧
      tableless2 (.ofNat n) = crcBit^[8] (.ofNat n) := by
  revert n
  decide +kernel

theorem tableless_eq (s : UInt8) :
    tableless s = crcBit^[8] s.toUInt32 ∧ tableless2 s.toUInt32 = crcBit^[8] s.toUInt32 := by
  have h := tableless_fin ⟨s.toNat, s.toNat_lt⟩
  have hs : UInt32.ofNat s.toNat = s.toUInt32 := UInt32.toNat_inj.mp (by simp)
  rw [UInt8.ofNat_toNat, hs] at h
  exact h

theorem crcTablelessByte_eq (crc : UInt32) (b : UInt8) :
    crcTablelessByte crc b = crcByte crc b := by
  rw [crcByte_split, crcTablelessByte, (tableless_eq _).1]

/-- The masks of `tableless2` are about the lowest byte. -/
theorem signMask_low (x : UInt32) {k : UInt32} (hk : 24 ≤ k.toNat) (hk' : k.toNat < 32) :
    signMask x k = signMask (x &&& (0xFF : UInt32)) k := by
  have hshift : x <<< k = (x &&& (0xFF : UInt32)) <<< k := by
    apply UInt32.toNat_inj.mp
    obtain ⟨j, hj⟩ := Nat.exists_eq_add_of_le hk
    have hbyte : x.toNat * 2 ^ 24 % 2 ^ 32 = x.toNat % 2 ^ 8 * 2 ^ 24 % 2 ^ 32 := by omega
    rw [UInt32.toNat_shiftLeft, UInt32.toNat_shiftLeft, Nat.mod_eq_of_lt hk', low_toNat, hj,
      Nat.shiftLeft_eq, Nat.shiftLeft_eq, Nat.pow_add, ← Nat.mul_assoc, ← Nat.mul_assoc,
      Nat.mul_mod, hbyte, ← Nat.mul_mod]
  rw [signMask, hshift, signMask]

theorem tableless2_low (x : UInt32) : tableless2 x = tableless2 (x &&& (0xFF : UInt32)) := by
  have h24 := signMask_low x (k := 24) (by decide) (by decide)
  have h25 := signMask_low x (k := 25) (by decide) (by decide)
  have h26 := signMask_low x (k := 26) (by decide) (by decide)
  have h27 := signMask_low x (k := 27) (by decide) (by decide)
  have h28 := signMask_low x (k := 28) (by decide) (by decide)
  have h29 := signMask_low x (k := 29) (by decide) (by decide)
  have h30 := signMask_low x (k := 30) (by decide) (by decide)
  have h31 := signMask_low x (k := 31) (by decide) (by decide)
  unfold tableless2
  rw [h24, h25, h26, h27, h28, h29, h30, h31]

theorem crcTableless2Byte_eq (crc : UInt32) (b : UInt8) :
    crcTableless2Byte crc b = crcByte crc b := by
  unfold crcTableless2Byte
  dsimp only
  rw [tableless2_low, xor_byte_shiftRight, xor_byte_low, (tableless_eq _).2, crcByte_split]

theorem crc32Lookup16_eq (n : Fin 16) : crc32Lookup16.getD n 0 = crcBit^[4] (.ofNat n) := by
  revert n
  decide +kernel

theorem crcHalf_eq (crc index : UInt32) :
    crcHalf crc index = crcBit^[4] (index &&& (0x0F : UInt32)) ^^^ (crc >>> 4) := by
  have hlt : (index &&& 0x0F).toNat < 16 := by
    rw [UInt32.toNat_and]
    exact Nat.lt_of_le_of_lt Nat.and_le_right (by decide)
  have h := crc32Lookup16_eq ⟨(index &&& 0x0F).toNat, hlt⟩
  rw [UInt32.ofNat_toNat] at h
  rw [crcHalf, h]

theorem crcHalves_eq (crc : UInt32) (b : UInt8) : crcHalves crc b = crcByte crc b := by
  have hfirst : crcBit^[4] (crc ^^^ b.toUInt32) =
      crcHalf crc (crc ^^^ b.toUInt32) ^^^ (b.toUInt32 >>> 4) := by
    rw [iterate_crcBit_split_four 0, crcHalf_eq, UInt32.shiftRight_xor, UInt32.xor_assoc]
    rfl
  have hclear : (b.toUInt32 >>> 4) >>> 4 = 0 := by
    apply UInt32.toNat_inj.mp
    have hb := b.toNat_lt
    simp only [UInt32.toNat_shiftRight, UInt32.reduceToNat, Nat.reduceMod, UInt8.toNat_toUInt32,
      Nat.shiftRight_eq_div_pow]
    omega
  rw [crcByte_eq, Function.iterate_add_apply crcBit 4 4, hfirst, iterate_crcBit_split_four 0,
    UInt32.shiftRight_xor, hclear, UInt32.xor_zero, crcHalves, crcHalf_eq]
  rfl

theorem lookups_eq {k : ℕ} (hk : k < 13) (x : UInt32) :
    lookups k x = crcBit^[8 * (k + 4)] x := by
  have h16 : x >>> 8 >>> 8 = x >>> 16 := by
    apply UInt32.toNat_inj.mp
    simp only [UInt32.toNat_shiftRight, UInt32.reduceToNat, Nat.reduceMod, ← Nat.shiftRight_add]
  have h24 : x >>> 16 >>> 8 = x >>> 24 := by
    apply UInt32.toNat_inj.mp
    simp only [UInt32.toNat_shiftRight, UInt32.reduceToNat, Nat.reduceMod, ← Nat.shiftRight_add]
  have h32 : x >>> 24 >>> 8 = 0 := by
    apply UInt32.toNat_inj.mp
    have hx := x.toNat_lt
    simp only [UInt32.toNat_shiftRight, UInt32.reduceToNat, Nat.reduceMod,
      Nat.shiftRight_eq_div_pow]
    omega
  have hsplit : crcBit^[8 * k + 24 + 8] x =
      crcBit^[8 * k + 24 + 8] (x &&& (0xFF : UInt32)) ^^^
        (crcBit^[8 * k + 16 + 8] ((x >>> 8) &&& (0xFF : UInt32)) ^^^
          (crcBit^[8 * k + 8 + 8] ((x >>> 16) &&& (0xFF : UInt32)) ^^^
            crcBit^[8 * k + 8] ((x >>> 24) &&& (0xFF : UInt32)))) := by
    rw [iterate_crcBit_split (8 * k + 24), iterate_crcBit_split (8 * k + 16) (x >>> 8), h16,
      iterate_crcBit_split (8 * k + 8) (x >>> 16), h24, iterate_crcBit_split (8 * k) (x >>> 24),
      h32, iterate_crcBit_zero, UInt32.xor_zero]
  unfold lookups
  rw [lookup_low (by omega), lookup_low (by omega), lookup_low (by omega), lookup_low (by omega)]
  have h0 : 8 * (k + 4) = 8 * k + 24 + 8 := by omega
  have h1 : 8 * (k + 1) = 8 * k + 8 := by omega
  have h2 : 8 * (k + 1 + 1) = 8 * k + 8 + 8 := by omega
  have h3 : 8 * (k + 2 + 1) = 8 * k + 16 + 8 := by omega
  rw [h0, h1, h2, h3, hsplit]
  ac_rfl

theorem foldl_crcByte_wordOf {block : List UInt8} {i : ℕ} (h : 4 * i + 4 ≤ block.length)
    (crc : UInt32) :
    ((block.drop (4 * i)).take 4).foldl crcByte crc = crcBit^[32] (wordOf block i ^^^ crc) := by
  rw [← bytesAt_eq h]
  exact foldl_crcByte_word crc _ _ _ _

theorem foldl_crcByte_take_succ {block : List UInt8} {i : ℕ} (h : 4 * i + 4 ≤ block.length)
    (crc : UInt32) :
    (block.take (4 * (i + 1))).foldl crcByte crc =
      crcBit^[32] (wordOf block i ^^^ (block.take (4 * i)).foldl crcByte crc) := by
  rw [Nat.mul_succ, List.take_add, List.foldl_append, foldl_crcByte_wordOf h]

section Slicing

variable {crc : UInt32} {block : List UInt8}

theorem slicing4_eq (h : 4 ≤ block.length) :
    slicing4 crc block = (block.take 4).foldl crcByte crc := by
  rw [foldl_crcByte_take_succ (i := 0) h]
  exact lookups_eq (by decide) _

theorem slicing8_eq (h : 8 ≤ block.length) :
    slicing8 crc block = (block.take 8).foldl crcByte crc := by
  rw [foldl_crcByte_take_succ (i := 1) h, foldl_crcByte_take_succ (i := 0) (by omega),
    iterate_crcBit_xor, ← Function.iterate_add_apply]
  show lookups 0 (wordOf block 1) ^^^ lookups 4 (wordOf block 0 ^^^ crc) = _
  rw [lookups_eq (by decide), lookups_eq (by decide)]
  rfl

theorem slicing16_eq (h : 16 ≤ block.length) :
    slicing16 crc block = (block.take 16).foldl crcByte crc := by
  rw [foldl_crcByte_take_succ (i := 3) h, foldl_crcByte_take_succ (i := 2) (by omega),
    foldl_crcByte_take_succ (i := 1) (by omega), foldl_crcByte_take_succ (i := 0) (by omega)]
  simp only [iterate_crcBit_xor, ← Function.iterate_add_apply, Nat.reduceAdd]
  show lookups 0 (wordOf block 3) ^^^ lookups 4 (wordOf block 2) ^^^ lookups 8 (wordOf block 1) ^^^
    lookups 12 (wordOf block 0 ^^^ crc) = _
  rw [lookups_eq (by decide), lookups_eq (by decide), lookups_eq (by decide),
    lookups_eq (by decide), iterate_crcBit_xor]
  simp only [UInt32.xor_assoc]
  rfl

end Slicing

/-! ## Loops -/

theorem crcLoops_eq {size : ℕ} {hsize : 0 < size} {ahead : ℕ}
    {body : UInt32 → List UInt8 → UInt32}
    (h : ∀ crc block, size ≤ block.length → body crc block = (block.take size).foldl crcByte crc)
    (data : List UInt8) (previous : UInt32) :
    crcLoops hsize ahead body data previous = crc32Bitwise data previous := by
  have hblock : ∀ crc (block : List UInt8), block.length = size →
      body crc block = block.foldl crcByte crc := by
    intro crc block hlength
    rw [h crc block hlength.ge, List.take_of_length_le hlength.le]
  have hbyte : crcTableByte = crcByte := funext₂ crcTableByte_eq
  unfold crcLoops crc32Bitwise
  dsimp only
  rw [hbyte, Lib.foldl_blocks hblock]

theorem unroll_eq {size : ℕ} {body : UInt32 → List UInt8 → UInt32}
    (h : ∀ crc block, size ≤ block.length → body crc block = (block.take size).foldl crcByte crc)
    (crc : UInt32) (block : List UInt8) (hblock : size * 4 ≤ block.length) :
    unroll size body crc block = (block.take (size * 4)).foldl crcByte crc :=
  Lib.foldl_unroll h 4 crc hblock

/-- The routines that `packet.c` calls compute the bitwise CRC. -/
theorem slicedCrc_eq : slicedCrc = bitwiseCrc := by
  have h8 : crc32_8bytes = crc32Bitwise :=
    funext₂ (crcLoops_eq fun _ _ h => slicing8_eq h)
  have h16 : crc32_16bytes = crc32Bitwise :=
    funext₂ (crcLoops_eq (unroll_eq fun _ _ h => slicing16_eq h))
  unfold slicedCrc bitwiseCrc
  rw [h8, h16]

/-- So do all the others. -/
theorem crc32_variants (data : List UInt8) (previous : UInt32) :
    crc32Halfbyte data previous = crc32Bitwise data previous ∧
      crc32_1byte data previous = crc32Bitwise data previous ∧
      crc32_1byteTableless data previous = crc32Bitwise data previous ∧
      crc32_1byteTableless2 data previous = crc32Bitwise data previous ∧
      crc32_4bytes data previous = crc32Bitwise data previous ∧
      crc32_4x8bytes data previous = crc32Bitwise data previous ∧
      ∀ prefetchAhead,
        crc32_16bytesPrefetch data previous prefetchAhead = crc32Bitwise data previous := by
  have hhalves : crcHalves = crcByte := funext₂ crcHalves_eq
  have htable : crcTableByte = crcByte := funext₂ crcTableByte_eq
  have htableless : crcTablelessByte = crcByte := funext₂ crcTablelessByte_eq
  have htableless2 : crcTableless2Byte = crcByte := funext₂ crcTableless2Byte_eq
  refine ⟨?_, ?_, ?_, ?_, ?_, ?_, fun prefetchAhead => ?_⟩
  · rw [crc32Halfbyte, hhalves, crc32Bitwise]
  · rw [crc32_1byte, htable, crc32Bitwise]
  · rw [crc32_1byteTableless, htableless, crc32Bitwise]
  · rw [crc32_1byteTableless2, htableless2, crc32Bitwise]
  · exact crcLoops_eq (fun _ _ h => slicing4_eq h) data previous
  · exact crcLoops_eq (unroll_eq fun _ _ h => slicing8_eq h) data previous
  · exact crcLoops_eq (unroll_eq fun _ _ h => slicing16_eq h) data previous

/-- The two routines that `packet.c` calls agree with the bitwise one, and either goes on where
either has stopped: the CRC of the first piece is passed on as `previousCrc32`. -/
theorem crc32_pieces (piece rest : List UInt8) (previous : UInt32) :
    crc32_8bytes piece previous = crc32Bitwise piece previous ∧
      crc32_16bytes piece previous = crc32Bitwise piece previous ∧
      ∀ f ∈ [crc32_8bytes, crc32_16bytes], ∀ g ∈ [crc32_8bytes, crc32_16bytes],
        g rest (f piece previous) = crc32Bitwise (piece ++ rest) previous := by
  have h8 : crc32_8bytes = crc32Bitwise := congrArg Crc.crc32_8bytes slicedCrc_eq
  have h16 : crc32_16bytes = crc32Bitwise := congrArg Crc.crc32_16bytes slicedCrc_eq
  have hpieces : crc32Bitwise rest (crc32Bitwise piece previous) =
      crc32Bitwise (piece ++ rest) previous := by
    rw [crc32Bitwise, crc32Bitwise, crc32Bitwise, UInt32.not_not, List.foldl_append]
  rw [h8, h16]
  refine ⟨rfl, rfl, fun f hf g hg => ?_⟩
  simp only [List.mem_cons, List.not_mem_nil, or_false, or_self] at hf hg
  rw [hf, hg, hpieces]

end Trtp
