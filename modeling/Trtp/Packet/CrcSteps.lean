import Mathlib.Data.List.Iterate
import Trtp.Lib.Shift
import Trtp.Packet.CrcTable

/-!
# Steps of the CRC register

`crcBit` is a step of a shift register, so it is linear.  Many steps of a word are the
exclusive or of the steps of its bytes, each of them so many steps less as the byte is
further up (`iterate_crcBit_word`), and these are what the slices of the lookup table hold.
-/

namespace Trtp

theorem crcBit_toBitVec (x : UInt32) :
    (crcBit x).toBitVec = Lib.feedback polynomial.toBitVec x.toBitVec := by
  apply BitVec.eq_of_getLsbD_eq
  intro i _
  rw [crcBit_bit, Lib.feedback_getLsbD]

theorem iterate_crcBit_toBitVec (n : ℕ) (x : UInt32) :
    (crcBit^[n] x).toBitVec = (Lib.feedback polynomial.toBitVec)^[n] x.toBitVec :=
  (Function.Semiconj.iterate_right crcBit_toBitVec n).eq x

theorem iterate_crcBit_xor (n : ℕ) (x y : UInt32) :
    crcBit^[n] (x ^^^ y) = crcBit^[n] x ^^^ crcBit^[n] y := by
  apply UInt32.toBitVec_inj.mp
  rw [UInt32.toBitVec_xor, iterate_crcBit_toBitVec, iterate_crcBit_toBitVec,
    iterate_crcBit_toBitVec, UInt32.toBitVec_xor, Lib.iterate_feedback_xor]

theorem iterate_crcBit_zero (n : ℕ) : crcBit^[n] 0 = 0 := by
  induction n with
  | zero => rfl
  | succ n ih => exact ih

theorem crcByte_eq (crc : UInt32) (b : UInt8) : crcByte crc b = crcBit^[8] (crc ^^^ b.toUInt32) :=
  rfl

/-- The mask as it is computed, without a branch. -/
theorem crcBit_eq_masked (crc : UInt32) :
    crcBit crc = (crc >>> 1) ^^^ (-(crc &&& 1) &&& polynomial) := by
  have hbit : crc &&& 1 = 0 ∨ crc &&& 1 = 1 := by
    have hlow : (crc &&& 1).toNat = crc.toNat % 2 := by
      rw [UInt32.toNat_and]
      exact Nat.and_one_is_mod _
    rcases Nat.mod_two_eq_zero_or_one crc.toNat with h | h
    · exact .inl (UInt32.toNat_inj.mp (hlow.trans h))
    · exact .inr (UInt32.toNat_inj.mp (hlow.trans h))
  unfold crcBit
  rcases hbit with h | h
  · rw [h, if_neg (by decide)]
    have hmask : -(0 : UInt32) &&& polynomial = 0 := by decide
    rw [hmask, UInt32.xor_zero]
  · rw [h, if_pos rfl]
    have hmask : -(1 : UInt32) &&& polynomial = polynomial := by decide
    rw [hmask]

/-! ## Bytes of a word -/

theorem low_toNat (x : UInt32) : (x &&& 0xFF).toNat = x.toNat % 2 ^ 8 := by
  rw [UInt32.toNat_and]
  exact Nat.and_two_pow_sub_one_eq_mod x.toNat 8

theorem low_eq_toUInt8 (x : UInt32) : x &&& 0xFF = x.toUInt8.toUInt32 := by
  apply UInt32.toNat_inj.mp
  rw [low_toNat, UInt8.toNat_toUInt32, UInt32.toNat_toUInt8]

theorem shiftRight_eight_toNat (x : UInt32) : (x >>> 8).toNat = x.toNat / 2 ^ 8 := by
  rw [UInt32.toNat_shiftRight]
  exact Nat.shiftRight_eq_div_pow _ 8

section Word

variable (a b c d : UInt8)

theorem u32FromBytes_low : u32FromBytes a b c d &&& 0xFF = a.toUInt32 := by
  apply UInt32.toNat_inj.mp
  have ha := a.toNat_lt
  rw [low_toNat, u32FromBytes_toNat, UInt8.toNat_toUInt32]
  omega

theorem u32FromBytes_shiftRight : u32FromBytes a b c d >>> 8 = u32FromBytes b c d 0 := by
  apply UInt32.toNat_inj.mp
  have ha := a.toNat_lt
  rw [shiftRight_eight_toNat, u32FromBytes_toNat, u32FromBytes_toNat, UInt8.toNat_zero]
  omega

end Word

/-- The register after some steps of a word, byte by byte. -/
theorem iterate_crcBit_split (n : ℕ) (x : UInt32) :
    crcBit^[n + 8] x = crcBit^[n + 8] (x &&& (0xFF : UInt32)) ^^^ crcBit^[n] (x >>> 8) := by
  apply UInt32.toBitVec_inj.mp
  rw [UInt32.toBitVec_xor, iterate_crcBit_toBitVec, iterate_crcBit_toBitVec,
    iterate_crcBit_toBitVec]
  exact Lib.iterate_feedback_split _ (k := 8) (by decide) n x.toBitVec

/-- The same for half a byte. -/
theorem iterate_crcBit_split_four (n : ℕ) (x : UInt32) :
    crcBit^[n + 4] x = crcBit^[n + 4] (x &&& (0x0F : UInt32)) ^^^ crcBit^[n] (x >>> 4) := by
  apply UInt32.toBitVec_inj.mp
  rw [UInt32.toBitVec_xor, iterate_crcBit_toBitVec, iterate_crcBit_toBitVec,
    iterate_crcBit_toBitVec]
  exact Lib.iterate_feedback_split _ (k := 4) (by decide) n x.toBitVec

/-- A word that is added to the register does what its bytes do one after the other. -/
theorem foldl_crcByte_word (crc : UInt32) (a b c d : UInt8) :
    [a, b, c, d].foldl crcByte crc = crcBit^[32] (u32FromBytes a b c d ^^^ crc) := by
  have hword : crcBit^[32] (u32FromBytes a b c d) =
      crcBit^[32] a.toUInt32 ^^^ (crcBit^[24] b.toUInt32 ^^^
        (crcBit^[16] c.toUInt32 ^^^ crcBit^[8] d.toUInt32)) := by
    rw [iterate_crcBit_split 24, iterate_crcBit_split 16, iterate_crcBit_split 8,
      iterate_crcBit_split 0, u32FromBytes_low, u32FromBytes_shiftRight, u32FromBytes_low,
      u32FromBytes_shiftRight, u32FromBytes_low, u32FromBytes_shiftRight, u32FromBytes_low,
      u32FromBytes_shiftRight]
    show _ ^^^ (_ ^^^ (_ ^^^ (_ ^^^ u32FromBytes 0 0 0 0))) = _
    have hzero : u32FromBytes 0 0 0 0 = 0 := rfl
    rw [hzero, UInt32.xor_zero]
  simp only [List.foldl_cons, List.foldl_nil, crcByte_eq, iterate_crcBit_xor,
    ← Function.iterate_add_apply, Nat.reduceAdd, hword]
  ac_rfl

/-! ## The table -/

/-- `crcBit` on natural numbers, as in the comment that says how the table was made. -/
def natBit (x : ℕ) : ℕ := (x >>> 1) ^^^ ((x &&& 1) * 0xEDB88320)

def natByte (x : ℕ) : ℕ :=
  natBit (natBit (natBit (natBit (natBit (natBit (natBit (natBit x)))))))

theorem crcBit_toNat (x : UInt32) : (crcBit x).toNat = natBit x.toNat := by
  have hone : (1 : UInt32).toNat = 1 := rfl
  have hshift : (x >>> 1).toNat = x.toNat >>> 1 := UInt32.toNat_shiftRight x 1
  have hand : (x &&& 1).toNat = x.toNat &&& 1 := UInt32.toNat_and x 1
  unfold crcBit natBit
  split
  · rename_i h
    rw [h, hone] at hand
    rw [UInt32.toNat_xor, hshift, ← hand]
    rfl
  · rename_i h
    have hzero : x.toNat &&& 1 = 0 := by
      rcases Nat.mod_two_eq_zero_or_one x.toNat with hmod | hmod
      · rw [Nat.and_one_is_mod, hmod]
      · exact absurd (UInt32.toNat_inj.mp (by rw [hand, Nat.and_one_is_mod, hmod, hone])) h
    rw [hshift, hzero, Nat.zero_mul, Nat.xor_zero]

theorem iterate_crcBit_toNat (n : ℕ) (x : UInt32) :
    (crcBit^[8 * n] x).toNat = natByte^[n] x.toNat := by
  induction n generalizing x with
  | zero => rfl
  | succ n ih =>
    have hbyte : (crcBit^[8] x).toNat = natByte x.toNat := by
      show (crcBit (crcBit (crcBit (crcBit (crcBit (crcBit (crcBit (crcBit x)))))))).toNat = _
      simp only [crcBit_toNat, natByte]
    rw [Nat.mul_succ, Function.iterate_add_apply, ih, hbyte, Function.iterate_succ_apply natByte]

/-- All 4096 values of the table. -/
theorem crc32Lookup_toNat :
    crc32Lookup.map (List.map UInt32.toNat) =
      List.iterate (List.map natByte) ((List.range 256).map natByte) 16 := by
  decide +kernel

theorem iterate_map_natByte (n : ℕ) (l : List ℕ) :
    (List.map natByte)^[n] l = l.map natByte^[n] := by
  induction n generalizing l with
  | zero => simp
  | succ n ih =>
    rw [Function.iterate_succ_apply, ih, List.map_map]
    rfl

theorem lookup_eq {k : ℕ} (hk : k < 16) {x : UInt32} (hx : x.toNat < 256) :
    lookup k x = crcBit^[8 * (k + 1)] x := by
  have hslice : (crc32Lookup.getD k []).map UInt32.toNat =
      (List.range 256).map natByte^[k + 1] := by
    have h := congrArg (fun l => l[k]?) crc32Lookup_toNat
    simp only [List.getElem?_map, List.getElem?_iterate _ _ _ _ hk, iterate_map_natByte,
      List.map_map, ← Function.iterate_succ] at h
    rw [List.getD_eq_getElem?_getD]
    obtain ⟨slice, hget, hslice⟩ := Option.map_eq_some_iff.mp h
    rw [hget]
    exact hslice
  have hentry := congrArg (fun l => l[x.toNat]?) hslice
  simp only [List.getElem?_map, List.getElem?_range hx, Option.map_some] at hentry
  obtain ⟨entry, hget, hentry⟩ := Option.map_eq_some_iff.mp hentry
  apply UInt32.toNat_inj.mp
  rw [iterate_crcBit_toNat, lookup, List.getD_eq_getElem?_getD, hget]
  exact hentry

theorem lookup_low {k : ℕ} (hk : k < 16) (x : UInt32) :
    lookup k (x &&& 0xFF) = crcBit^[8 * (k + 1)] (x &&& 0xFF) :=
  lookup_eq hk (by rw [low_toNat]; omega)

end Trtp
