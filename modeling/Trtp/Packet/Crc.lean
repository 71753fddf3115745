import Mathlib.Logic.Function.Basic
import Trtp.Packet.Basic

/-!
# CRC-32

`crc32_bitwise` of `lib/Crc32.cpp`.  `crc32_8bytes` and `crc32_16bytes` compute
the same function through lookup tables, so `bitwiseCrc` is what the two
routines of a `Crc` are in the program.  Results are stated for every `Crc`;
this one is for running the model on concrete bytes.

Every step is injective, in the running value and in the byte.  So the CRC tells apart two
strings that differ in one byte only.
-/

namespace Trtp

def polynomial : UInt32 := 0xEDB88320

def crcBit (crc : UInt32) : UInt32 :=
  if crc &&& 1 = 1 then (crc >>> 1) ^^^ polynomial else crc >>> 1

def crcByte (crc : UInt32) (b : UInt8) : UInt32 :=
  crcBit (crcBit (crcBit (crcBit (crcBit (crcBit (crcBit (crcBit (crc ^^^ b.toUInt32))))))))

def crc32Bitwise (data : List UInt8) (previous : UInt32) : UInt32 :=
  ~~~ (data.foldl crcByte (~~~ previous))

def bitwiseCrc : Crc := ⟨crc32Bitwise, crc32Bitwise⟩

-- The check value of CRC-32, on the digits 1 to 9.
example : crc32Bitwise [0x31, 0x32, 0x33, 0x34, 0x35, 0x36, 0x37, 0x38, 0x39] 0 = 0xCBF43926 := by
  decide +kernel

/-! ## One changed byte -/

theorem low_bit (x : UInt32) : x &&& 1 = 1 ↔ x.toBitVec.getLsbD 0 = true := by
  rw [← UInt32.toBitVec_inj, UInt32.toBitVec_and]
  constructor
  · intro h
    have := congrArg (fun v => v.getLsbD 0) h
    simpa using this
  · intro h
    apply BitVec.eq_of_getLsbD_eq
    intro i hi
    cases i with
    | zero => simpa using h
    | succ i => simp

theorem crcBit_bit (x : UInt32) (i : Nat) :
    (crcBit x).toBitVec.getLsbD i =
      (x.toBitVec.getLsbD (i + 1) ^^ (x.toBitVec.getLsbD 0 && polynomial.toBitVec.getLsbD i)) := by
  unfold crcBit
  by_cases h : x.toBitVec.getLsbD 0 = true
  · rw [if_pos ((low_bit x).mpr h), h, UInt32.toBitVec_xor, BitVec.getLsbD_xor,
      UInt32.toBitVec_shiftRight]
    simp [Nat.add_comm]
  · rw [if_neg fun hx => h ((low_bit x).mp hx), Bool.eq_false_iff.mpr h,
      UInt32.toBitVec_shiftRight]
    simp [Nat.add_comm]

/-- The top bit of the polynomial keeps the bit that is shifted out. -/
theorem crcBit_injective : Function.Injective crcBit := by
  intro x y h
  have hbits : ∀ i, (crcBit x).toBitVec.getLsbD i = (crcBit y).toBitVec.getLsbD i := by
    rw [h]
    exact fun _ => rfl
  have h0 : x.toBitVec.getLsbD 0 = y.toBitVec.getLsbD 0 := by
    have htop := hbits 31
    rw [crcBit_bit, crcBit_bit] at htop
    have hp : polynomial.toBitVec.getLsbD 31 = true := by decide
    rw [hp, BitVec.getLsbD_of_ge _ 32 (Nat.le_refl _), BitVec.getLsbD_of_ge _ 32 (Nat.le_refl _),
      Bool.false_xor, Bool.false_xor, Bool.and_true, Bool.and_true] at htop
    exact htop
  apply UInt32.toBitVec_inj.mp
  apply BitVec.eq_of_getLsbD_eq
  intro i hi
  cases i with
  | zero => exact h0
  | succ i =>
    have hi := hbits i
    rw [crcBit_bit, crcBit_bit, h0] at hi
    exact Bool.xor_left_inj.mp hi

theorem crcByte_left_injective (b : UInt8) : Function.Injective (crcByte · b) := by
  intro x y h
  have hx : x ^^^ b.toUInt32 = y ^^^ b.toUInt32 := by
    simpa only [crcByte, crcBit_injective.eq_iff] using h
  exact UInt32.xor_left_inj _ |>.mp hx

theorem crcByte_right_injective (x : UInt32) : Function.Injective (crcByte x) := by
  intro b c h
  have hx : x ^^^ b.toUInt32 = x ^^^ c.toUInt32 := by
    simpa only [crcByte, crcBit_injective.eq_iff] using h
  have hb := UInt32.xor_right_inj _ |>.mp hx
  have := congrArg UInt32.toUInt8 hb
  simpa using this

theorem foldl_crcByte_ne (b : List UInt8) {x y : UInt32} (h : x ≠ y) :
    b.foldl crcByte x ≠ b.foldl crcByte y := by
  induction b generalizing x y with
  | nil => exact h
  | cons a b ih => exact ih ((crcByte_left_injective a).ne h)

theorem foldl_crcByte_modify_ne {f : UInt8 → UInt8} (hf : ∀ x, f x ≠ x) {b : List UInt8} {i : Nat}
    (hi : i < b.length) (c : UInt32) : (b.modify i f).foldl crcByte c ≠ b.foldl crcByte c := by
  induction b generalizing i c with
  | nil => exact absurd hi (Nat.not_lt_zero i)
  | cons x b ih =>
    cases i with
    | zero =>
      rw [List.modify_zero_cons, List.foldl_cons, List.foldl_cons]
      exact foldl_crcByte_ne b ((crcByte_right_injective c).ne (hf x))
    | succ i =>
      rw [List.modify_succ_cons, List.foldl_cons, List.foldl_cons]
      exact ih (Nat.lt_of_succ_lt_succ hi) _

theorem crc32Bitwise_modify_ne {f : UInt8 → UInt8} (hf : ∀ x, f x ≠ x) {b : List UInt8} {i : Nat}
    (hi : i < b.length) (previous : UInt32) :
    crc32Bitwise (b.modify i f) previous ≠ crc32Bitwise b previous := by
  intro h
  exact foldl_crcByte_modify_ne hf hi _ (UInt32.not_inj.mp h)

end Trtp
