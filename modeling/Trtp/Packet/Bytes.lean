import Mathlib.Data.Nat.Bitwise
import Mathlib.Tactic.Ring

/-!
# Byte order

The host is little-endian, as the code assumes throughout: it swaps a word with
`htonl` and then stores its bytes from the least significant one on, so the
bytes leave in network order.
-/

namespace Trtp

/-- `htons`: swap the two bytes of a word. -/
def htons (x : UInt16) : UInt16 := (x <<< 8) ||| (x >>> 8)

def ntohs (x : UInt16) : UInt16 := htons x

/-- The expression of the macro `U32_FROM_BUFFER`. -/
def u32FromBytes (a b c d : UInt8) : UInt32 :=
  a.toUInt32 ||| (b.toUInt32 <<< 8) ||| (c.toUInt32 <<< 16) ||| (d.toUInt32 <<< 24)

def htonl (x : UInt32) : UInt32 :=
  u32FromBytes (x >>> 24).toUInt8 (x >>> 16).toUInt8 (x >>> 8).toUInt8 x.toUInt8

def ntohl (x : UInt32) : UInt32 := htonl x

/-- The four stores `*packet++ = (uint8_t) (x >> k)` for `k = 0, 8, 16, 24`. -/
def bytesOfU32 (x : UInt32) : List UInt8 :=
  [x.toUInt8, (x >>> 8).toUInt8, (x >>> 16).toUInt8, (x >>> 24).toUInt8]

@[simp] theorem bytesOfU32_length (x : UInt32) : (bytesOfU32 x).length = 4 := rfl

/-- Two fields that do not overlap are joined by `|||` as by addition. -/
theorem or_shiftLeft_eq_add {a b k : Nat} (h : a < 2 ^ k) : a ||| (b <<< k) = a + b * 2 ^ k := by
  rw [Nat.or_comm, ← Nat.shiftLeft_add_eq_or_of_lt h, Nat.shiftLeft_eq, Nat.add_comm]

theorem u32FromBytes_toNat (a b c d : UInt8) :
    (u32FromBytes a b c d).toNat =
      a.toNat + b.toNat * 2 ^ 8 + c.toNat * 2 ^ 16 + d.toNat * 2 ^ 24 := by
  have ha := a.toNat_lt
  have hb := b.toNat_lt
  have hc := c.toNat_lt
  have hd := d.toNat_lt
  have fits : ∀ {n k m : Nat}, n < 2 ^ 8 → k + 8 ≤ m → n <<< k % 2 ^ m = n <<< k := by
    intro n k m hn hk
    apply Nat.mod_eq_of_lt
    rw [Nat.shiftLeft_eq]
    calc n * 2 ^ k < 2 ^ 8 * 2 ^ k := Nat.mul_lt_mul_of_pos_right hn (Nat.two_pow_pos k)
      _ = 2 ^ (k + 8) := by rw [← Nat.pow_add, Nat.add_comm]
      _ ≤ 2 ^ m := Nat.pow_le_pow_right (by omega) hk
  have hb' := fits hb (k := 8) (m := 32) (by omega)
  have hc' := fits hc (k := 16) (m := 32) (by omega)
  have hd' := fits hd (k := 24) (m := 32) (by omega)
  simp only [u32FromBytes, UInt32.toNat_or, UInt32.toNat_shiftLeft, UInt8.toNat_toUInt32,
    UInt32.reduceToNat, Nat.reduceMod, hb', hc', hd']
  rw [or_shiftLeft_eq_add (a := a.toNat) (by omega),
    or_shiftLeft_eq_add (a := a.toNat + b.toNat * 2 ^ 8) (by omega),
    or_shiftLeft_eq_add (by omega)]

section Bytes

variable (a b c d : UInt8)

theorem u32FromBytes_byte0 : (u32FromBytes a b c d).toUInt8 = a := by
  apply UInt8.toNat_inj.mp
  have ha := a.toNat_lt
  simp only [UInt32.toNat_toUInt8, u32FromBytes_toNat]
  omega

theorem u32FromBytes_byte1 : (u32FromBytes a b c d >>> 8).toUInt8 = b := by
  apply UInt8.toNat_inj.mp
  have ha := a.toNat_lt
  have hb := b.toNat_lt
  simp only [UInt32.toNat_toUInt8, UInt32.toNat_shiftRight, UInt32.reduceToNat, Nat.reduceMod,
    Nat.shiftRight_eq_div_pow, u32FromBytes_toNat]
  omega

theorem u32FromBytes_byte2 : (u32FromBytes a b c d >>> 16).toUInt8 = c := by
  apply UInt8.toNat_inj.mp
  have ha := a.toNat_lt
  have hb := b.toNat_lt
  have hc := c.toNat_lt
  simp only [UInt32.toNat_toUInt8, UInt32.toNat_shiftRight, UInt32.reduceToNat, Nat.reduceMod,
    Nat.shiftRight_eq_div_pow, u32FromBytes_toNat]
  omega

theorem u32FromBytes_byte3 : (u32FromBytes a b c d >>> 24).toUInt8 = d := by
  apply UInt8.toNat_inj.mp
  have ha := a.toNat_lt
  have hb := b.toNat_lt
  have hc := c.toNat_lt
  have hd := d.toNat_lt
  simp only [UInt32.toNat_toUInt8, UInt32.toNat_shiftRight, UInt32.reduceToNat, Nat.reduceMod,
    Nat.shiftRight_eq_div_pow, u32FromBytes_toNat]
  omega

end Bytes

theorem u32FromBytes_bytes (x : UInt32) :
    u32FromBytes x.toUInt8 (x >>> 8).toUInt8 (x >>> 16).toUInt8 (x >>> 24).toUInt8 = x := by
  apply UInt32.toNat_inj.mp
  have hx := x.toNat_lt
  simp only [u32FromBytes_toNat, UInt32.toNat_toUInt8, UInt32.toNat_shiftRight,
    UInt32.reduceToNat, Nat.reduceMod, Nat.shiftRight_eq_div_pow]
  omega

theorem htonl_htonl (x : UInt32) : htonl (htonl x) = x := by
  rw [htonl.eq_1 (htonl x), htonl.eq_1 x, u32FromBytes_byte0, u32FromBytes_byte1,
    u32FromBytes_byte2, u32FromBytes_byte3, u32FromBytes_bytes]

/-- Storing a swapped word byte by byte and loading it back swapped is the
identity. -/
theorem ntohl_bytes (x : UInt32) :
    ntohl (u32FromBytes (htonl x).toUInt8 (htonl x >>> 8).toUInt8 (htonl x >>> 16).toUInt8
      (htonl x >>> 24).toUInt8) = x := by
  rw [u32FromBytes_bytes, ntohl, htonl_htonl]

theorem htons_toNat (x : UInt16) :
    (htons x).toNat = x.toNat / 2 ^ 8 + x.toNat % 2 ^ 8 * 2 ^ 8 := by
  have hx := x.toNat_lt
  have hl : x.toNat <<< 8 % 2 ^ 16 = (x.toNat % 2 ^ 8) <<< 8 := by
    simp only [Nat.shiftLeft_eq]
    omega
  simp only [htons, UInt16.toNat_or, UInt16.toNat_shiftLeft, UInt16.toNat_shiftRight,
    UInt16.reduceToNat, Nat.reduceMod, hl]
  rw [Nat.or_comm, Nat.shiftRight_eq_div_pow, or_shiftLeft_eq_add (by omega)]

end Trtp
