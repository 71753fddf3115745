import Trtp.Packet.Format

/-!
# Single-bit corruption

A packet that `unpack` accepts is rejected once a bit of it has been flipped.  Of the CRC
routines only this is assumed: they tell two byte strings apart that differ in one bit.

The L bit is left out, as it moves every field that follows it.  The TR bit is not covered
by the CRC of the header.  Its flips are caught by the length of the packet and by the rule
that only DATA is truncated, and a DATA packet without a length escapes both.
-/

namespace Trtp

/-- The byte `x` with bit `k` flipped, counting from the least significant one. -/
def flipByte (k : Fin 8) (x : UInt8) : UInt8 := x ^^^ ((1 : UInt8) <<< UInt8.ofNat k)

def flipBit (b : List UInt8) (i : ℕ) (k : Fin 8) : List UInt8 := b.modify i (flipByte k)

/-- The routines of `lib/` differ on any two strings that differ in one bit. -/
structure Crc.SingleBit (crc : Crc) : Prop where
  crc32_8bytes : ∀ b i k previous, i < b.length →
    crc.crc32_8bytes (flipBit b i k) previous ≠ crc.crc32_8bytes b previous
  crc32_16bytes : ∀ b i k previous, i < b.length →
    crc.crc32_16bytes (flipBit b i k) previous ≠ crc.crc32_16bytes b previous

/-! ## Bytes -/

theorem flipByte_bits (n : Fin 256) (k : Fin 8) :
    let x : UInt8 := UInt8.ofNat n
    let y := flipByte k x
    y ≠ x ∧ (k ≠ 7 → y.toNat / 128 = x.toNat / 128) ∧
      (k ≠ 5 → y &&& 0xDF = flipByte k (x &&& 0xDF)) ∧
      (k = 5 → y &&& 0xDF = x &&& 0xDF ∧ y.toNat / 64 = x.toNat / 64 ∧
        y.toNat / 32 % 2 = 1 - x.toNat / 32 % 2) := by
  revert n k
  decide +kernel

theorem flipByte_spec (x : UInt8) (k : Fin 8) :
    flipByte k x ≠ x ∧ (k ≠ 7 → (flipByte k x).toNat / 128 = x.toNat / 128) ∧
      (k ≠ 5 → flipByte k x &&& 0xDF = flipByte k (x &&& 0xDF)) ∧
      (k = 5 → flipByte k x &&& 0xDF = x &&& 0xDF ∧ (flipByte k x).toNat / 64 = x.toNat / 64 ∧
        (flipByte k x).toNat / 32 % 2 = 1 - x.toNat / 32 % 2) := by
  have h := flipByte_bits ⟨x.toNat, x.toNat_lt⟩ k
  simp only [UInt8.ofNat_toNat] at h
  exact h

section Fields

variable {b : List UInt8} {i : ℕ} {k : Fin 8}

@[simp] theorem flipBit_length (b : List UInt8) (i : ℕ) (k : Fin 8) :
    (flipBit b i k).length = b.length :=
  List.length_modify ..

theorem octet_flipBit_of_ne {j : ℕ} (h : j ≠ i) :
    Format.octet (flipBit b i k) j = Format.octet b j := by
  simp [Format.octet, flipBit, h.symm]

theorem octet_flipBit (hi : i < b.length) :
    Format.octet (flipBit b i k) i = (flipByte k (b.getD i 0)).toNat := by
  simp [Format.octet, flipBit, hi]

theorem octet_flipBit_ne (hi : i < b.length) :
    Format.octet (flipBit b i k) i ≠ Format.octet b i := by
  rw [octet_flipBit hi]
  intro h
  exact (flipByte_spec _ k).1 (UInt8.toNat_inj.mp h)

theorem take_flipBit (m : ℕ) : (flipBit b i k).take m = flipBit (b.take m) i k := by
  apply List.ext_getElem?
  intro j
  simp only [flipBit, List.getElem?_take, List.getElem?_modify]
  split_ifs <;> rfl

theorem take_flipBit_of_le {m : ℕ} (h : m ≤ i) : (flipBit b i k).take m = b.take m := by
  rw [take_flipBit, flipBit, List.modify_eq_self ((List.length_take_le m b).trans h)]

theorem drop_flipBit {m : ℕ} (h : m ≤ i) :
    (flipBit b i k).drop m = flipBit (b.drop m) (i - m) k := by
  apply List.ext_getElem?
  intro j
  simp only [flipBit, List.getElem?_drop, List.getElem?_modify]
  have : (i = m + j) = (i - m = j) := by
    apply propext
    omega
  simp only [this]

theorem modifyHead_flipBit (h : ¬ (i = 0 ∧ k = 5)) :
    (flipBit b i k).modifyHead (· &&& 0xDF) = flipBit (b.modifyHead (· &&& 0xDF)) i k := by
  cases b with
  | nil => simp [flipBit]
  | cons x b =>
    cases i with
    | zero =>
      have hk : k ≠ 5 := fun hk => h ⟨rfl, hk⟩
      simp [flipBit, (flipByte_spec x k).2.2.1 hk]
    | succ i => simp [flipBit]

theorem modifyHead_flipBit_tr :
    (flipBit b 0 5).modifyHead (· &&& 0xDF) = b.modifyHead (· &&& 0xDF) := by
  cases b with
  | nil => rfl
  | cons x b => simp [flipBit, ((flipByte_spec x 5).2.2.2 rfl).1]

end Fields

/-! ## Numbers -/

section Numbers

variable {b b' : List UInt8} {i : ℕ}

theorem number_congr {n : ℕ} (h : ∀ j < n, Format.octet b' (i + j) = Format.octet b (i + j)) :
    Format.number b' i n = Format.number b i n := by
  induction n with
  | zero => rfl
  | succ n ih =>
    rw [Format.number, Format.number, ih fun j hj => h j (Nat.lt_succ_of_lt hj),
      h n (Nat.lt_succ_self n)]

theorem octet_lt (b : List UInt8) (i : ℕ) : Format.octet b i < 256 := UInt8.toNat_lt _

theorem octet_of_number {n : ℕ} (h : Format.number b' i n = Format.number b i n) :
    ∀ j < n, Format.octet b' (i + j) = Format.octet b (i + j) := by
  induction n with
  | zero => exact fun j hj => absurd hj (Nat.not_lt_zero j)
  | succ n ih =>
    rw [Format.number, Format.number] at h
    have hlt := octet_lt b (i + n)
    have hlt' := octet_lt b' (i + n)
    intro j hj
    rcases Nat.lt_succ_iff_lt_or_eq.mp hj with hj | rfl
    · exact ih (by omega) j hj
    · omega

end Numbers

/-! ## The fields after a flip -/

section Flips

variable {b : List UInt8} {i : ℕ} {k : Fin 8}

theorem long_flipBit (hi : i < b.length) (hL : ¬ (i = 1 ∧ k = 7)) :
    Format.long (flipBit b i k) = Format.long b := by
  unfold Format.long
  by_cases h1 : i = 1
  · subst h1
    rw [octet_flipBit hi]
    exact (flipByte_spec _ k).2.1 fun hk => hL ⟨rfl, hk⟩
  · rw [octet_flipBit_of_ne (Ne.symm h1)]

theorem header_flipBit (hlong : Format.long (flipBit b i k) = Format.long b)
    (hTR : ¬ (i = 0 ∧ k = 5)) :
    Format.header (flipBit b i k) = flipBit (Format.header b) i k := by
  rw [Format.header, hlong, take_flipBit, modifyHead_flipBit hTR]
  rfl

theorem crc1_flipBit (hlong : Format.long (flipBit b i k) = Format.long b)
    (h : i < 7 + Format.long b ∨ 11 + Format.long b ≤ i) :
    Format.crc1 (flipBit b i k) = Format.crc1 b := by
  unfold Format.crc1
  rw [hlong]
  refine number_congr fun j hj => octet_flipBit_of_ne ?_
  omega

/-- A flip behind the header changes none of its fields. -/
theorem fields_flipBit (hlong : Format.long (flipBit b i k) = Format.long b)
    (h : 7 + Format.long b ≤ i) :
    Format.header (flipBit b i k) = Format.header b ∧ Format.len (flipBit b i k) = Format.len b ∧
      Format.carries (flipBit b i k) = Format.carries b := by
  have h0 : Format.octet (flipBit b i k) 0 = Format.octet b 0 := octet_flipBit_of_ne (by omega)
  have h1 : Format.octet (flipBit b i k) 1 = Format.octet b 1 := octet_flipBit_of_ne (by omega)
  have h2 : Format.octet (flipBit b i k) 2 = Format.octet b 2 := octet_flipBit_of_ne (by omega)
  have hlen : Format.len (flipBit b i k) = Format.len b := by
    rw [Format.len, Format.len, hlong, h1, h2]
  refine ⟨?_, hlen, ?_⟩
  · rw [Format.header, Format.header, hlong, take_flipBit_of_le h]
  · rw [Format.carries, Format.carries, hlen, Format.type, Format.type, Format.truncated,
      Format.truncated, h0]

/-- A flip of the TR bit changes nothing else. -/
theorem fields_flipBit_tr (hpos : 0 < b.length) :
    Format.long (flipBit b 0 5) = Format.long b ∧ Format.len (flipBit b 0 5) = Format.len b ∧
      Format.type (flipBit b 0 5) = Format.type b ∧
      Format.truncated (flipBit b 0 5) = !Format.truncated b ∧
      Format.header (flipBit b 0 5) = Format.header b := by
  have hlong : Format.long (flipBit b 0 5) = Format.long b := long_flipBit hpos (by omega)
  have h1 : Format.octet (flipBit b 0 5) 1 = Format.octet b 1 := octet_flipBit_of_ne (by decide)
  have h2 : Format.octet (flipBit b 0 5) 2 = Format.octet b 2 := octet_flipBit_of_ne (by decide)
  obtain ⟨-, htype, htr⟩ := (flipByte_spec (b.getD 0 0) 5).2.2.2 rfl
  have hoctet : (b.getD 0 0).toNat = Format.octet b 0 := rfl
  refine ⟨hlong, ?_, ?_, ?_, ?_⟩
  · rw [Format.len, Format.len, hlong, h1, h2]
  · rw [Format.type, Format.type, octet_flipBit hpos, htype, hoctet]
  · rw [Format.truncated, Format.truncated, octet_flipBit hpos, htr, hoctet, Bool.eq_iff_iff]
    simp only [decide_eq_true_eq, Bool.not_eq_true', decide_eq_false_iff_not]
    omega
  · rw [Format.header, hlong, take_flipBit, modifyHead_flipBit_tr]
    rfl

end Flips

/-! ## Rejection -/

section Rejection

variable {crc : Crc} {b : List UInt8} {i : ℕ} {k : Fin 8}

theorem not_valid_of_header (hcrc : crc.SingleBit) (hb : Format.Valid b crc)
    (hi : i < 7 + Format.long b) (hL : ¬ (i = 1 ∧ k = 7)) (hTR : ¬ (i = 0 ∧ k = 5)) :
    ¬ Format.Valid (flipBit b i k) crc := by
  intro hv
  have hsize := hb.size
  have hlong := long_flipBit (b := b) (by omega) hL
  have hcrc1 := hv.crc1_eq
  rw [crc1_flipBit hlong (.inl hi), hb.crc1_eq, header_flipBit hlong hTR, UInt32.toNat_inj] at hcrc1
  refine hcrc.crc32_8bytes (Format.header b) i k 0 ?_ hcrc1.symm
  simp only [Format.header, List.length_modifyHead, List.length_take]
  omega

theorem not_valid_of_crc1 (hb : Format.Valid b crc) (hlow : 7 + Format.long b ≤ i)
    (hi : i < 11 + Format.long b) (hL : ¬ (i = 1 ∧ k = 7)) :
    ¬ Format.Valid (flipBit b i k) crc := by
  intro hv
  have hsize := hb.size
  have hlong := long_flipBit (b := b) (by omega) hL
  have hcrc1 := hv.crc1_eq
  rw [(fields_flipBit hlong hlow).1, ← hb.crc1_eq, Format.crc1, Format.crc1, hlong] at hcrc1
  have hoctet := octet_of_number hcrc1 (i - (7 + Format.long b)) (by omega)
  rw [Nat.add_sub_cancel' hlow] at hoctet
  exact octet_flipBit_ne (by omega) hoctet

theorem not_valid_of_payload (hcrc : crc.SingleBit) (hb : Format.Valid b crc)
    (hlow : 11 + Format.long b ≤ i) (hi : i < b.length) :
    ¬ Format.Valid (flipBit b i k) crc := by
  intro hv
  have hsize := hb.size
  have hlong := long_flipBit (b := b) (i := i) (k := k) hi (by omega)
  obtain ⟨-, hlen, hcarries⟩ := fields_flipBit hlong (by omega)
  have hp : Format.carries b = true := by
    by_contra hn
    rw [if_neg hn] at hsize
    omega
  rw [if_pos hp] at hsize
  have hcrc2 := hv.crc2_eq (hcarries.trans hp)
  have hold := hb.crc2_eq hp
  rw [Format.crc2, Format.payload, hlong, hlen] at hcrc2
  by_cases hdata : i < 11 + Format.long b + Format.len b
  · -- the stored CRC is the old one, and the payload has changed
    have hnumber : Format.number (flipBit b i k) (11 + Format.long b + Format.len b) 4 =
        Format.crc2 b := number_congr fun j _ => octet_flipBit_of_ne (by omega)
    rw [hnumber, hold, drop_flipBit hlow, take_flipBit, UInt32.toNat_inj] at hcrc2
    refine hcrc.crc32_16bytes (Format.payload b) (i - (11 + Format.long b)) k 0 ?_ hcrc2.symm
    simp only [Format.payload, List.length_take, List.length_drop]
    omega
  · have hpayload : ((flipBit b i k).drop (11 + Format.long b)).take (Format.len b) =
        Format.payload b := by
      rw [drop_flipBit hlow, take_flipBit_of_le (by omega)]
      rfl
    rw [hpayload, ← hold, Format.crc2] at hcrc2
    have hoctet := octet_of_number hcrc2 (i - (11 + Format.long b + Format.len b)) (by omega)
    rw [Nat.add_sub_cancel' (not_lt.mp hdata)] at hoctet
    exact octet_flipBit_ne hi hoctet

theorem valid_flipBit_tr (hb : Format.Valid b crc)
    (hkind : Format.type b = .data ∨ Format.len b = 0) :
    Format.Valid (flipBit b 0 5) crc ↔ Format.type b = .data ∧ Format.len b = 0 := by
  have hsize := hb.size
  obtain ⟨hlong, hlen, htype, htr, hheader⟩ := fields_flipBit_tr (b := b) (by omega)
  constructor
  · intro hv
    have hsize' := hv.size
    have hdata : Format.type b = .data := by
      refine hkind.elim id fun _ => ?_
      cases hb' : Format.truncated b with
      | true => exact hb.truncated_data hb'
      | false => exact htype.symm.trans (hv.truncated_data (by rw [htr, hb']; rfl))
    refine ⟨hdata, ?_⟩
    -- with a length, one of the two packets carries a payload and the other does not
    rw [flipBit_length, hlong, hlen] at hsize'
    by_contra hne
    have hlenpos : 0 < Format.len b := Nat.pos_of_ne_zero hne
    simp only [Format.carries, hdata, htype, htr, hlen, hlenpos, true_and, and_true,
      Bool.not_eq_false', decide_eq_true_eq] at hsize hsize'
    cases hb' : Format.truncated b <;> simp [hb'] at hsize hsize' <;> omega
  · rintro ⟨hdata, hzero⟩
    have hnone : Format.carries b = false := by simp [Format.carries, hzero]
    have hnone' : Format.carries (flipBit b 0 5) = false := by simp [Format.carries, hlen, hzero]
    rw [hnone, if_neg (by decide)] at hsize
    refine ⟨?_, by rw [hlen]; exact hb.len_le, by rw [htype]; exact hb.type_ne,
      fun _ => htype.trans hdata, ?_, fun h => ?_⟩
    · rw [flipBit_length, hlong, hnone', if_neg (by decide)]
      exact hsize
    · rw [crc1_flipBit hlong (.inl (by omega)), hheader]
      exact hb.crc1_eq
    · rw [hnone'] at h
      cases h

end Rejection

/-- A packet that `unpack` accepts, and that is DATA or has no length, is accepted with one
bit flipped only if this is the TR bit of DATA without a length.  The L bit is left out. -/
theorem single_bit_rejected (crc : Crc) (hcrc : crc.SingleBit) (b : List UInt8)
    (out out' : Packet) (hok : (unpack crc b b.length out).ret = .ok ())
    (hkind : Format.type b = .data ∨ Format.len b = 0) (i : ℕ) (k : Fin 8) (hi : i < b.length)
    (hL : ¬ (i = 1 ∧ k = 7)) :
    (unpack crc (flipBit b i k) (flipBit b i k).length out').ret = .ok () ↔
      i = 0 ∧ k = 5 ∧ Format.type b = .data ∧ Format.len b = 0 := by
  have hb : Format.Valid b crc := (unpack_ok_iff.mp hok).1
  have hsize := hb.size
  rw [unpack_ok_iff]
  by_cases hTR : i = 0 ∧ k = 5
  · obtain ⟨rfl, rfl⟩ := hTR
    rw [valid_flipBit_tr hb hkind]
    constructor
    · intro h
      exact ⟨rfl, rfl, h.1⟩
    · rintro ⟨-, -, hdata, hzero⟩
      refine ⟨⟨hdata, hzero⟩, fun _ hpos => ?_⟩
      rw [(fields_flipBit_tr hi).2.1, hzero] at hpos
      exact absurd hpos (Nat.lt_irrefl 0)
  · refine iff_of_false (fun h => ?_) fun h => hTR ⟨h.1, h.2.1⟩
    by_cases hheader : i < 7 + Format.long b
    · exact not_valid_of_header hcrc hb hheader hL hTR h.1
    by_cases hcrc1 : i < 11 + Format.long b
    · exact not_valid_of_crc1 hb (not_lt.mp hheader) hcrc1 hL h.1
    · exact not_valid_of_payload hcrc hb (not_lt.mp hcrc1) hi h.1

theorem bitwiseCrc_singleBit : bitwiseCrc.SingleBit :=
  ⟨fun _ _ k previous hi => crc32Bitwise_modify_ne (fun x => (flipByte_spec x k).1) hi previous,
    fun _ _ k previous hi => crc32Bitwise_modify_ne (fun x => (flipByte_spec x k).1) hi previous⟩

/-- The payload "a" arrives as "!". -/
theorem single_bit_rejected_dataA :
    (unpack bitwiseCrc (flipBit dataA 11 6) (flipBit dataA 11 6).length initPacket).ret ≠
      .ok () := by
  have htype : Format.type dataA = .data := by decide
  have hok : (unpack bitwiseCrc dataA dataA.length initPacket).ret = .ok () := by decide +kernel
  intro h
  have := (single_bit_rejected bitwiseCrc bitwiseCrc_singleBit dataA initPacket initPacket hok
    (.inl htype) 11 6 (by decide) (by decide)).mp h
  exact absurd this.1 (by decide)

end Trtp
