import Trtp.Packet.Basic
import Mathlib.Data.Fintype.Card
import Mathlib.Logic.Function.Basic

/-!
# The receive window

`buf_t` and its operations from `src/buffer.c`, and the lookup table of
`src/lookup.c`.  The 32 slots are indexed by the five low bits of a sequence
number.  The window spans 31 sequence numbers, so two of them never share a slot and
the slot just past the window belongs to none of them (`slot_seqAt_eq_iff`).
-/

namespace Trtp

def maxWindowSize : Nat := 31

def maxBufferSize : Nat := 32

/-- `node_t`.  The `value` pointer owns its packet: `hd_run_once` only ever swaps
it with the scratch packet, so the node holds the packet itself. -/
structure Node where
  value : Packet
  used : Bool

structure Buf where
  windowLow : UInt8
  length : UInt8
  nodes : Fin maxBufferSize → Node

/-- `hash`: the five low bits. -/
def hash (seqnum : UInt8) : UInt8 := seqnum &&& 0x1F

theorem hash_toNat (seqnum : UInt8) : (hash seqnum).toNat = seqnum.toNat % 32 := by
  rw [hash, UInt8.toNat_and]
  exact Nat.and_two_pow_sub_one_eq_mod seqnum.toNat 5

/-- The slot `&buffer->nodes[hash(seqnum)]`. -/
def slot (seqnum : UInt8) : Fin maxBufferSize :=
  ⟨(hash seqnum).toNat, by rw [hash_toNat]; exact Nat.mod_lt _ (by decide)⟩

def isUsed (buffer : Buf) (seqnum : UInt8) : Bool := (buffer.nodes (slot seqnum)).used

/-- `next`: reserve the slot of `seqnum` and return it. -/
def next (buffer : Buf) (seqnum : UInt8) : Buf × Fin maxBufferSize :=
  let k := slot seqnum
  ({ buffer with
      nodes := Function.update buffer.nodes k { buffer.nodes k with used := true }
      length := buffer.length + 1 }, k)

/-- `get`: release the slot of `seqnum`, if it is in use, and return its packet. -/
def get (buffer : Buf) (seqnum : UInt8) (inc : Bool) : Buf × Option Packet :=
  let k := slot seqnum
  if (buffer.nodes k).used then
    let buffer' := { buffer with
      nodes := Function.update buffer.nodes k { buffer.nodes k with used := false } }
    let buffer' := if inc then
        { buffer' with length := buffer'.length - 1, windowLow := seqnum + 1 }
      else buffer'
    (buffer', some (buffer.nodes k).value)
  else (buffer, none)

/-- `initialize_buffer` with `allocate_packet`, all allocations succeeding. -/
def initializeBuffer : Buf :=
  { windowLow := 0, length := 0, nodes := fun _ => { value := initPacket, used := false } }

/-- The table `sequences[256][256]`.  It is a generated literal of 256 rows; row
`low` holds a one for `low`, `low + 1`, ..., `low + 30` modulo 256 and a zero
everywhere else. -/
def sequences (low seqnum : UInt8) : Bool := (seqnum - low).toNat < maxWindowSize

/-! ## Offsets

Position `j` of a window is the sequence number `low + j`. -/

def seqAt (low : UInt8) (j : Nat) : UInt8 := low + UInt8.ofNat j

theorem seqAt_toNat (low : UInt8) (j : Nat) : (seqAt low j).toNat = (low.toNat + j) % 256 := by
  rw [seqAt, UInt8.toNat_add, UInt8.toNat_ofNat']
  omega

@[simp] theorem seqAt_zero (low : UInt8) : seqAt low 0 = low := by
  apply UInt8.toNat_inj.mp
  have := low.toNat_lt
  rw [seqAt_toNat]
  omega

theorem seqAt_seqAt (low : UInt8) (i j : Nat) : seqAt (seqAt low i) j = seqAt low (i + j) := by
  apply UInt8.toNat_inj.mp
  simp only [seqAt_toNat]
  omega

theorem sub_toNat (a b : UInt8) : (a - b).toNat = (256 - b.toNat + a.toNat) % 256 := by
  rw [UInt8.toNat_sub]

theorem sequences_seqAt {low : UInt8} {j : Nat} (h : j < 256) :
    sequences low (seqAt low j) = decide (j < maxWindowSize) := by
  have hl := low.toNat_lt
  have : (seqAt low j - low).toNat = j := by
    rw [sub_toNat, seqAt_toNat]
    omega
  rw [sequences, this]

theorem exists_offset {low s : UInt8} (h : sequences low s = true) :
    ∃ j, j < maxWindowSize ∧ s = seqAt low j := by
  refine ⟨(s - low).toNat, by simpa [sequences] using h, ?_⟩
  apply UInt8.toNat_inj.mp
  have hl := low.toNat_lt
  have hs := s.toNat_lt
  rw [seqAt_toNat, sub_toNat]
  omega

theorem slot_seqAt_eq_iff {low : UInt8} {i j : Nat} (hi : i < 32) (hj : j < 32) :
    slot (seqAt low i) = slot (seqAt low j) ↔ i = j := by
  rw [slot, slot, Fin.mk.injEq, hash_toNat, hash_toNat, seqAt_toNat, seqAt_toNat]
  omega

theorem exists_slot (low : UInt8) (k : Fin maxBufferSize) :
    ∃ j, j < 32 ∧ slot (seqAt low j) = k := by
  have hk : k.val < 32 := k.isLt
  refine ⟨(256 + k.val - low.toNat % 32) % 32, Nat.mod_lt _ (by decide), ?_⟩
  apply Fin.ext
  show (hash _).toNat = k.val
  rw [hash_toNat, seqAt_toNat]
  omega

end Trtp
