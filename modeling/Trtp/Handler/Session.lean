import Trtp.Handler.Client
import Trtp.Lib.Gapless
import Trtp.Packet.Unpack
import Mathlib.Data.Fintype.BigOperators

/-!
# Sessions

What a client is for: a buffer of packets by position, released in order into a
file.  A `Session` is the part of a client that its later behaviour depends on.
It has no scratch packet, no stale payload bytes and no uninitialised locals, and
a request acts on it through the packets accepted from it alone.

`Trtp.Handler.Refine` shows that the handler acts on sessions by `Session.step`.
-/

namespace Trtp

open Lib

def Content.isEnd (c : Content) : Bool := c.length = 0

@[ext] structure Session where
  file : File
  low : UInt8
  length : UInt8
  slots : Fin maxBufferSize → Option Content
  active : Bool
  transferred : UInt64
  lastTimestamp : UInt32

namespace Session

variable (s : Session)

def pending (j : Nat) : Option Content := s.slots (slot (seqAt s.low j))

def accept (c : Content) : Session :=
  if s.active ∧ sequences s.low c.seqnum ∧ s.slots (slot c.seqnum) = none then
    { s with slots := Function.update s.slots (slot c.seqnum) (some c), length := s.length + 1 }
  else s

def ready : List Content := gapless s.pending Content.isEnd maxWindowSize 0

/-- Empty the first `n` positions of the window. -/
def clear (n : Nat) : Fin maxBufferSize → Option Content :=
  fun k => if ∃ j < n, slot (seqAt s.low j) = k then none else s.slots k

/-- Deliver `l`, the packets at the front of the window, after a write that
succeeded. -/
def commit (l : List Content) : Session :=
  let file := s.file.write (l.flatMap Content.data)
  let ends := l.any Content.isEnd && s.active
  { file := if ends then file.fclose else file
    low := s.low + UInt8.ofNat l.length
    length := s.length - UInt8.ofNat l.length
    slots := s.clear l.length
    active := s.active && !ends
    transferred := s.transferred + UInt64.ofNat (l.flatMap Content.data).length
    lastTimestamp := (l.getLast?.map Content.timestamp).getD s.lastTimestamp }

/-- The delivery of `l` when only `result` bytes could be written. -/
def lose (l : List Content) (result : Nat) : Session :=
  { s with
    file := (s.file.write ((l.flatMap Content.data).take result)).fseekSet result
    slots := s.clear l.length }

/-- Whether a write of the data of `l` is complete. -/
def writes (accepted : Nat) (l : List Content) : Prop :=
  (l.flatMap Content.data).length ≤ accepted

instance (accepted : Nat) (l : List Content) : Decidable (writes accepted l) :=
  inferInstanceAs (Decidable (_ ≤ _))

def deliver (accepted : Nat) : Session :=
  if s.ready = [] then s
  else if writes accepted s.ready then s.commit s.ready
  else s.lose s.ready accepted

def flush : Session := if s.ready = [] then s else s.commit s.ready

/-- One request: buffer the accepted packets, then deliver. -/
def step (accepted : Nat) (cs : List Content) : Session := (cs.foldl accept s).deliver accepted

/-! ## Buffering -/

variable {s}

@[simp] theorem accept_low (c : Content) : (s.accept c).low = s.low := by
  unfold accept
  split <;> rfl

@[simp] theorem accept_file (c : Content) : (s.accept c).file = s.file := by
  unfold accept
  split <;> rfl

@[simp] theorem accept_active (c : Content) : (s.accept c).active = s.active := by
  unfold accept
  split <;> rfl

@[simp] theorem accept_transferred (c : Content) : (s.accept c).transferred = s.transferred := by
  unfold accept
  split <;> rfl

@[simp] theorem accept_lastTimestamp (c : Content) :
    (s.accept c).lastTimestamp = s.lastTimestamp := by
  unfold accept
  split <;> rfl

theorem accept_of_inactive (h : s.active = false) (c : Content) : s.accept c = s := by
  simp [accept, h]

theorem pending_accept (ha : s.active = true) (c : Content) {j : Nat} (hj : j < 32) :
    (s.accept c).pending j =
      (s.pending j).or (if j < maxWindowSize ∧ c.seqnum = seqAt s.low j then some c else none) := by
  have hlow : (s.accept c).low = s.low := accept_low c
  rw [pending, hlow, pending]
  by_cases hseq : sequences s.low c.seqnum = true
  · obtain ⟨i, hi, hci⟩ := exists_offset hseq
    have hi32 : i < 32 := Nat.lt_succ_of_lt hi
    have hslot : slot (seqAt s.low j) = slot c.seqnum ↔ j = i := by
      rw [hci]
      exact slot_seqAt_eq_iff hj hi32
    have hcseq : c.seqnum = seqAt s.low j ↔ j = i := by
      constructor
      · intro h
        exact hslot.mp (by rw [h])
      · rintro rfl
        exact hci
    by_cases hji : j = i
    · subst hji
      have hsl := hslot.mpr rfl
      by_cases hfree : s.slots (slot c.seqnum) = none
      · simp [accept, ha, hseq, hfree, hi, ← hci]
      · obtain ⟨a, hfull⟩ := Option.ne_none_iff_exists'.mp hfree
        simp [accept, ha, hseq, hsl, hfull]
    · have hne : slot (seqAt s.low j) ≠ slot c.seqnum := fun h => hji (hslot.mp h)
      have hc : ¬ (j < maxWindowSize ∧ c.seqnum = seqAt s.low j) := fun h => hji (hcseq.mp h.2)
      rw [if_neg hc, Option.or_none]
      unfold accept
      split
      · exact Function.update_of_ne hne _ _
      · rfl
  · have hc : ¬ (j < maxWindowSize ∧ c.seqnum = seqAt s.low j) := by
      rintro ⟨hjw, hcj⟩
      apply hseq
      rw [hcj, sequences_seqAt (by omega)]
      simpa using hjw
    rw [if_neg hc, Option.or_none, accept, if_neg (fun h => hseq h.2.1)]

theorem foldl_accept (cs : List Content) :
    (cs.foldl accept s).low = s.low ∧ (cs.foldl accept s).file = s.file ∧
      (cs.foldl accept s).active = s.active ∧ (cs.foldl accept s).transferred = s.transferred ∧
      (cs.foldl accept s).lastTimestamp = s.lastTimestamp := by
  induction cs generalizing s with
  | nil => exact ⟨rfl, rfl, rfl, rfl, rfl⟩
  | cons c cs ih => simpa using ih (s := s.accept c)

theorem foldl_accept_of_inactive (h : s.active = false) (cs : List Content) :
    cs.foldl accept s = s := by
  induction cs with
  | nil => rfl
  | cons c cs ih => rw [List.foldl_cons, accept_of_inactive h, ih]

/-- The first packet of a list for position `j` of the window that starts at
`low`. -/
def arrival (low : UInt8) (cs : List Content) (j : Nat) : Option Content :=
  if j < maxWindowSize then cs.find? fun c => c.seqnum = seqAt low j else none

theorem pending_foldl_accept (ha : s.active = true) (cs : List Content) {j : Nat} (hj : j < 32) :
    (cs.foldl accept s).pending j = (s.pending j).or (arrival s.low cs j) := by
  induction cs generalizing s with
  | nil => simp [arrival]
  | cons c cs ih =>
    rw [List.foldl_cons, ih (by simpa using ha), pending_accept ha c hj, accept_low,
      Option.or_assoc]
    congr 1
    unfold arrival
    by_cases hw : j < maxWindowSize
    · by_cases hc : c.seqnum = seqAt s.low j
      · simp [hw, hc]
      · simp [hw, hc]
    · simp [hw]

/-! ## Delivering -/

theorem ready_length_le : s.ready.length ≤ maxWindowSize := gapless_length_le _ _

theorem ready_eq_nil_iff : s.ready = [] ↔ s.pending 0 = none :=
  gapless_eq_nil_iff (by decide)

theorem flush_of_ready (h : s.ready ≠ []) : s.flush = s.commit s.ready := if_neg h

theorem ready_getElem? {j : Nat} (hj : j < s.ready.length) : s.ready[j]? = s.pending j := by
  have := gapless_getElem? hj
  rwa [Nat.zero_add] at this

theorem commit_low (l : List Content) : (s.commit l).low = seqAt s.low l.length := rfl

theorem commit_bytes (l : List Content) :
    (s.commit l).file.bytes = (s.file.write (l.flatMap Content.data)).bytes := by
  show (if _ then _ else _ : File).bytes = _
  split <;> rfl

theorem commit_pos (l : List Content) :
    (s.commit l).file.pos = (s.file.write (l.flatMap Content.data)).pos := by
  show (if _ then _ else _ : File).pos = _
  split <;> rfl

theorem commit_opened (ho : s.file.closed = false) {l : List Content}
    (ha : (s.commit l).active = true) : (s.commit l).file.closed = false := by
  have hends : (l.any Content.isEnd && s.active) = false := by
    have hact : (s.active && !(l.any Content.isEnd && s.active)) = true := ha
    exact (Bool.not_eq_true' _).mp (Bool.and_eq_true_iff.mp hact).2
  show (if (l.any Content.isEnd && s.active) = true then (s.file.write _).fclose
    else s.file.write _).closed = false
  rw [hends, if_neg Bool.false_ne_true, File.write_closed, ho]

theorem commit_late (ho : s.file.closed = false) (l : List Content) :
    (s.commit l).file.late = s.file.late := by
  show (if _ then (s.file.write _).fclose else s.file.write _ : File).late = _
  rw [File.write_of_open ho]
  split_ifs <;> rfl

theorem lose_late (ho : s.file.closed = false) (l : List Content) (result : Nat) :
    (s.lose l result).file.late = s.file.late := by
  show ((s.file.write _).fseekSet result).late = _
  rw [File.write_of_open ho, File.fseekSet]
  split_ifs <;> rfl

theorem slot_add_32 (low : UInt8) (j : Nat) : slot (seqAt low (j + 32)) = slot (seqAt low j) := by
  apply Fin.ext
  show (hash _).toNat = (hash _).toNat
  rw [hash_toNat, hash_toNat, seqAt_toNat, seqAt_toNat]
  omega

theorem clear_slot {n j : Nat} (hn : n ≤ 32) (hj : j < 32) :
    s.clear n (slot (seqAt s.low j)) = if j < n then none else s.pending j := by
  unfold clear pending
  by_cases h : j < n
  · rw [if_pos ⟨j, h, rfl⟩, if_pos h]
  · rw [if_neg, if_neg h]
    rintro ⟨i, hi, he⟩
    rw [slot_seqAt_eq_iff (Nat.lt_of_lt_of_le hi hn) hj] at he
    omega

/-- After a delivery of `n` packets the window shows what was behind them, and
the positions that come in at its end are free. -/
theorem pending_commit (l : List Content) (hl : l.length ≤ 32) {j : Nat} (hj : j < 32) :
    (s.commit l).pending j = if l.length + j < 32 then s.pending (l.length + j) else none := by
  show s.clear l.length (slot (seqAt (seqAt s.low l.length) j)) = _
  rw [seqAt_seqAt]
  by_cases h : l.length + j < 32
  · rw [clear_slot hl h, if_pos h, if_neg (by omega)]
  · have he : l.length + j = l.length + j - 32 + 32 := by omega
    rw [he, slot_add_32, clear_slot hl (by omega), if_pos (by omega), if_neg (by omega)]

theorem pending_lose (l : List Content) (hl : l.length ≤ 32) (result : Nat) {j : Nat}
    (hj : j < 32) : (s.lose l result).pending j = if j < l.length then none else s.pending j :=
  clear_slot hl hj

/-! ## The number of packets -/

def count (s : Session) : Nat := (Finset.univ.filter fun k => (s.slots k).isSome).card

theorem count_accept (c : Content) :
    (s.accept c).length - UInt8.ofNat (s.accept c).count = s.length - UInt8.ofNat s.count := by
  unfold accept
  split
  · rename_i h
    obtain ⟨-, -, hfree⟩ := h
    have hcard : count { s with
        slots := Function.update s.slots (slot c.seqnum) (some c), length := s.length + 1 } =
        s.count + 1 := by
      unfold count
      rw [← Finset.card_insert_of_notMem (a := slot c.seqnum) (by simp [hfree])]
      congr 1
      ext k
      by_cases hk : k = slot c.seqnum
      · subst hk
        simp
      · simp [hk]
    rw [hcard]
    apply UInt8.toNat_inj.mp
    simp only [UInt8.toNat_sub, UInt8.toNat_add, UInt8.toNat_ofNat', UInt8.reduceToNat]
    omega
  · rfl

theorem count_foldl_accept (cs : List Content) :
    (cs.foldl accept s).length - UInt8.ofNat (cs.foldl accept s).count =
      s.length - UInt8.ofNat s.count := by
  induction cs generalizing s with
  | nil => rfl
  | cons c cs ih => rw [List.foldl_cons, ih, count_accept]

theorem count_clear {t : Session} {n : Nat} (hn : n ≤ 32) (hused : ∀ j < n, (s.pending j).isSome)
    (ht : t.slots = s.clear n) : t.count + n = s.count := by
  let gone : Finset (Fin maxBufferSize) := (Finset.range n).image fun j => slot (seqAt s.low j)
  have hcard : gone.card = n := by
    rw [Finset.card_image_of_injOn, Finset.card_range]
    intro i hi j hj he
    rw [Finset.coe_range, Set.mem_Iio] at hi hj
    exact (slot_seqAt_eq_iff (by omega) (by omega)).mp he
  have hsub : gone ⊆ Finset.univ.filter fun k => (s.slots k).isSome := by
    intro k hk
    obtain ⟨j, hj, rfl⟩ := Finset.mem_image.mp hk
    exact Finset.mem_filter.mpr ⟨Finset.mem_univ _, hused j (Finset.mem_range.mp hj)⟩
  have hrest : (Finset.univ.filter fun k => (t.slots k).isSome) =
      (Finset.univ.filter fun k => (s.slots k).isSome) \ gone := by
    ext k
    simp only [gone, ht, clear, Finset.mem_filter, Finset.mem_univ, true_and, Finset.mem_sdiff,
      Finset.mem_image, Finset.mem_range]
    by_cases h : ∃ j < n, slot (seqAt s.low j) = k
    · simp [h]
    · simp [h]
  unfold count
  rw [hrest, Finset.card_sdiff_of_subset hsub, hcard]
  have := Finset.card_le_card hsub
  omega

theorem ready_isSome {j : Nat} (hj : j < s.ready.length) : (s.pending j).isSome := by
  rw [← ready_getElem? hj, List.getElem?_eq_getElem hj]
  rfl

theorem count_commit : (s.commit s.ready).count + s.ready.length = s.count :=
  count_clear (Nat.le_succ_of_le ready_length_le) (fun _ => ready_isSome) rfl

theorem length_commit :
    (s.commit s.ready).length - UInt8.ofNat (s.commit s.ready).count =
      s.length - UInt8.ofNat s.count := by
  have hlen : (s.commit s.ready).length = s.length - UInt8.ofNat s.ready.length := rfl
  rw [hlen, ← count_commit (s := s)]
  apply UInt8.toNat_inj.mp
  simp only [UInt8.toNat_sub, UInt8.toNat_ofNat']
  omega

end Session

end Trtp
