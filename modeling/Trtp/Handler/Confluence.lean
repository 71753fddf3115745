import Trtp.Handler.Window

/-!
# Order and grouping

The packets of one window may come in any order, more than once, and cut into
requests in any way.  One grouping buffers a packet where another has already
delivered it, and rejects a duplicate as out of the window where another finds its
slot in use.

The argument has two parts.  Delivering early changes nothing in the end
(`flush_foldl_flush`): a run of requests is the same as buffering all their packets
and delivering once.  Buffering a set of packets does not depend on how the set is
listed (`foldl_accept_congr`).
-/

namespace Trtp

open Lib

namespace Session

variable {s : Session} {l : List Content} {c : Content}

/-! ## Buffering after a delivery -/

theorem accept_slots_mono {k : Fin maxBufferSize} {a : Content} (h : s.slots k = some a)
    (c : Content) : (s.accept c).slots k = some a := by
  unfold accept
  split
  · rename_i hc
    have hne : k ≠ slot c.seqnum := by
      rintro rfl
      rw [h] at hc
      exact absurd hc.2.2 (by simp)
    exact (Function.update_of_ne hne _ _).trans h
  · exact h

theorem foldl_accept_slots_mono {k : Fin maxBufferSize} {a : Content} (h : s.slots k = some a)
    (cs : List Content) : (cs.foldl accept s).slots k = some a := by
  induction cs generalizing s with
  | nil => exact h
  | cons c cs ih => exact ih (accept_slots_mono h c)

theorem accept_of_pending {j : Nat} (hc : c.seqnum = seqAt s.low j) (hj : (s.pending j).isSome) :
    s.accept c = s := by
  rw [accept, if_neg]
  rintro ⟨-, -, hn⟩
  rw [hc] at hn
  rw [pending, hn] at hj
  cases hj

theorem accept_of_free {j : Nat} (ha : s.active = true) (hjw : j < maxWindowSize)
    (hc : c.seqnum = seqAt s.low j) (hn : s.pending j = none) :
    s.accept c =
      { s with
        slots := Function.update s.slots (slot c.seqnum) (some c), length := s.length + 1 } := by
  have hw : maxWindowSize = 31 := rfl
  rw [accept, if_pos]
  refine ⟨ha, ?_, by rw [hc]; exact hn⟩
  rw [hc, sequences_seqAt (by omega)]
  exact decide_eq_true hjw

theorem commit_active_of_open (hopen : l.any Content.isEnd = false) :
    (s.commit l).active = s.active := by
  show (s.active && !(l.any Content.isEnd && s.active)) = s.active
  rw [hopen]
  simp

theorem seqAt_commit {j : Nat} (hjl : l.length ≤ j) :
    seqAt (s.commit l).low (j - l.length) = seqAt s.low j := by
  rw [commit_low, seqAt_seqAt, Nat.add_sub_cancel' hjl]

theorem pending_commit_sub {j : Nat} (hjl : l.length ≤ j) (hj : j < 32) :
    (s.commit l).pending (j - l.length) = s.pending j := by
  rw [pending_commit l (by omega) (by omega), if_pos (by omega), Nat.add_sub_cancel' hjl]

theorem clear_update {n j : Nat} (hn : n ≤ j) (hj : j < 32) (c : Content) :
    Function.update (s.clear n) (slot (seqAt s.low j)) (some c) =
      Session.clear { s with slots := Function.update s.slots (slot (seqAt s.low j)) (some c) }
        n := by
  funext k
  show _ = (if ∃ i < n, slot (seqAt s.low i) = k then none
    else Function.update s.slots (slot (seqAt s.low j)) (some c) k)
  by_cases hk : k = slot (seqAt s.low j)
  · rw [hk, Function.update_self, Function.update_self, if_neg]
    intro hex
    obtain ⟨i, hi, he⟩ := hex
    rw [slot_seqAt_eq_iff (by omega) hj] at he
    omega
  · rw [Function.update_of_ne hk, Function.update_of_ne hk]
    rfl

theorem accept_commit {j : Nat} (ha : s.active = true) (hopen : l.any Content.isEnd = false)
    (hl : l.length ≤ maxWindowSize) (hused : ∀ i < l.length, (s.pending i).isSome)
    (hj : j < maxWindowSize) (hc : c.seqnum = seqAt s.low j) :
    (s.commit l).accept c = (s.accept c).commit l := by
  have hw : maxWindowSize = 31 := rfl
  have hact : (s.commit l).active = true := (commit_active_of_open hopen).trans ha
  have hlow : (s.commit l).low = seqAt s.low l.length := commit_low l
  cases hp : s.pending j with
  | some a =>
    rw [accept_of_pending hc (by rw [hp]; rfl)]
    by_cases hjl : j < l.length
    · -- Below the window that has moved.
      rw [accept, if_neg]
      rintro ⟨-, hseq, -⟩
      rw [sequences, decide_eq_true_iff, sub_toNat, hc, hlow, seqAt_toNat, seqAt_toNat] at hseq
      omega
    · have hle : l.length ≤ j := Nat.le_of_not_lt hjl
      refine accept_of_pending (j := j - l.length) ?_ ?_
      · rw [seqAt_commit hle, hc]
      · rw [pending_commit_sub hle (by omega), hp]
        rfl
  | none =>
    have hle : l.length ≤ j := by
      by_contra hlt
      have := hused j (by omega)
      rw [hp] at this
      cases this
    have hc' : c.seqnum = seqAt (s.commit l).low (j - l.length) := by rw [seqAt_commit hle, hc]
    have hfree : (s.commit l).pending (j - l.length) = none := by
      rw [pending_commit_sub hle (by omega), hp]
    rw [accept_of_free hact (by omega) hc' hfree, accept_of_free ha hj hc hp]
    apply Session.ext
    case slots =>
      rw [hc]
      exact clear_update hle (by omega) c
    case length =>
      show s.length - UInt8.ofNat l.length + 1 = s.length + 1 - UInt8.ofNat l.length
      apply UInt8.toNat_inj.mp
      simp only [UInt8.toNat_sub, UInt8.toNat_add, UInt8.toNat_ofNat', UInt8.reduceToNat]
      omega
    all_goals rfl

theorem foldl_accept_commit (ha : s.active = true) (hopen : l.any Content.isEnd = false)
    (hl : l.length ≤ maxWindowSize) (hused : ∀ i < l.length, (s.pending i).isSome)
    {cs : List Content} (hcs : ∀ c ∈ cs, ∃ j < maxWindowSize, c.seqnum = seqAt s.low j) :
    cs.foldl accept (s.commit l) = (cs.foldl accept s).commit l := by
  induction cs generalizing s with
  | nil => rfl
  | cons c cs ih =>
    obtain ⟨j, hj, hc⟩ := hcs c List.mem_cons_self
    rw [List.foldl_cons, List.foldl_cons, accept_commit ha hopen hl hused hj hc]
    apply ih
    · rw [accept_active, ha]
    · intro i hi
      obtain ⟨a, hai⟩ := Option.isSome_iff_exists.mp (hused i hi)
      have : (s.accept c).pending i = some a := by
        rw [pending, accept_low]
        exact accept_slots_mono hai c
      rw [this]
      rfl
    · intro a hmem
      rw [accept_low]
      exact hcs a (List.mem_cons_of_mem c hmem)

/-! ## Delivering twice -/

theorem clear_clear (l l' : List Content) :
    (s.commit l).clear l'.length = s.clear (l.length + l'.length) := by
  funext k
  show (if ∃ j < l'.length, slot (seqAt (seqAt s.low l.length) j) = k then none
    else if ∃ j < l.length, slot (seqAt s.low j) = k then none else s.slots k) =
    if ∃ j < l.length + l'.length, slot (seqAt s.low j) = k then none else s.slots k
  have hiff : (∃ j < l.length + l'.length, slot (seqAt s.low j) = k) ↔
      (∃ j < l'.length, slot (seqAt (seqAt s.low l.length) j) = k) ∨
        ∃ j < l.length, slot (seqAt s.low j) = k := by
    constructor
    · rintro ⟨j, hj, rfl⟩
      by_cases hjl : j < l.length
      · exact .inr ⟨j, hjl, rfl⟩
      · refine .inl ⟨j - l.length, by omega, ?_⟩
        rw [seqAt_seqAt, show l.length + (j - l.length) = j by omega]
    · rintro (⟨j, hj, rfl⟩ | ⟨j, hj, rfl⟩)
      · exact ⟨l.length + j, by omega, by rw [seqAt_seqAt]⟩
      · exact ⟨j, by omega, rfl⟩
  by_cases h1 : ∃ j < l'.length, slot (seqAt (seqAt s.low l.length) j) = k
  · rw [if_pos h1, if_pos (hiff.mpr (.inl h1))]
  · by_cases h2 : ∃ j < l.length, slot (seqAt s.low j) = k
    · rw [if_neg h1, if_pos h2, if_pos (hiff.mpr (.inr h2))]
    · rw [if_neg h1, if_neg h2, if_neg fun h => (hiff.mp h).elim h1 h2]

theorem commit_commit (hopen : l.any Content.isEnd = false) (l' : List Content) :
    (s.commit l).commit l' = s.commit (l ++ l') := by
  have hends : (l ++ l').any Content.isEnd = l'.any Content.isEnd := by
    rw [List.any_append, hopen, Bool.false_or]
  have hact : (s.commit l).active = s.active := commit_active_of_open hopen
  have hfile : (s.commit l).file = s.file.write (l.flatMap Content.data) := by
    show (if (l.any Content.isEnd && s.active) = true then _ else _) = _
    rw [hopen]
    rfl
  apply Session.ext
  case file =>
    show (if (l'.any Content.isEnd && (s.commit l).active) = true then
        ((s.commit l).file.write (l'.flatMap Content.data)).fclose
      else (s.commit l).file.write (l'.flatMap Content.data)) =
      if ((l ++ l').any Content.isEnd && s.active) = true then
        (s.file.write ((l ++ l').flatMap Content.data)).fclose
      else s.file.write ((l ++ l').flatMap Content.data)
    rw [hact, hfile, File.write_write, ← List.flatMap_append, hends]
  case low =>
    show s.low + UInt8.ofNat l.length + UInt8.ofNat l'.length = s.low + UInt8.ofNat (l ++ l').length
    rw [List.length_append, UInt8.ofNat_add, UInt8.add_assoc]
  case length =>
    show s.length - UInt8.ofNat l.length - UInt8.ofNat l'.length =
      s.length - UInt8.ofNat (l ++ l').length
    rw [List.length_append]
    apply UInt8.toNat_inj.mp
    simp only [UInt8.toNat_sub, UInt8.toNat_ofNat']
    omega
  case slots =>
    show (s.commit l).clear l'.length = s.clear (l ++ l').length
    rw [List.length_append, clear_clear]
  case active =>
    show ((s.commit l).active && !(l'.any Content.isEnd && (s.commit l).active)) =
      (s.active && !((l ++ l').any Content.isEnd && s.active))
    rw [hact, hends]
  case transferred =>
    show s.transferred + UInt64.ofNat (l.flatMap Content.data).length +
        UInt64.ofNat (l'.flatMap Content.data).length =
      s.transferred + UInt64.ofNat ((l ++ l').flatMap Content.data).length
    rw [List.flatMap_append, List.length_append, UInt64.ofNat_add, UInt64.add_assoc]
  case lastTimestamp =>
    show (l'.getLast?.map Content.timestamp).getD
        ((l.getLast?.map Content.timestamp).getD s.lastTimestamp) =
      ((l ++ l').getLast?.map Content.timestamp).getD s.lastTimestamp
    rw [List.getLast?_append]
    cases l'.getLast? <;> rfl

theorem ready_commit (hw : s.Windowed) (hl : l.length ≤ maxWindowSize) :
    (s.commit l).ready =
      gapless s.pending Content.isEnd (maxWindowSize - l.length) (0 + l.length) := by
  have hwin : maxWindowSize = 31 := rfl
  have hend : (s.commit l).pending (0 + (maxWindowSize - l.length)) = none := by
    rw [pending_commit l (by omega) (by omega), if_pos (by omega),
      show l.length + (0 + (maxWindowSize - l.length)) = maxWindowSize by omega]
    exact hw.past_end
  rw [ready, gapless_bound (Nat.sub_le _ _) hend, ← gapless_shift]
  refine gapless_congr fun j _ hj => ?_
  rw [pending_commit l (by omega) (by omega), if_pos (by omega), Nat.add_comm]

/-- Buffering more packets extends an open run. -/
theorem ready_foldl_accept (hw : s.Windowed) (hopen : s.ready.any Content.isEnd = false)
    {cs : List Content} (hv : ∀ c ∈ cs, c.Valid) :
    (cs.foldl accept s).ready = s.ready ++ ((cs.foldl accept s).commit s.ready).ready := by
  have hmono : ∀ j a, s.pending j = some a → (cs.foldl accept s).pending j = some a := by
    intro j a h
    rw [pending, (foldl_accept cs).1]
    exact foldl_accept_slots_mono h cs
  rw [ready_commit (hw.foldl_accept hv) ready_length_le]
  exact gapless_extend hmono hopen

theorem flush_of_idle (h : s.pending 0 = none) : s.flush = s := if_pos (ready_eq_nil_iff.mpr h)

/-- What can be at position `j`: the packet there, or one of `P` for it. -/
def Present (s : Session) (P : Set Content) (j : Nat) (a : Content) : Prop :=
  s.pending j = some a ∨ (a ∈ P ∧ j < maxWindowSize ∧ a.seqnum = seqAt s.low j)

/-- Nothing lies behind a packet that ends the transfer. -/
def NoneAfterEnd (s : Session) (P : Set Content) : Prop :=
  ∀ i < 32, ∀ j < 32, ∀ a b, s.Present P i a → s.Present P j b → a.isEnd = true → j ≤ i

theorem Present.of_foldl_accept {P : Set Content} {cs : List Content} (hcs : ∀ c ∈ cs, c ∈ P)
    (ha : s.active = true) {j : Nat} (hj : j < 32) {a : Content}
    (h : (cs.foldl accept s).Present P j a) : s.Present P j a := by
  rcases h with h | ⟨hP, hjw, hseq⟩
  · rw [pending_foldl_accept ha cs hj, Option.or_eq_some_iff] at h
    rcases h with h | ⟨-, h⟩
    · exact .inl h
    · unfold arrival at h
      split at h
      · rename_i hjw
        exact .inr ⟨hcs a (List.mem_of_find?_eq_some h), hjw, by simpa using List.find?_some h⟩
      · cases h
  · rw [(foldl_accept cs).1] at hseq
    exact .inr ⟨hP, hjw, hseq⟩

/-- Delivering before more packets are buffered makes no difference in the end. -/
theorem flush_foldl_flush {P : Set Content} (hw : s.Windowed) (ha : s.active = true)
    (hP : s.NoneAfterEnd P) {cs : List Content} (hv : ∀ c ∈ cs, c.Valid)
    (hcs : ∀ c ∈ cs, c ∈ P ∧ ∃ j < maxWindowSize, c.seqnum = seqAt s.low j) :
    (cs.foldl accept s.flush).flush = (cs.foldl accept s).flush := by
  have hwin : maxWindowSize = 31 := rfl
  have hl : s.ready.length ≤ maxWindowSize := ready_length_le
  by_cases hnil : s.ready = []
  · rw [flush_of_idle (ready_eq_nil_iff.mp hnil)]
  have hpos := List.length_pos_iff.mpr hnil
  cases hend : s.ready.any Content.isEnd with
  | true =>
    -- The transfer is over: what `cs` holds is below the end and was there.
    obtain ⟨a, ham, hae⟩ := List.any_eq_true.mp hend
    obtain ⟨i, hi⟩ := List.getElem?_of_mem ham
    have hil : i + 1 = s.ready.length := gapless_stop_last hi hae
    rw [ready_getElem? (by omega)] at hi
    have hdup : cs.foldl accept s = s := by
      refine List.foldlRecOn cs accept (motive := fun t => t = s) rfl ?_
      rintro t rfl c hc
      obtain ⟨hcP, j, hj, hseq⟩ := hcs c hc
      have := hP i (by omega) j (by omega) a c (.inl hi) (.inr ⟨hcP, hj, hseq⟩) hae
      exact accept_of_pending hseq (ready_isSome (by omega))
    have hbehind : s.pending s.ready.length = none := by
      by_contra hn
      obtain ⟨b, hb⟩ := Option.ne_none_iff_exists'.mp hn
      have := hP i (by omega) s.ready.length (by omega) a b (.inl hi) (.inl hb) hae
      omega
    have hinact : (s.commit s.ready).active = false := by
      show (s.active && !(s.ready.any Content.isEnd && s.active)) = false
      rw [hend, ha]
      rfl
    rw [hdup, flush_of_ready hnil, foldl_accept_of_inactive hinact]
    apply flush_of_idle
    rw [pending_commit _ (by omega) (by omega), if_pos (by omega), Nat.add_zero, hbehind]
  | false =>
    have hext := ready_foldl_accept hw hend hv
    rw [flush_of_ready hnil, foldl_accept_commit ha hend hl (fun _ => ready_isSome)
      fun c hc => (hcs c hc).2]
    have hne : (cs.foldl accept s).ready ≠ [] := by
      rw [hext]
      simp [hnil]
    rw [flush_of_ready hne]
    by_cases hrest : ((cs.foldl accept s).commit s.ready).ready = []
    · rw [flush, if_pos hrest, hext, hrest, List.append_nil]
    · rw [flush_of_ready hrest, commit_commit hend, ← hext]

/-! ## Listing a set of packets -/

theorem arrival_eq_some_iff {low : UInt8} {cs : List Content} {j : Nat} {a : Content}
    (hsame : ∀ p ∈ cs, ∀ q ∈ cs, p.seqnum = q.seqnum → p = q) :
    arrival low cs j = some a ↔ j < maxWindowSize ∧ a ∈ cs ∧ a.seqnum = seqAt low j := by
  unfold arrival
  by_cases hj : j < maxWindowSize
  · rw [if_pos hj]
    constructor
    · intro h
      exact ⟨hj, List.mem_of_find?_eq_some h, by simpa using List.find?_some h⟩
    · rintro ⟨-, hm, hseq⟩
      cases hf : cs.find? fun c => c.seqnum = seqAt low j with
      | none =>
        have := List.find?_eq_none.mp hf a hm
        simp [hseq] at this
      | some b =>
        have hb : b.seqnum = seqAt low j := by simpa using List.find?_some hf
        rw [hsame b (List.mem_of_find?_eq_some hf) a hm (hb.trans hseq.symm)]
  · simp [hj]

theorem foldl_accept_congr {cs cs' : List Content} (ha : s.active = true)
    (hmem : ∀ c, c ∈ cs ↔ c ∈ cs')
    (hsame : ∀ p ∈ cs, ∀ q ∈ cs, p.seqnum = q.seqnum → p = q) :
    cs.foldl accept s = cs'.foldl accept s := by
  have hsame' : ∀ p ∈ cs', ∀ q ∈ cs', p.seqnum = q.seqnum → p = q := fun p hp q hq =>
    hsame p ((hmem p).mpr hp) q ((hmem q).mpr hq)
  obtain ⟨hlow, hfile, hact, htrans, hlast⟩ := foldl_accept (s := s) cs
  obtain ⟨hlow', hfile', hact', htrans', hlast'⟩ := foldl_accept (s := s) cs'
  have hslots : (cs.foldl accept s).slots = (cs'.foldl accept s).slots := by
    funext k
    obtain ⟨j, hj, rfl⟩ := exists_slot s.low k
    have h1 := pending_foldl_accept ha cs hj
    have h2 := pending_foldl_accept ha cs' hj
    rw [pending, hlow] at h1
    rw [pending, hlow'] at h2
    rw [h1, h2]
    congr 1
    apply Option.ext
    intro a
    rw [arrival_eq_some_iff hsame, arrival_eq_some_iff hsame', hmem]
  have hcount : (cs.foldl accept s).count = (cs'.foldl accept s).count := by
    rw [count, count, hslots]
  have hlen : (cs.foldl accept s).length = (cs'.foldl accept s).length := by
    have h1 := count_foldl_accept (s := s) cs
    have h2 := count_foldl_accept (s := s) cs'
    rw [hcount, ← h2] at h1
    have := congrArg UInt8.toNat h1
    apply UInt8.toNat_inj.mp
    simp only [UInt8.toNat_sub, UInt8.toNat_ofNat'] at this
    have hlt := (cs.foldl accept s).length.toNat_lt
    have hlt' := (cs'.foldl accept s).length.toNat_lt
    omega
  exact Session.ext (hfile.trans hfile'.symm) (hlow.trans hlow'.symm) hlen hslots
    (hact.trans hact'.symm) (htrans.trans htrans'.symm) (hlast.trans hlast'.symm)

end Session

/-! ## Requests -/

/-- A set of packets for the window of a client: one packet for each sequence
number, and nothing behind a packet of length zero, here or in the window. -/
structure Batch (c : Client) (P : Set Content) : Prop where
  window : ∀ p ∈ P, (p.seqnum - c.window.windowLow).toNat < 31
  same : ∀ p ∈ P, ∀ p' ∈ P, p.seqnum = p'.seqnum → p = p'
  ends : ∀ p p' : Content,
    (p ∈ P ∨ ∃ k, (c.window.nodes k).used = true ∧ (c.window.nodes k).value.content = p) →
    (p' ∈ P ∨ ∃ k, (c.window.nodes k).used = true ∧ (c.window.nodes k).value.content = p') →
    p.length = 0 → (p'.seqnum - c.window.windowLow).toNat ≤ (p.seqnum - c.window.windowLow).toNat

/-- The calls carry the packets of `P`, each at least once, and nothing else. -/
structure Listing (crc : Crc) (P : Set Content) (qs : List Call) : Prop where
  mem : ∀ q ∈ qs, ∀ d ∈ q.datagrams, ∃ p ∈ P, d.content? crc = some p
  all : ∀ p ∈ P, ∃ q ∈ qs, ∃ d ∈ q.datagrams, d.content? crc = some p

section

variable {crc : Crc} {cfg : HdCfg} {c : Client} {P : Set Content} {qs : List Call}

theorem Listing.mem_iff (h : Listing crc P qs) (p : Content) :
    p ∈ qs.flatMap (fun q => contents crc q.datagrams) ↔ p ∈ P := by
  constructor
  · intro hp
    obtain ⟨q, hq, hp⟩ := List.mem_flatMap.mp hp
    obtain ⟨d, hd, hdp⟩ := List.mem_filterMap.mp hp
    obtain ⟨p', hp', hdp'⟩ := h.mem q hq d hd
    rwa [Option.some.inj (hdp.symm.trans hdp')]
  · intro hp
    obtain ⟨q, hq, d, hd, hdp⟩ := h.all p hp
    exact List.mem_flatMap.mpr ⟨q, hq, List.mem_filterMap.mpr ⟨d, hd, hdp⟩⟩

theorem Batch.offset (h : Batch c P) {p : Content} (hp : p ∈ P) :
    ∃ j < maxWindowSize, p.seqnum = seqAt c.session.low j :=
  exists_offset (decide_eq_true (h.window p hp))

theorem seqAt_sub {low : UInt8} {j : Nat} (hj : j < 256) : (seqAt low j - low).toNat = j := by
  have := low.toNat_lt
  rw [sub_toNat, seqAt_toNat]
  omega

theorem Batch.noneAfterEnd (h : Batch c P) (hw : c.session.Windowed) :
    c.session.NoneAfterEnd P := by
  have hpres : ∀ j < 32, ∀ a, c.session.Present P j a →
      (a ∈ P ∨ ∃ k, (c.window.nodes k).used = true ∧ (c.window.nodes k).value.content = a) ∧
        (a.seqnum - c.window.windowLow).toNat = j := by
    rintro j hj a (ha | ⟨ha, -, hseq⟩)
    · have hseq : a.seqnum = seqAt c.window.windowLow j := (hw j hj a ha).2.2
      refine ⟨.inr ⟨slot (seqAt c.window.windowLow j), ?_⟩, by rw [hseq, seqAt_sub (by omega)]⟩
      have hsome : (c.window.held (slot (seqAt c.window.windowLow j))).map Packet.content =
        some a := ha
      unfold Buf.held at hsome
      split at hsome
      · rename_i hu
        exact ⟨hu, by simpa using hsome⟩
      · cases hsome
    · have hseq : a.seqnum = seqAt c.window.windowLow j := hseq
      exact ⟨.inl ha, by rw [hseq, seqAt_sub (by omega)]⟩
  intro i hi j hj a b ha hb hend
  obtain ⟨ha, hai⟩ := hpres i hi a ha
  obtain ⟨hb, hbj⟩ := hpres j hj b hb
  rw [← hai, ← hbj]
  exact h.ends a b ha hb (of_decide_eq_true hend)

/-- A run of requests is the same as buffering all their packets and delivering
once. -/
theorem session_serveAll {r : Run} {s : Session} (hs : r.client.session = s.flush)
    (hw : s.Windowed) (ha : s.active = true) (hP : s.NoneAfterEnd P)
    (hwin : ∀ p ∈ P, ∃ j < maxWindowSize, p.seqnum = seqAt s.low j)
    (hmem : ∀ q ∈ qs, ∀ p ∈ contents crc q.datagrams, p ∈ P)
    (hwr : EachCall crc cfg (Written crc cfg) r qs) :
    (Run.serveAll crc cfg r qs).client.session =
      ((qs.flatMap fun q => contents crc q.datagrams).foldl Session.accept s).flush := by
  induction qs generalizing r s with
  | nil => exact hs
  | cons q qs ih =>
    have hq : ∀ p ∈ contents crc q.datagrams, p ∈ P := hmem q List.mem_cons_self
    have hlow := (Session.foldl_accept (s := s) (contents crc q.datagrams)).1
    have hserve : (r.serve crc cfg q).client.session =
        ((contents crc q.datagrams).foldl Session.accept s).flush := by
      rw [(serve_of_written hwr.1).1, Call.filled, hs]
      exact Session.flush_foldl_flush hw ha hP (fun _ => valid_of_mem_contents)
        fun p hp => ⟨hq p hp, hwin p (hq p hp)⟩
    rw [List.flatMap_cons, List.foldl_append]
    refine ih hserve (hw.foldl_accept fun _ => valid_of_mem_contents) ?_ ?_ ?_ ?_ hwr.2
    · rw [(Session.foldl_accept _).2.2.1, ha]
    · intro i hi j hj a b hia hjb
      exact hP i hi j hj a b (hia.of_foldl_accept hq ha hi) (hjb.of_foldl_accept hq ha hj)
    · intro p hp
      rw [hlow]
      exact hwin p hp
    · exact fun q' hq' => hmem q' (List.mem_cons_of_mem q hq')

/-- However a set of packets is listed and cut into requests, the client ends up
with the same view, as long as no write fails. -/
theorem order_independent (crc : Crc) (cfg : HdCfg) (c : Client) (hc : Reachable crc cfg c)
    (ha : c.active = true) (P : Set Content) (hP : Batch c P) (qs qs' : List Call)
    (hqs : Listing crc P qs) (hqs' : Listing crc P qs')
    (hw : EachCall crc cfg (Written crc cfg) ⟨c, []⟩ qs)
    (hw' : EachCall crc cfg (Written crc cfg) ⟨c, []⟩ qs') :
    SameView (Run.serveAll crc cfg ⟨c, []⟩ qs).client
      (Run.serveAll crc cfg ⟨c, []⟩ qs').client := by
  obtain ⟨id, address, history, rfl⟩ := hc
  obtain ⟨hwin, hidle⟩ := windowed_idle_serveAll crc cfg id address history
  generalize (Run.serveAll crc cfg (Run.start id address) history).client = c at *
  have hflush : c.session = c.session.flush := (Session.flush_of_idle (hidle ha)).symm
  have hrun : ∀ qs, Listing crc P qs → EachCall crc cfg (Written crc cfg) ⟨c, []⟩ qs →
      (Run.serveAll crc cfg ⟨c, []⟩ qs).client.session =
        ((qs.flatMap fun q => contents crc q.datagrams).foldl Session.accept c.session).flush := by
    intro qs hqs hw
    refine session_serveAll hflush hwin ha (hP.noneAfterEnd hwin) (fun p => hP.offset) ?_ hw
    intro q hq p hp
    exact (hqs.mem_iff p).mp (List.mem_flatMap.mpr ⟨q, hq, hp⟩)
  apply sameView_of_session
  rw [hrun qs hqs hw, hrun qs' hqs' hw']
  congr 1
  refine Session.foldl_accept_congr ha (fun p => (hqs.mem_iff p).trans (hqs'.mem_iff p).symm) ?_
  intro p hp p' hp'
  exact hP.same p ((hqs.mem_iff p).mp hp) p' ((hqs.mem_iff p').mp hp')

end

def firstPackets : List Packet := [dataPacket 0 7 [0x61], dataPacket 1 8 [0x62]]

def firstContents : List Content :=
  contents bitwiseCrc (firstPackets.map (Packet.datagram bitwiseCrc))

theorem batch_firstContents : Batch (initializeClient 1 localhost) {p | p ∈ firstContents} where
  window := by
    show ∀ p ∈ firstContents, (p.seqnum - (0 : UInt8)).toNat < 31
    decide +kernel
  same := by
    show ∀ p ∈ firstContents, ∀ p' ∈ firstContents, p.seqnum = p'.seqnum → p = p'
    decide +kernel
  ends := by
    have hne : ∀ p ∈ firstContents, p.length ≠ 0 := by decide +kernel
    rintro p p' (hp | ⟨k, hk, -⟩) - h0
    · exact absurd h0 (hne p hp)
    · cases hk

theorem listing_firstContents {qs : List Call}
    (h1 : ∀ q ∈ qs, ∀ d ∈ q.datagrams, ∃ p ∈ firstContents, d.content? bitwiseCrc = some p)
    (h2 : ∀ p ∈ firstContents, ∃ q ∈ qs, ∃ d ∈ q.datagrams, d.content? bitwiseCrc = some p) :
    Listing bitwiseCrc {p | p ∈ firstContents} qs :=
  ⟨h1, h2⟩

theorem order_independent_firstContents :
    let together := [Call.sending firstPackets (by decide)]
    let apart := [Call.sending [dataPacket 1 8 [0x62]] (by decide),
      Call.sending [dataPacket 0 7 [0x61], dataPacket 0 7 [0x61]] (by decide),
      Call.sending [dataPacket 1 8 [0x62]] (by decide)]
    let c := initializeClient 1 localhost
    Reachable bitwiseCrc ⟨31⟩ c ∧ Batch c {p | p ∈ firstContents} ∧
      SameView (Run.serveAll bitwiseCrc ⟨31⟩ ⟨c, []⟩ together).client
        (Run.serveAll bitwiseCrc ⟨31⟩ ⟨c, []⟩ apart).client := by
  intro together apart c
  have hc : Reachable bitwiseCrc ⟨31⟩ c := ⟨1, localhost, [], rfl⟩
  exact ⟨hc, batch_firstContents,
    order_independent bitwiseCrc ⟨31⟩ c hc rfl _ batch_firstContents together apart
      (listing_firstContents (by decide +kernel) (by decide +kernel))
      (listing_firstContents (by decide +kernel) (by decide +kernel))
      (by decide +kernel) (by decide +kernel)⟩

def Call.accepting (n : Nat) (q : Call) : Call := { q with env := { q.env with accepted := n } }

/-- Without the condition on the writes the grouping matters: a device that takes
one byte of each write takes "a" and "b" one by one and loses them together. -/
theorem order_dependent_of_short_writes :
    ¬ ∀ (crc : Crc) (cfg : HdCfg) (c : Client), Reachable crc cfg c → c.active = true →
        ∀ P : Set Content, Batch c P → ∀ qs qs' : List Call,
          Listing crc P qs → Listing crc P qs' →
            SameView (Run.serveAll crc cfg ⟨c, []⟩ qs).client
              (Run.serveAll crc cfg ⟨c, []⟩ qs').client := by
  intro h
  have := h bitwiseCrc ⟨31⟩ (initializeClient 1 localhost) ⟨1, localhost, [], rfl⟩ rfl
    {p | p ∈ firstContents} batch_firstContents
    [(Call.sending firstPackets (by decide)).accepting 1]
    [(Call.sending [dataPacket 0 7 [0x61]] (by decide)).accepting 1,
      (Call.sending [dataPacket 1 8 [0x62]] (by decide)).accepting 1]
    (listing_firstContents (by decide +kernel) (by decide +kernel))
    (listing_firstContents (by decide +kernel) (by decide +kernel))
  exact absurd this.outFile (by decide +kernel)

end Trtp
