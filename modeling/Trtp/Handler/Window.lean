import Trtp.Handler.Calls

/-!
# The window invariant

Three facts are kept by every request.  `Session.Windowed`: a slot in use holds
a DATA packet of the window that belongs there.  `Session.Idle`: an active client
never rests with a packet at the low end of its window.  `Session.Counted`:
`length` is the number of slots in use.  The first two survive a failed write;
the third does not, since the failed delivery releases its slots without
counting them down.

The slot just past the window is always free, so at most 31 slots are in use, and
30 once anything has been delivered.  This is why the window announced with a
delivery is never zero.
-/

namespace Trtp

open Lib

/-- What `unpack` guarantees of the packets that enter a window. -/
def Content.Valid (c : Content) : Prop :=
  c.type = .data ∧ c.truncated = false ∧ c.length.toNat ≤ maxPayloadSize ∧
    c.data.length = c.length.toNat

theorem valid_of_content? {crc : Crc} {d : Datagram} {c : Content}
    (h : d.content? crc = some c) : c.Valid := by
  obtain ⟨hacc, rfl⟩ := content?_eq_some_iff.mp h
  obtain ⟨-, ht, htr⟩ := accepted_iff.mp hacc
  exact ⟨ht, htr, length_of_accepted hacc, data_length (length_of_accepted hacc)⟩

theorem Content.Valid.isEnd_iff {c : Content} (h : c.Valid) : c.isEnd = true ↔ c.data = [] := by
  rw [Content.isEnd, decide_eq_true_iff, ← List.length_eq_zero_iff, h.2.2.2, ← UInt16.toNat_inj]
  rfl

theorem valid_of_mem_contents {crc : Crc} {ds : List Datagram} {c : Content}
    (h : c ∈ contents crc ds) : c.Valid := by
  obtain ⟨d, -, hd⟩ := List.mem_filterMap.mp h
  exact valid_of_content? hd

namespace Session

variable {s : Session}

/-- A slot in use holds a packet of the window that belongs to the slot. -/
def Windowed (s : Session) : Prop :=
  ∀ j < 32, ∀ c, s.pending j = some c → c.Valid ∧ j < maxWindowSize ∧ c.seqnum = seqAt s.low j

def Idle (s : Session) : Prop := s.active = true → s.pending 0 = none

def Counted (s : Session) : Prop := s.length - UInt8.ofNat s.count = 0

theorem Windowed.past_end (h : s.Windowed) : s.pending maxWindowSize = none := by
  by_contra hn
  obtain ⟨c, hc⟩ := Option.ne_none_iff_exists'.mp hn
  exact absurd (h maxWindowSize (by decide) c hc).2.1 (lt_irrefl _)

theorem Windowed.accept (h : s.Windowed) {c : Content} (hc : c.Valid) :
    (s.accept c).Windowed := by
  intro j hj a ha
  rw [accept_low]
  cases hact : s.active with
  | false =>
    rw [accept_of_inactive hact] at ha
    exact h j hj a ha
  | true =>
    rw [pending_accept hact c hj] at ha
    cases hp : s.pending j with
    | some b =>
      rw [hp, Option.some_or] at ha
      exact h j hj a (hp.trans ha)
    | none =>
      rw [hp, Option.none_or] at ha
      split at ha
      · rename_i hcj
        cases ha
        exact ⟨hc, hcj⟩
      · cases ha

theorem Windowed.foldl_accept (h : s.Windowed) {cs : List Content} (hcs : ∀ c ∈ cs, c.Valid) :
    (cs.foldl Session.accept s).Windowed := by
  induction cs generalizing s with
  | nil => exact h
  | cons c cs ih =>
    exact ih (h.accept (hcs c List.mem_cons_self)) fun a ha => hcs a (List.mem_cons_of_mem c ha)

theorem Windowed.commit (h : s.Windowed) {l : List Content} (hl : l.length ≤ 32) :
    (s.commit l).Windowed := by
  intro j hj c hc
  rw [pending_commit l hl hj] at hc
  split at hc
  · rename_i hlj
    obtain ⟨hv, hw, hseq⟩ := h _ hlj c hc
    refine ⟨hv, by omega, ?_⟩
    rw [hseq, commit_low, seqAt_seqAt]
  · cases hc

theorem Windowed.lose (h : s.Windowed) {l : List Content} (hl : l.length ≤ 32) (result : Nat) :
    (s.lose l result).Windowed := by
  intro j hj c hc
  rw [pending_lose l hl result hj] at hc
  split at hc
  · cases hc
  · exact h j hj c hc

theorem Windowed.deliver (h : s.Windowed) (accepted : Nat) : (s.deliver accepted).Windowed := by
  have hl : s.ready.length ≤ 32 := Nat.le_succ_of_le ready_length_le
  unfold Session.deliver
  split
  · exact h
  · split
    · exact h.commit hl
    · exact h.lose hl accepted

/-- After a delivery an active client waits for the next packet. -/
theorem idle_commit (h : s.Windowed) : (s.commit s.ready).Idle := by
  intro ha
  have hl : s.ready.length ≤ maxWindowSize := ready_length_le
  have hopen : s.ready.any Content.isEnd = false := by
    by_contra he
    have he : s.ready.any Content.isEnd = true := by simpa using he
    have : (s.commit s.ready).active = (s.active && !(s.ready.any Content.isEnd && s.active)) := rfl
    rw [this, he] at ha
    cases hs : s.active <;> simp [hs] at ha
  have hlt : s.ready.length + 0 < 32 := Nat.lt_succ_of_le hl
  rw [pending_commit _ (Nat.le_succ_of_le hl) (by decide), if_pos hlt, Nat.add_zero]
  rcases Nat.lt_or_eq_of_le hl with hlt | heq
  · have := gapless_end hlt hopen
    rwa [Nat.zero_add] at this
  · rw [heq]
    exact h.past_end

theorem idle_deliver (h : s.Windowed) (accepted : Nat) : (s.deliver accepted).Idle := by
  unfold Session.deliver
  split
  · rename_i hr
    exact fun _ => ready_eq_nil_iff.mp hr
  · rename_i hr
    split
    · exact idle_commit h
    · intro _
      have hl : s.ready.length ≤ 32 := Nat.le_succ_of_le ready_length_le
      rw [pending_lose _ hl accepted (by decide), if_pos (List.length_pos_iff.mpr hr)]

theorem Counted.length_toNat (h : s.Counted) : s.length.toNat = s.count := by
  have hle : s.count ≤ 32 := by
    have := Finset.card_le_univ (Finset.univ.filter fun k => (s.slots k).isSome)
    rwa [Fintype.card_fin] at this
  have h0 : (s.length - UInt8.ofNat s.count).toNat = 0 := congrArg UInt8.toNat h
  rw [UInt8.toNat_sub, UInt8.toNat_ofNat'] at h0
  have := s.length.toNat_lt
  omega

theorem count_add_card_le {t : Finset Nat} (ht : ∀ j ∈ t, j < 32 ∧ s.pending j = none) :
    s.count + t.card ≤ 32 := by
  let free : Finset (Fin maxBufferSize) := t.image fun j => slot (seqAt s.low j)
  have hcard : free.card = t.card := by
    rw [Finset.card_image_of_injOn]
    intro i hi j hj he
    exact (slot_seqAt_eq_iff (ht i hi).1 (ht j hj).1).mp he
  have hdisj : Disjoint (Finset.univ.filter fun k => (s.slots k).isSome) free := by
    rw [Finset.disjoint_right]
    intro k hk
    obtain ⟨j, hj, rfl⟩ := Finset.mem_image.mp hk
    have hn : s.slots (slot (seqAt s.low j)) = none := (ht j hj).2
    simp [hn]
  have := Finset.card_le_univ ((Finset.univ.filter fun k => (s.slots k).isSome) ∪ free)
  rwa [Finset.card_union_of_disjoint hdisj, hcard, Fintype.card_fin] at this

theorem Windowed.count_le (h : s.Windowed) : s.count ≤ 31 := by
  have := count_add_card_le (s := s) (t := {maxWindowSize}) (by
    intro j hj
    rw [Finset.mem_singleton] at hj
    subst hj
    exact ⟨by decide, h.past_end⟩)
  rw [Finset.card_singleton] at this
  omega

theorem Windowed.count_le_of_free (h : s.Windowed) (h0 : s.pending 0 = none) : s.count ≤ 30 := by
  have := count_add_card_le (s := s) (t := {0, maxWindowSize}) (by
    intro j hj
    rw [Finset.mem_insert, Finset.mem_singleton] at hj
    rcases hj with rfl | rfl
    · exact ⟨by decide, h0⟩
    · exact ⟨by decide, h.past_end⟩)
  rw [Finset.card_pair (by decide)] at this
  omega

end Session

/-! ## Over a run -/

section Runs

variable {crc : Crc} {cfg : HdCfg} {r : Run} {q : Call} {id : UInt32} {address : Address}

theorem windowed_filled (crc : Crc) (h : r.client.session.Windowed) (q : Call) :
    (q.filled crc r.client.session).Windowed :=
  h.foldl_accept fun _ => valid_of_mem_contents

theorem windowed_serve (h : r.client.session.Windowed) (q : Call) :
    (r.serve crc cfg q).client.session.Windowed := by
  rw [serve_session]
  exact (windowed_filled crc h q).deliver q.env.accepted

theorem idle_serve (h : r.client.session.Windowed) (q : Call) :
    (r.serve crc cfg q).client.session.Idle := by
  rw [serve_session]
  exact Session.idle_deliver (windowed_filled crc h q) q.env.accepted

theorem counted_serve (h : r.client.session.Counted) (hw : Written crc cfg r q) :
    (r.serve crc cfg q).client.session.Counted := by
  have hfill : (q.filled crc r.client.session).Counted := (Session.count_foldl_accept _).trans h
  rw [(serve_of_written hw).1, Session.flush]
  split
  · exact hfill
  · exact Session.length_commit.trans hfill

theorem start_session (id : UInt32) (address : Address) (j : Nat) :
    (Run.start id address).client.session.pending j = none := rfl

theorem counted_start (id : UInt32) (address : Address) :
    (Run.start id address).client.session.Counted := by
  have : (Run.start id address).client.session.count = 0 := by
    rw [Session.count, Finset.card_eq_zero, Finset.filter_eq_empty_iff]
    intro k _
    exact Bool.false_ne_true
  rw [Session.Counted, this]
  show (0 : UInt8) - UInt8.ofNat 0 = 0
  decide

theorem windowed_idle_serveAll (crc : Crc) (cfg : HdCfg) (id : UInt32) (address : Address)
    (qs : List Call) :
    (Run.serveAll crc cfg (Run.start id address) qs).client.session.Windowed ∧
      (Run.serveAll crc cfg (Run.start id address) qs).client.session.Idle := by
  refine foldl_invariant
    (I := fun r : Run => r.client.session.Windowed ∧ r.client.session.Idle) ?_ ?_ qs
  · intro r q h
    exact ⟨windowed_serve h.1 q, idle_serve h.1 q⟩
  · refine ⟨fun j _ c hc => ?_, fun _ => rfl⟩
    rw [start_session] at hc
    cases hc

theorem counted_serveAll {qs : List Call}
    (h : EachCall crc cfg (Written crc cfg) (Run.start id address) qs) :
    (Run.serveAll crc cfg (Run.start id address) qs).client.session.Counted :=
  h.invariant (I := fun r : Run => r.client.session.Counted) (fun _ _ => counted_serve)
    (counted_start id address)

theorem length_of_delivered (hw : r.client.session.Windowed) (hc : r.client.session.Counted)
    (hq : (q.outcome crc cfg r.client).delivered ≠ []) :
    (q.outcome crc cfg r.client).client.window.length.toNat ≤ 30 := by
  have hok := written_of_delivered hq
  have hcount : (r.serve crc cfg q).client.session.Counted := counted_serve hc hok
  have hlen : (q.outcome crc cfg r.client).client.window.length.toNat =
      (r.serve crc cfg q).client.session.count := hcount.length_toNat
  obtain ⟨hs, hd⟩ := serve_of_written hok
  have hne : (q.filled crc r.client.session).ready ≠ [] := by
    rw [← hd]
    simpa using hq
  rw [Session.flush, if_neg hne] at hs
  have h1 := (windowed_filled crc hw q).count_le
  have h2 := Session.count_commit (s := q.filled crc r.client.session)
  have h3 := List.length_pos_iff.mpr hne
  rw [hlen, hs]
  omega

/-- The window announced by an ACK fits the five bits it has in the header. -/
theorem ack_window {crc : Crc} {cfg : HdCfg} {toSend : Packet} {window : Buf} {seqnum : UInt8}
    {timestamp : UInt32} {bytes : List UInt8} (hcfg : 1 ≤ cfg.maxWindowSize)
    (hlen : window.length.toNat ≤ 30)
    (hb : pack crc (some (replyPacket toSend .ack (freeWindow cfg window) seqnum timestamp)) false =
      .ok bytes) :
    1 ≤ (freeWindow cfg window) ∧ (freeWindow cfg window) ≤ 31 ∧
      bytes.head?.map (· &&& 0x1F) = some (UInt8.ofNat (freeWindow cfg window).toNat) := by
  have hmax : ((maxWindowSize : Nat) : Int) = 31 := rfl
  have h1 : 1 ≤ freeWindow cfg window := by
    unfold freeWindow minWindow
    split <;> omega
  have h2 : freeWindow cfg window ≤ 31 := by
    unfold freeWindow minWindow
    split <;> omega
  have hmod : (freeWindow cfg window % 256).toNat = (freeWindow cfg window).toNat := by
    rw [Int.emod_eq_of_lt (by omega) (by omega)]
  refine ⟨h1, h2, ?_⟩
  have hle : (replyPacket toSend .ack (freeWindow cfg window) seqnum timestamp).window ≤ 31 := by
    show UInt8.ofNat (freeWindow cfg window % 256).toNat ≤ 31
    rw [UInt8.le_iff_toNat_le, UInt8.toNat_ofNat', hmod]
    exact le_trans (Nat.mod_le _ _) (by show _ ≤ 31; omega)
  have := (packHeaderTr_fields hle).2.2.1
  cases hb
  rw [← hmod]
  exact congrArg some this

/-- The ACK of a delivery never announces an empty window. -/
theorem ack_of_delivered (hw : r.client.session.Windowed) (hc : r.client.session.Counted)
    (hcfg : 1 ≤ cfg.maxWindowSize) (hq : (q.outcome crc cfg r.client).delivered ≠ []) :
    ∃ ack, (q.outcome crc cfg r.client).replies.getLast? = some ack ∧ ack.toSend.type = .ack ∧
      ack.toSend.window ≠ 0 ∧ ack.bytes.head?.map (· &&& 0x1F) = some ack.toSend.window := by
  obtain ⟨last, ack, -, hrep, hsend, hpack⟩ := outcome_of_delivered hq
  have hlen := length_of_delivered hw hc hq
  rw [hsend] at hpack
  obtain ⟨h1, h2, hbits⟩ := ack_window hcfg hlen hpack
  have hwin : ack.toSend.window =
      UInt8.ofNat (freeWindow cfg (q.outcome crc cfg r.client).client.window).toNat := by
    rw [hsend]
    show UInt8.ofNat (_ % 256 : Int).toNat = _
    rw [Int.emod_eq_of_lt (by omega) (by omega)]
  refine ⟨ack, by rw [hrep, List.getLast?_concat], by rw [hsend]; rfl, ?_, by rw [hbits, hwin]⟩
  intro h0
  rw [hwin] at h0
  have := congrArg UInt8.toNat h0
  rw [UInt8.toNat_ofNat', UInt8.toNat_zero] at this
  omega

end Runs

structure Client.WindowOk (c : Client) : Prop where
  length_eq : c.window.length.toNat =
    (Finset.univ.filter fun k => (c.window.nodes k).used = true).card
  used : ∀ k, (c.window.nodes k).used = true →
    (c.window.nodes k).value.type = .data ∧ (c.window.nodes k).value.truncated = false ∧
      ((c.window.nodes k).value.seqnum &&& 0x1F).toNat = k.val ∧
      ((c.window.nodes k).value.seqnum - c.window.windowLow).toNat < 31 ∧
      (c.window.nodes k).value.length.toNat ≤ 512
  low_free : c.active = true →
    isUsed c.window c.window.windowLow = false ∧ c.window.length.toNat ≤ 30

theorem windowOk_of_session {c : Client} (hw : c.session.Windowed) (hi : c.session.Idle)
    (hc : c.session.Counted) : c.WindowOk where
  length_eq := by
    have : c.window.length.toNat = c.session.count := hc.length_toNat
    rw [this, Session.count]
    simp only [used_iff_isSome]
  used k hk := by
    obtain ⟨j, hj, rfl⟩ := exists_slot c.window.windowLow k
    have hp : c.session.pending j =
        some (c.window.nodes (slot (seqAt c.window.windowLow j))).value.content := by
      show (c.window.held (slot (seqAt c.window.windowLow j))).map Packet.content = _
      rw [Buf.held, if_pos hk]
      rfl
    obtain ⟨⟨ht, htr, hlen, -⟩, hjw, hseq⟩ := hw j hj _ hp
    have hseq : (c.window.nodes (slot (seqAt c.window.windowLow j))).value.seqnum =
        seqAt c.window.windowLow j := hseq
    have hin : sequences c.window.windowLow (seqAt c.window.windowLow j) = true := by
      rw [sequences_seqAt (by omega)]
      exact decide_eq_true hjw
    refine ⟨ht, htr, ?_, ?_, hlen⟩
    · rw [hseq]
      rfl
    · rw [hseq]
      exact of_decide_eq_true hin
  low_free ha := by
    have h0 : c.session.pending 0 = none := hi ha
    have hlen : c.window.length.toNat = c.session.count := hc.length_toNat
    refine ⟨?_, by rw [hlen]; exact hw.count_le_of_free h0⟩
    rw [Session.pending, seqAt_zero] at h0
    exact held_eq_none_iff.mp (Option.map_eq_none_iff.mp h0)

/-- Between requests the window holds packets of the window in their own slots,
`length` counts them, and an active client has room; the ACK of a delivery
announces it. -/
theorem window_invariant (crc : Crc) (cfg : HdCfg) (id : UInt32) (address : Address)
    (qs : List Call) (h : EachCall crc cfg (Written crc cfg) (Run.start id address) qs) :
    let r := Run.serveAll crc cfg (Run.start id address) qs
    r.client.WindowOk ∧
      ∀ q : Call, (q.outcome crc cfg r.client).delivered ≠ [] → 1 ≤ cfg.maxWindowSize →
        ∃ ack, (q.outcome crc cfg r.client).replies.getLast? = some ack ∧
          ack.toSend.type = .ack ∧ ack.toSend.window ≠ 0 ∧
          ack.bytes.head?.map (· &&& 0x1F) = some ack.toSend.window := by
  intro r
  obtain ⟨hw, hi⟩ := windowed_idle_serveAll crc cfg id address qs
  have hc := counted_serveAll h
  exact ⟨windowOk_of_session hw hi hc, fun q hq hcfg => ack_of_delivered hw hc hcfg hq⟩

-- Packet 2 waits in slot 2 while packet 0 is delivered; packet 34 is of the same
-- slot and out of the window.  Packet 1 then lets both go.
theorem window_invariant_example :
    let qs := [Call.sending [dataPacket 2 7 [0x63], dataPacket 34 8 [0x64]] (by decide),
      Call.sending [dataPacket 0 9 [0x61]] (by decide)]
    let r := Run.serveAll bitwiseCrc ⟨31⟩ (Run.start 1 localhost) qs
    let q := Call.sending [dataPacket 1 9 [0x62]] (by decide)
    EachCall bitwiseCrc ⟨31⟩ (Written bitwiseCrc ⟨31⟩) (Run.start 1 localhost) qs ∧
      r.client.WindowOk ∧
      ∃ ack, (q.outcome bitwiseCrc ⟨31⟩ r.client).replies.getLast? = some ack ∧
        ack.toSend.window ≠ 0 := by
  intro qs r q
  have h : EachCall bitwiseCrc ⟨31⟩ (Written bitwiseCrc ⟨31⟩) (Run.start 1 localhost) qs := by
    decide +kernel
  obtain ⟨hok, hack⟩ := window_invariant bitwiseCrc ⟨31⟩ 1 localhost qs h
  obtain ⟨ack, hlast, -, hwin, -⟩ := hack q (by decide +kernel) (by decide)
  exact ⟨h, hok, ack, hlast, hwin⟩

end Trtp
