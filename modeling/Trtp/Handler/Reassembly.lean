import Trtp.Handler.Window

/-!
# Reassembly

A sender cuts a file into chunks, ends with an empty one and numbers them modulo
256.  The network may lose, repeat, reorder and damage datagrams, but a datagram
does not stay in it for so long that the window has moved past the point where
its number means another chunk.  Then the file of the receiver is always the
concatenation of the first chunks.

The invariant `Reassembled` ties the sequence numbers, which wrap, to the indices
of the chunks, which do not: position `j` of the window holds chunk `B + j` or
nothing, where `B` chunks have been delivered.
-/

namespace Trtp

open Lib

variable {crc : Crc} {cfg : HdCfg} {chunks : List (List UInt8)} {r : Run} {q : Call}

def sent (chunks : List (List UInt8)) : List (List UInt8) := chunks ++ [[]]

/-- Every accepted packet of the call is a chunk whose number is not stale: with
`B` chunks delivered, its index is between `B - 225` and `B + 255`. -/
def FromSender (crc : Crc) (chunks : List (List UInt8)) (r : Run) (q : Call) : Prop :=
  ∀ d ∈ q.datagrams, ∀ c, d.content? crc = some c →
    ∃ n, (sent chunks)[n]? = some c.data ∧ c.seqnum.toNat = n % 256 ∧
      r.delivered.length ≤ n + 225 ∧ n ≤ r.delivered.length + 255

structure Reassembled (chunks : List (List UInt8)) (s : Session) (delivered : Nat) : Prop where
  windowed : s.Windowed
  low : s.low = UInt8.ofNat delivered
  pending : ∀ j < 32, ∀ c, s.pending j = some c → (sent chunks)[delivered + j]? = some c.data
  bytes : s.file.bytes = ((sent chunks).take delivered).flatten
  pos : s.file.pos = s.file.bytes.length
  transferred : s.transferred = UInt64.ofNat s.file.bytes.length
  delivered_le : delivered ≤ chunks.length + 1
  active : s.active = true ↔ delivered ≤ chunks.length
  opened : s.active = true → s.file.closed = false

theorem sent_length : (sent chunks).length = chunks.length + 1 := by simp [sent]

theorem sent_eq_nil_iff (h : ∀ c ∈ chunks, 1 ≤ c.length) {n : Nat} {data : List UInt8}
    (hn : (sent chunks)[n]? = some data) : data = [] ↔ n = chunks.length := by
  rcases Nat.lt_trichotomy n chunks.length with hlt | rfl | hgt
  · rw [sent, List.getElem?_append_left hlt, List.getElem?_eq_getElem hlt] at hn
    cases hn
    have := h _ (List.getElem_mem hlt)
    constructor
    · intro he
      rw [he] at this
      exact absurd this (by decide)
    · omega
  · simp only [sent, List.getElem?_concat_length, Option.some.injEq] at hn
    simp [← hn]
  · rw [List.getElem?_eq_none (by rw [sent_length]; omega)] at hn
    cases hn

theorem lt_of_sent {n : Nat} {data : List UInt8} (hn : (sent chunks)[n]? = some data) :
    n < chunks.length + 1 := by
  rw [← sent_length]
  exact (List.getElem?_eq_some_iff.mp hn).1

namespace Reassembled

variable {s : Session} {B : Nat}

theorem index_eq {n j : Nat} {seqnum : UInt8} (hlow : s.low = UInt8.ofNat B)
    (hj : j < maxWindowSize)
    (hseq : seqnum = seqAt s.low j) (hn : seqnum.toNat = n % 256) (h1 : B ≤ n + 225)
    (h2 : n ≤ B + 255) : n = B + j := by
  have hw : maxWindowSize = 31 := rfl
  rw [hseq, seqAt_toNat, hlow, UInt8.toNat_ofNat'] at hn
  omega

theorem foldl_accept (h : Reassembled chunks s B) {cs : List Content} (hv : ∀ c ∈ cs, c.Valid)
    (hcs : ∀ c ∈ cs, ∃ n, (sent chunks)[n]? = some c.data ∧ c.seqnum.toNat = n % 256 ∧
      B ≤ n + 225 ∧ n ≤ B + 255) :
    Reassembled chunks (cs.foldl Session.accept s) B := by
  obtain ⟨hlow, hfile, hact, htrans, -⟩ := Session.foldl_accept (s := s) cs
  refine
    { windowed := h.windowed.foldl_accept hv
      low := hlow.trans h.low
      pending := ?_
      bytes := by rw [hfile, h.bytes]
      pos := by rw [hfile, h.pos]
      transferred := by rw [htrans, hfile, h.transferred]
      delivered_le := h.delivered_le
      active := by rw [hact, h.active]
      opened := by rw [hact, hfile]; exact h.opened }
  intro j hj c hc
  cases ha : s.active with
  | false =>
    rw [Session.foldl_accept_of_inactive ha] at hc
    exact h.pending j hj c hc
  | true =>
    rw [Session.pending_foldl_accept ha cs hj, Option.or_eq_some_iff] at hc
    rcases hc with hc | ⟨-, hc⟩
    · exact h.pending j hj c hc
    · unfold Session.arrival at hc
      split at hc
      · rename_i hjw
        obtain ⟨n, hn, hseq, h1, h2⟩ := hcs c (List.mem_of_find?_eq_some hc)
        have hcj : c.seqnum = seqAt s.low j := by simpa using List.find?_some hc
        rw [← index_eq h.low hjw hcj hseq h1 h2]
        exact hn
      · cases hc

theorem ready_chunk (h : Reassembled chunks s B) {j : Nat} {c : Content}
    (hc : s.ready[j]? = some c) : c.Valid ∧ (sent chunks)[B + j]? = some c.data := by
  have hj : j < s.ready.length := (List.getElem?_eq_some_iff.mp hc).1
  have hlen := Session.ready_length_le (s := s)
  have hw : maxWindowSize = 31 := rfl
  rw [Session.ready_getElem? hj] at hc
  exact ⟨(h.windowed j (by omega) c hc).1, h.pending j (by omega) c hc⟩

theorem ready_data (h : Reassembled chunks s B) :
    s.ready.flatMap Content.data = (((sent chunks).drop B).take s.ready.length).flatten := by
  rw [List.flatMap_def]
  congr 1
  apply List.ext_getElem?
  intro j
  by_cases hj : j < s.ready.length
  · rw [List.getElem?_map, List.getElem?_take_of_lt hj, List.getElem?_drop,
      (h.ready_chunk (List.getElem?_eq_getElem hj)).2, List.getElem?_eq_getElem hj]
    rfl
  · rw [List.getElem?_eq_none (by simpa using hj),
      List.getElem?_eq_none (by rw [List.length_take]; omega)]

/-- The transfer ends with the delivery that reaches the empty chunk. -/
theorem ready_ends (hchunks : ∀ c ∈ chunks, 1 ≤ c.length) (h : Reassembled chunks s B)
    (hne : s.ready ≠ []) :
    B + s.ready.length ≤ chunks.length + 1 ∧
      (s.ready.any Content.isEnd = true ↔ B + s.ready.length = chunks.length + 1) := by
  have hpos := List.length_pos_iff.mpr hne
  obtain ⟨c, hc⟩ : ∃ c, s.ready[s.ready.length - 1]? = some c :=
    ⟨_, List.getElem?_eq_getElem (by omega)⟩
  obtain ⟨hv, hlast⟩ := h.ready_chunk hc
  have hlt := lt_of_sent hlast
  refine ⟨by omega, ?_, ?_⟩
  · intro hany
    obtain ⟨a, ha, hend⟩ := List.any_eq_true.mp hany
    obtain ⟨j, hj⟩ := List.getElem?_of_mem ha
    obtain ⟨hva, hchunk⟩ := h.ready_chunk hj
    have hjl : j + 1 = s.ready.length := gapless_stop_last hj hend
    have := (sent_eq_nil_iff hchunks hchunk).mp (hva.isEnd_iff.mp hend)
    omega
  · intro heq
    have hnil := (sent_eq_nil_iff hchunks hlast).mpr (by omega)
    exact List.any_eq_true.mpr ⟨c, List.mem_of_getElem? hc, hv.isEnd_iff.mpr hnil⟩

theorem commit (hchunks : ∀ c ∈ chunks, 1 ≤ c.length) (h : Reassembled chunks s B)
    (hne : s.ready ≠ []) : Reassembled chunks (s.commit s.ready) (B + s.ready.length) := by
  have hlen : s.ready.length ≤ 32 := Nat.le_succ_of_le Session.ready_length_le
  obtain ⟨hle, hends⟩ := h.ready_ends hchunks hne
  have hpos := List.length_pos_iff.mpr hne
  have hact : s.active = true := h.active.mpr (by omega)
  have hwrite : s.file.write (s.ready.flatMap Content.data) =
      s.file.put (s.ready.flatMap Content.data) := File.write_of_open (h.opened hact) _
  refine
    { windowed := h.windowed.commit hlen
      low := ?_
      pending := ?_
      bytes := ?_
      pos := by rw [Session.commit_pos, Session.commit_bytes, hwrite, File.put_pos h.pos]
      transferred := ?_
      delivered_le := hle
      active := ?_
      opened := fun ha => Session.commit_opened (h.opened hact) ha }
  · rw [Session.commit_low, h.low, seqAt, UInt8.ofNat_add]
  · intro j hj c hc
    rw [Session.pending_commit _ hlen hj] at hc
    split at hc
    · rename_i hlt
      rw [Nat.add_assoc]
      exact h.pending _ hlt c hc
    · cases hc
  · rw [Session.commit_bytes, hwrite, File.put_bytes_of_pos h.pos, h.bytes, h.ready_data,
      ← List.flatten_append, List.take_add]
  · rw [Session.commit_bytes, hwrite, File.put_bytes_of_pos h.pos, List.length_append,
      UInt64.ofNat_add,
      ← h.transferred]
    rfl
  · show (s.active && !(s.ready.any Content.isEnd && s.active)) = true ↔ _
    cases he : s.ready.any Content.isEnd with
    | true =>
      have := hends.mp he
      simp [hact]
      omega
    | false =>
      have : B + s.ready.length ≠ chunks.length + 1 := fun hn => by
        rw [hends.mpr hn] at he
        cases he
      simp [hact]
      omega

end Reassembled

theorem reassembled_start (id : UInt32) (address : Address) :
    Reassembled chunks (Run.start id address).client.session 0 where
  windowed j _ c hc := by
    rw [start_session] at hc
    cases hc
  low := rfl
  pending j _ c hc := by
    rw [start_session] at hc
    cases hc
  bytes := rfl
  pos := rfl
  transferred := rfl
  delivered_le := Nat.zero_le _
  active := ⟨fun _ => Nat.zero_le _, fun _ => rfl⟩
  opened _ := rfl

theorem reassembled_serve (hchunks : ∀ c ∈ chunks, 1 ≤ c.length)
    (h : Reassembled chunks r.client.session r.delivered.length) (hw : Written crc cfg r q)
    (hq : FromSender crc chunks r q) :
    Reassembled chunks (r.serve crc cfg q).client.session (r.serve crc cfg q).delivered.length := by
  have hfill : Reassembled chunks (q.filled crc r.client.session) r.delivered.length := by
    refine h.foldl_accept (fun c => valid_of_mem_contents) fun c hc => ?_
    obtain ⟨d, hd, hdc⟩ := List.mem_filterMap.mp hc
    exact hq d hd c hdc
  obtain ⟨hs, hd⟩ := serve_of_written hw
  have hdel : (r.serve crc cfg q).delivered.length =
      r.delivered.length + (q.filled crc r.client.session).ready.length := by
    rw [← hd, List.length_map]
    exact List.length_append
  rw [hs, hdel, Session.flush]
  split
  · rename_i hnil
    rw [hnil]
    exact hfill
  · rename_i hne
    exact hfill.commit hchunks hne

/-- After every request the file is the concatenation of the first `B` chunks,
`window_low` is `B` modulo 256, `transferred` is the length of the file, `B` has
not decreased, and the client is closed once the empty chunk is in. -/
theorem reassembly (crc : Crc) (cfg : HdCfg) (id : UInt32) (address : Address)
    (chunks : List (List UInt8)) (hchunks : ∀ c ∈ chunks, 1 ≤ c.length ∧ c.length ≤ 512)
    (qs : List Call)
    (h : EachCall crc cfg (fun r q => Written crc cfg r q ∧ FromSender crc chunks r q)
      (Run.start id address) qs) (before after : List Call) (hqs : qs = before ++ after) :
    let r := Run.serveAll crc cfg (Run.start id address) before
    let B := r.delivered.length
    r.client.outFile.bytes = ((chunks ++ [[]]).take B).flatten ∧
      r.client.window.windowLow.toNat = B % 256 ∧
      r.client.transferred = UInt64.ofNat r.client.outFile.bytes.length ∧
      B ≤ chunks.length + 1 ∧ (r.client.active = false ↔ B = chunks.length + 1) ∧
      B ≤ (Run.serveAll crc cfg (Run.start id address) qs).delivered.length := by
  intro r B
  subst hqs
  have hr : Reassembled chunks r.client.session B :=
    h.left.invariant (I := fun r : Run => Reassembled chunks r.client.session r.delivered.length)
      (fun r q hi hq => reassembled_serve (fun c hc => (hchunks c hc).1) hi hq.1 hq.2)
      (reassembled_start id address)
  refine ⟨hr.bytes, ?_, hr.transferred, hr.delivered_le, ?_, ?_⟩
  · have : r.client.window.windowLow = UInt8.ofNat B := hr.low
    rw [this, UInt8.toNat_ofNat']
  · have := hr.active
    have hle := hr.delivered_le
    rw [← Bool.not_eq_true, show r.client.active = r.client.session.active from rfl, this]
    omega
  · rw [Run.serveAll, List.foldl_append]
    exact delivered_length_mono _ after

/-- `FromSender` as a finite check. -/
theorem fromSender_of_contents (h : ∀ c ∈ contents crc q.datagrams, ∃ n < (sent chunks).length,
    (sent chunks)[n]? = some c.data ∧ c.seqnum.toNat = n % 256 ∧
      r.delivered.length ≤ n + 225 ∧ n ≤ r.delivered.length + 255) : FromSender crc chunks r q := by
  intro d hd c hc
  obtain ⟨n, -, hn⟩ := h c (List.mem_filterMap.mpr ⟨d, hd, hc⟩)
  exact ⟨n, hn⟩

/-- The chunks "a" and "b" in the wrong order, with the end before "a" and "b"
twice. -/
def twoChunks : List Call :=
  [Call.sending [dataPacket 1 7 [0x62], dataPacket 2 7 []] (by decide),
    Call.sending [dataPacket 0 8 [0x61], dataPacket 1 8 [0x62]] (by decide)]

theorem reassembly_twoChunks :
    EachCall bitwiseCrc ⟨31⟩
        (fun r q => Written bitwiseCrc ⟨31⟩ r q ∧ FromSender bitwiseCrc [[0x61], [0x62]] r q)
        (Run.start 1 localhost) twoChunks ∧
      let r := Run.serveAll bitwiseCrc ⟨31⟩ (Run.start 1 localhost) twoChunks
      r.client.outFile.bytes =
        (([[0x61], [0x62]] ++ [[]] : List (List UInt8)).take r.delivered.length).flatten := by
  have h : EachCall bitwiseCrc ⟨31⟩
      (fun r q => Written bitwiseCrc ⟨31⟩ r q ∧ FromSender bitwiseCrc [[0x61], [0x62]] r q)
      (Run.start 1 localhost) twoChunks := by
    refine ⟨⟨?_, fromSender_of_contents ?_⟩, ⟨?_, fromSender_of_contents ?_⟩, trivial⟩
    all_goals decide +kernel
  exact ⟨h, (reassembly bitwiseCrc ⟨31⟩ 1 localhost [[0x61], [0x62]] (by decide) twoChunks h
    twoChunks [] (List.append_nil twoChunks).symm).1⟩

end Trtp
