import Trtp.Handler.Ending

/-!
# Acknowledgements

Replies are made at two moments of a request: in the loop over the datagrams,
when nothing of the request has been written yet, and once more after the write,
when the window has moved.  `Run.log` lists the replies of a run with the number
of packets in the file at the moment each was made.

An ACK carries that number modulo 256 as long as transfers are closed quietly.  A packet
behind the end of a transfer is acknowledged and not in the file.  A NACK answers one
truncated datagram.
-/

namespace Trtp

open Lib

section Intake

variable {crc : Crc} {cfg : HdCfg} {env : Env} {s : Intake} {d : Datagram} {reply : Reply}

structure NackOf (crc : Crc) (s : Intake) (d : Datagram) (reply : Reply) : Prop where
  ret : (d.read crc s.decoded).ret = .ok ()
  type : (d.read crc s.decoded).out.type = .data
  truncated : (d.read crc s.decoded).out.truncated = true
  seqnum : reply.toSend.seqnum = (d.read crc s.decoded).out.seqnum
  timestamp : reply.toSend.timestamp = (d.read crc s.decoded).out.timestamp

/-- `reply` is made for `d` when the loop over the datagrams goes from `s` to
`s'`. -/
structure Answers (crc : Crc) (s : Intake) (d : Datagram) (s' : Intake) (reply : Reply) :
    Prop where
  replies : s'.replies = s.replies ++ [reply]
  client : s'.client = s.client
  bytes : pack crc (some reply.toSend) false = .ok reply.bytes
  kind : (reply.toSend.type = .ack ∧ reply.toSend.seqnum = s.client.window.windowLow) ∨
    (reply.toSend.type = .nack ∧ NackOf crc s d reply)

theorem answers_ack {s' : Intake} {timestamp : UInt32} (hc : s'.client = s.client)
    (hr : s'.replies = emitAck crc cfg s.client env.toSend timestamp s.replies) :
    ∃ reply, Answers crc s d s' reply := by
  obtain ⟨bytes, hb, he⟩ := emit_eq crc s.client env.toSend .ack (freeWindow cfg s.client.window)
    s.client.window.windowLow timestamp s.replies
  exact ⟨_, hr.trans he, hc, hb, .inl ⟨rfl, rfl⟩⟩

theorem answers_nack {s' : Intake} (hc : s'.client = s.client)
    (hr : s'.replies = emitNack crc cfg s.client env.toSend (d.read crc s.decoded).out s.replies)
    (h : (d.read crc s.decoded).ret = .ok ()) (ht : (d.read crc s.decoded).out.type = .data)
    (htr : (d.read crc s.decoded).out.truncated = true) : ∃ reply, Answers crc s d s' reply := by
  obtain ⟨bytes, hb, he⟩ := emit_eq crc s.client env.toSend .nack
    (minWindow cfg.maxWindowSize ((maxWindowSize : Int) - s.client.window.windowLow.toNat))
    (d.read crc s.decoded).out.seqnum (d.read crc s.decoded).out.timestamp s.replies
  exact ⟨_, hr.trans he, hc, hb, .inr ⟨rfl, h, ht, htr, rfl, rfl⟩⟩

theorem intake_answers (crc : Crc) (cfg : HdCfg) (env : Env) (s : Intake) (d : Datagram) :
    (intake crc cfg env s d).replies = s.replies ∨
      ∃ reply, Answers crc s d (intake crc cfg env s d) reply := by
  generalize hs' : intake crc cfg env s d = s'
  have hcase := intake_case crc cfg env s d
  rw [hs'] at hcase
  cases hcase with
  | invalid e h => exact .inr (answers_ack rfl rfl)
  | inactive h ha => exact .inr (answers_ack rfl rfl)
  | truncated h ha ht htr => exact .inr (answers_nack rfl rfl h ht htr)
  | outside h ha ht htr hseq => exact .inr (answers_ack rfl rfl)
  | duplicate h ha ht htr hseq hused => exact .inr (answers_ack rfl rfl)
  | stored h ha ht htr hseq hfree => exact .inl rfl
  | other h ha ht => exact .inl rfl

theorem exists_answers {ds : List Datagram}
    (h : reply ∈ (ds.foldl (intake crc cfg env) s).replies) :
    reply ∈ s.replies ∨ ∃ before d after, ds = before ++ d :: after ∧
      Answers crc (before.foldl (intake crc cfg env) s) d
        ((before ++ [d]).foldl (intake crc cfg env) s) reply := by
  induction ds generalizing s with
  | nil => exact .inl h
  | cons d ds ih =>
    rcases ih h with hmem | ⟨before, d', after, rfl, hans⟩
    · rcases intake_answers crc cfg env s d with hsame | ⟨reply', hans⟩
      · rw [hsame] at hmem
        exact .inl hmem
      · rw [hans.replies, List.mem_append, List.mem_singleton] at hmem
        rcases hmem with hmem | rfl
        · exact .inl hmem
        · exact .inr ⟨[], d, ds, rfl, hans⟩
    · exact .inr ⟨d :: before, d', after, rfl, hans⟩

theorem foldl_intake_low (ds : List Datagram) :
    (ds.foldl (intake crc cfg env) s).client.window.windowLow = s.client.window.windowLow := by
  have h : (ds.foldl (intake crc cfg env) s).client.session.low =
      ((contents crc ds).foldl Session.accept s.client.session).low :=
    congrArg Session.low (foldl_intake_session ds)
  exact h.trans (Session.foldl_accept _).1

end Intake

/-! ## The replies of a run -/

/-- A reply and the number of packets in the file when it was made. -/
structure Emission where
  reply : Reply
  written : Nat

section Log

variable (crc : Crc) (cfg : HdCfg)

def Call.early (q : Call) (c : Client) : List Reply :=
  (intakeAll crc cfg q.env c q.decoded q.datagrams).replies

/-- The packets that the call appends to the file: those that it delivers, if the file is
open. -/
def Call.appended (q : Call) (c : Client) : List Packet :=
  if c.outFile.closed then [] else (q.outcome crc cfg c).delivered

def Run.appended : Run → List Call → List Packet
  | _, [] => []
  | r, q :: qs => q.appended crc cfg r.client ++ Run.appended (r.serve crc cfg q) qs

/-- The replies of a call that finds `written` packets in the file. -/
def Run.emissions (r : Run) (written : Nat) (q : Call) : List Emission :=
  (q.early crc cfg r.client).map (⟨·, written⟩) ++
    ((q.outcome crc cfg r.client).replies.drop (q.early crc cfg r.client).length).map
      (⟨·, written + (q.appended crc cfg r.client).length⟩)

def Run.log : Run → Nat → List Call → List Emission
  | _, _, [] => []
  | r, written, q :: qs => r.emissions crc cfg written q ++
      Run.log (r.serve crc cfg q) (written + (q.appended crc cfg r.client).length) qs

/-- The call does not fail to write, and if it closes the transfer it does so quietly. -/
def Sound (r : Run) (q : Call) : Prop := Written crc cfg r q ∧ ClosesQuietly crc cfg r q

instance (r : Run) (q : Call) : Decidable (Sound crc cfg r q) :=
  inferInstanceAs (Decidable (_ ∧ _))

end Log

variable {crc : Crc} {cfg : HdCfg} {r : Run} {q : Call} {file : List Packet} {n : Nat}

/-- `window_low` counts the packets in the file, and the file is made of them. -/
structure Run.Counts (r : Run) (file : List Packet) : Prop where
  low : r.client.session.low = UInt8.ofNat file.length
  bytes : r.client.session.file.bytes = file.flatMap Packet.data
  pos : r.client.session.file.pos = r.client.session.file.bytes.length
  orderly : r.client.session.Orderly

theorem counts_start (id : UInt32) (address : Address) : (Run.start id address).Counts [] :=
  ⟨rfl, rfl, rfl, orderly_start id address⟩

theorem active_of_ready (hs : r.client.session.Orderly)
    (hne : (q.filled crc r.client.session).ready ≠ []) : r.client.active = true := by
  by_contra ha
  have hi : r.client.session.active = false := Bool.eq_false_iff.mpr ha
  apply hne
  rw [Call.filled, Session.foldl_accept_of_inactive hi, Session.ready_eq_nil_iff]
  exact hs.finished hi

theorem appended_eq (hs : r.client.session.Orderly) (hw : Written crc cfg r q) :
    q.appended crc cfg r.client = (q.outcome crc cfg r.client).delivered := by
  unfold Call.appended
  split_ifs with hclosed
  · by_contra hne
    have hready : (q.filled crc r.client.session).ready ≠ [] := by
      rw [← (serve_of_written hw).2]
      simpa using Ne.symm hne
    have hopen : r.client.outFile.closed = false := hs.opened (active_of_ready hs hready)
    rw [hopen] at hclosed
    cases hclosed
  · rfl

theorem counts_serve (h : r.Counts file) (hq : Sound crc cfg r q) :
    (r.serve crc cfg q).Counts (file ++ q.appended crc cfg r.client) := by
  obtain ⟨hs, hd⟩ := serve_of_written hq.1
  have horderly := (orderly_serve h.orderly hq.2).1
  obtain ⟨hlow, hfile, -⟩ := Session.foldl_accept (s := r.client.session) (contents crc q.datagrams)
  have hlow : (q.filled crc r.client.session).low = UInt8.ofNat file.length :=
    hlow.trans h.low
  have hfile : (q.filled crc r.client.session).file = r.client.session.file := hfile
  have happended := appended_eq h.orderly hq.1
  have hlen : (q.appended crc cfg r.client).length =
      (q.filled crc r.client.session).ready.length := by rw [happended, ← hd, List.length_map]
  have hdata : (q.filled crc r.client.session).ready.flatMap Content.data =
      (q.appended crc cfg r.client).flatMap Packet.data := by
    rw [happended, ← hd, flatMap_content]
  by_cases hne : (q.filled crc r.client.session).ready = []
  · rw [Session.flush, if_pos hne] at hs
    have hnil : q.appended crc cfg r.client = [] := by
      rw [hne] at hlen
      exact List.length_eq_zero_iff.mp hlen
    rw [hnil, List.append_nil]
    refine ⟨?_, ?_, ?_, horderly⟩
    · rw [hs, hlow]
    · rw [hs, hfile, h.bytes]
    · rw [hs, hfile, h.pos]
  · rw [Session.flush, if_neg hne] at hs
    have hopen : r.client.session.file.closed = false :=
      h.orderly.opened (active_of_ready h.orderly hne)
    refine ⟨?_, ?_, ?_, horderly⟩
    · rw [hs, List.length_append, Session.commit_low, hlow, seqAt, hlen, UInt8.ofNat_add]
    · rw [hs, Session.commit_bytes, hfile, File.write_of_open hopen, File.put_bytes_of_pos h.pos,
        h.bytes, List.flatMap_append, hdata]
    · rw [hs, Session.commit_bytes, Session.commit_pos, hfile, File.write_of_open hopen,
        File.put_pos h.pos]

theorem counts_serveAll (h : r.Counts file) {qs : List Call}
    (hqs : EachCall crc cfg (Sound crc cfg) r qs) :
    (Run.serveAll crc cfg r qs).Counts (file ++ Run.appended crc cfg r qs) := by
  induction qs generalizing r file with
  | nil => rwa [Run.appended, List.append_nil]
  | cons q qs ih =>
    rw [Run.appended, ← List.append_assoc]
    exact ih (counts_serve h hqs.1) hqs.2

theorem replies_eq (hw : Written crc cfg r q) :
    ((q.outcome crc cfg r.client).delivered = [] ∧
        (q.outcome crc cfg r.client).replies = q.early crc cfg r.client) ∨
      ∃ last ack, (q.outcome crc cfg r.client).delivered.getLast? = some last ∧
        (q.outcome crc cfg r.client).replies = q.early crc cfg r.client ++ [ack] ∧
        ack.toSend.type = .ack ∧
        ack.toSend.seqnum = (r.serve crc cfg q).client.window.windowLow ∧
        ack.toSend.timestamp = last.timestamp ∧
        pack crc (some ack.toSend) false = .ok ack.bytes := by
  by_cases hd : (q.outcome crc cfg r.client).delivered = []
  · left
    refine ⟨hd, ?_⟩
    obtain ⟨-, -, h, -⟩ | ⟨hl, -, -, -, h, -⟩ | ⟨-, -, -, -, -, h⟩ :=
      handleRequest_cases crc cfg q.env r.client q.decoded q.datagrams
    · exact h
    · exact absurd (h.symm.trans hd) hl
    · rw [Written, Call.outcome, h] at hw
      cases hw
  · right
    obtain ⟨last, ack, hlast, hrep, hsend, hpack⟩ := outcome_of_delivered hd
    refine ⟨last, ack, hlast, hrep, ?_, ?_, ?_, hpack⟩
    · rw [hsend]
      rfl
    · rw [hsend]
      rfl
    · rw [hsend]
      rfl

theorem early_ack (h : r.Counts file) {reply : Reply} (hm : reply ∈ q.early crc cfg r.client)
    (ht : reply.toSend.type = .ack) :
    reply.toSend.seqnum.toNat = file.length % 256 := by
  rcases exists_answers hm with hnil | ⟨before, d, after, -, hans⟩
  · cases hnil
  · rcases hans.kind with ⟨-, hseq⟩ | ⟨hn, -⟩
    · rw [hseq, foldl_intake_low, show r.client.window.windowLow = r.client.session.low from rfl,
        h.low, UInt8.toNat_ofNat']
    · rw [hn] at ht
      cases ht

/-- The emissions of a call: the early ones with the file as the call found it,
the last with the file as the call left it. -/
theorem emissions_eq (hw : Written crc cfg r q) :
    ∃ late, (q.outcome crc cfg r.client).replies = q.early crc cfg r.client ++ late ∧
      r.emissions crc cfg n q = (q.early crc cfg r.client).map (⟨·, n⟩) ++
        late.map (⟨·, n + (q.appended crc cfg r.client).length⟩) ∧
      ∀ reply ∈ late, reply.toSend.type = .ack ∧
        reply.toSend.seqnum = (r.serve crc cfg q).client.window.windowLow := by
  unfold Run.emissions
  rcases replies_eq hw with ⟨-, hr⟩ | ⟨last, ack, -, hr, ht, hseq, -⟩
  · refine ⟨[], ?_, ?_, ?_⟩
    · rw [hr, List.append_nil]
    · rw [hr, List.drop_length]
    · simp
  · refine ⟨[ack], hr, ?_, ?_⟩
    · rw [hr, List.drop_left]
    · simpa using ⟨ht, hseq⟩

theorem emissions_replies (hw : Written crc cfg r q) :
    (r.emissions crc cfg n q).map Emission.reply = (q.outcome crc cfg r.client).replies := by
  obtain ⟨late, hr, he, -⟩ := emissions_eq (n := n) hw
  simp [hr, he, Function.comp_def]

theorem emissions_between (hw : Written crc cfg r q) {e : Emission}
    (he : e ∈ r.emissions crc cfg n q) :
    n ≤ e.written ∧ e.written ≤ n + (q.appended crc cfg r.client).length := by
  obtain ⟨late, -, heq, -⟩ := emissions_eq (n := n) hw
  rw [heq, List.mem_append, List.mem_map, List.mem_map] at he
  rcases he with ⟨reply, -, rfl⟩ | ⟨reply, -, rfl⟩
  · exact ⟨le_rfl, Nat.le_add_right _ _⟩
  · exact ⟨Nat.le_add_right _ _, le_rfl⟩

theorem emissions_sorted (hw : Written crc cfg r q) :
    (r.emissions crc cfg n q).Pairwise fun a b => a.written ≤ b.written := by
  obtain ⟨late, -, heq, -⟩ := emissions_eq (n := n) hw
  rw [heq, List.pairwise_append, List.pairwise_map, List.pairwise_map]
  refine ⟨List.pairwise_of_forall fun _ _ => le_rfl, List.pairwise_of_forall fun _ _ => le_rfl, ?_⟩
  intro a ha b hb
  obtain ⟨-, -, rfl⟩ := List.mem_map.mp ha
  obtain ⟨-, -, rfl⟩ := List.mem_map.mp hb
  exact Nat.le_add_right _ _

theorem emissions_ack (h : r.Counts file) (hq : Sound crc cfg r q) {e : Emission}
    (he : e ∈ r.emissions crc cfg file.length q) (ht : e.reply.toSend.type = .ack) :
    e.reply.toSend.seqnum.toNat = e.written % 256 := by
  obtain ⟨late, -, heq, hlate⟩ := emissions_eq (n := file.length) hq.1
  rw [heq, List.mem_append, List.mem_map, List.mem_map] at he
  rcases he with ⟨reply, hmem, rfl⟩ | ⟨reply, hmem, rfl⟩
  · exact early_ack h hmem ht
  · rw [(hlate reply hmem).2,
      show (r.serve crc cfg q).client.window.windowLow =
        (r.serve crc cfg q).client.session.low from rfl, (counts_serve h hq).low,
      UInt8.toNat_ofNat', List.length_append]

theorem log_ge {qs : List Call} (hqs : EachCall crc cfg (Sound crc cfg) r qs) {e : Emission}
    (he : e ∈ r.log crc cfg n qs) : n ≤ e.written := by
  induction qs generalizing r n with
  | nil => cases he
  | cons q qs ih =>
    rcases List.mem_append.mp he with he | he
    · exact (emissions_between hqs.1.1 he).1
    · exact le_trans (Nat.le_add_right _ _) (ih hqs.2 he)

theorem log_sorted {qs : List Call} (hqs : EachCall crc cfg (Sound crc cfg) r qs) :
    (r.log crc cfg n qs).Pairwise fun a b => a.written ≤ b.written := by
  induction qs generalizing r n with
  | nil => exact List.Pairwise.nil
  | cons q qs ih =>
    refine List.pairwise_append.mpr ⟨emissions_sorted hqs.1.1, ih hqs.2, fun a ha b hb => ?_⟩
    exact le_trans (emissions_between hqs.1.1 ha).2 (log_ge hqs.2 hb)

theorem log_ack {qs : List Call} (h : r.Counts file) (hqs : EachCall crc cfg (Sound crc cfg) r qs)
    {e : Emission} (he : e ∈ r.log crc cfg file.length qs) (ht : e.reply.toSend.type = .ack) :
    e.reply.toSend.seqnum.toNat = e.written % 256 := by
  induction qs generalizing r file with
  | nil => cases he
  | cons q qs ih =>
    rcases List.mem_append.mp he with he | he
    · exact emissions_ack h hqs.1 he ht
    · rw [← List.length_append] at he
      exact ih (counts_serve h hqs.1) hqs.2 he

theorem nack_of_mem {reply : Reply} (hw : Written crc cfg r q)
    (hm : reply ∈ (q.outcome crc cfg r.client).replies) (ht : reply.toSend.type = .nack) :
    ∃ before d after, q.datagrams = before ++ d :: after ∧
      NackOf crc (intakeAll crc cfg q.env r.client q.decoded before) d reply ∧
      (intakeAll crc cfg q.env r.client q.decoded (before ++ [d])).replies =
        (intakeAll crc cfg q.env r.client q.decoded before).replies ++ [reply] ∧
      (intakeAll crc cfg q.env r.client q.decoded (before ++ [d])).client =
        (intakeAll crc cfg q.env r.client q.decoded before).client := by
  have hearly : reply ∈ q.early crc cfg r.client := by
    rcases replies_eq hw with ⟨-, hr⟩ | ⟨last, ack, -, hr, hack, -⟩
    · rwa [hr] at hm
    · rw [hr, List.mem_append, List.mem_singleton] at hm
      rcases hm with hm | rfl
      · exact hm
      · rw [hack] at ht
        cases ht
  rcases exists_answers hearly with hnil | ⟨before, d, after, hds, hans⟩
  · cases hnil
  · rcases hans.kind with ⟨ha, -⟩ | ⟨-, hn⟩
    · rw [ha] at ht
      cases ht
    · exact ⟨before, d, after, hds, hn, hans.replies, hans.client⟩

theorem reply_packed {reply : Reply} (hw : Written crc cfg r q)
    (hm : reply ∈ (q.outcome crc cfg r.client).replies) :
    (reply.toSend.type = .ack ∨ reply.toSend.type = .nack) ∧
      pack crc (some reply.toSend) false = .ok reply.bytes := by
  have hearly : ∀ reply ∈ q.early crc cfg r.client,
      (reply.toSend.type = .ack ∨ reply.toSend.type = .nack) ∧
        pack crc (some reply.toSend) false = .ok reply.bytes := by
    intro reply hm
    rcases exists_answers hm with hnil | ⟨before, d, after, -, hans⟩
    · cases hnil
    · exact ⟨hans.kind.imp And.left And.left, hans.bytes⟩
  rcases replies_eq hw with ⟨-, hr⟩ | ⟨last, ack, -, hr, hack, -, -, hpack⟩
  · rw [hr] at hm
    exact hearly reply hm
  · rw [hr, List.mem_append, List.mem_singleton] at hm
    rcases hm with hm | rfl
    · exact hearly reply hm
    · exact ⟨.inl hack, hpack⟩

/-- The acknowledgements of a run in which every write succeeds and transfers are closed
quietly.  Every ACK carries the number of packets in the file when it is made, which never
decreases along the run; a call that delivers makes one ACK for the delivery, as its last
reply; a NACK answers a truncated datagram. -/
theorem acks_sound (crc : Crc) (cfg : HdCfg) (id : UInt32) (address : Address) (qs : List Call)
    (h : EachCall crc cfg (fun r q => Written crc cfg r q ∧ ClosesQuietly crc cfg r q)
      (Run.start id address) qs) :
    (∀ e ∈ Run.log crc cfg (Run.start id address) 0 qs,
        e.reply.toSend.type = .ack → e.reply.toSend.seqnum.toNat = e.written % 256) ∧
      (Run.log crc cfg (Run.start id address) 0 qs).Pairwise (fun a b => a.written ≤ b.written) ∧
      ∀ before q after, qs = before ++ q :: after →
        let r := Run.serveAll crc cfg (Run.start id address) before
        let file := Run.appended crc cfg (Run.start id address) before
        let o := q.outcome crc cfg r.client
        r.client.outFile.bytes = file.flatMap Packet.data ∧
        (r.emissions crc cfg file.length q).map Emission.reply = o.replies ∧
        q.appended crc cfg r.client = o.delivered ∧
        (∀ reply ∈ o.replies, (reply.toSend.type = .ack ∨ reply.toSend.type = .nack) ∧
          pack crc (some reply.toSend) false = .ok reply.bytes) ∧
        (o.delivered = [] → o.replies = q.early crc cfg r.client) ∧
        (∀ last, o.delivered.getLast? = some last →
          ∃ ack, o.replies = q.early crc cfg r.client ++ [ack] ∧ ack.toSend.type = .ack ∧
            ack.toSend.seqnum.toNat = (file.length + o.delivered.length) % 256 ∧
            ack.toSend.timestamp = last.timestamp) ∧
        ∀ reply ∈ o.replies, reply.toSend.type = .nack →
          ∃ ds d ds', q.datagrams = ds ++ d :: ds' ∧
            NackOf crc (intakeAll crc cfg q.env r.client q.decoded ds) d reply ∧
            (intakeAll crc cfg q.env r.client q.decoded (ds ++ [d])).replies =
              (intakeAll crc cfg q.env r.client q.decoded ds).replies ++ [reply] ∧
            (intakeAll crc cfg q.env r.client q.decoded (ds ++ [d])).client =
              (intakeAll crc cfg q.env r.client q.decoded ds).client := by
  refine ⟨fun e he => log_ack (counts_start id address) h he, log_sorted h, ?_⟩
  rintro before q after rfl r file o
  have hr : r.Counts file := counts_serveAll (counts_start id address) h.left
  have hq : Sound crc cfg r q := h.step_holds
  have happended : q.appended crc cfg r.client = o.delivered := appended_eq hr.orderly hq.1
  refine ⟨hr.bytes, emissions_replies hq.1, happended, fun reply hm => reply_packed hq.1 hm, ?_, ?_,
    fun reply hm ht => nack_of_mem hq.1 hm ht⟩
  · intro hnil
    rcases replies_eq hq.1 with ⟨-, heq⟩ | ⟨last, -, hlast, -⟩
    · exact heq
    · rw [hnil] at hlast
      cases hlast
  · intro last hlast
    rcases replies_eq hq.1 with ⟨hnil, -⟩ | ⟨last', ack, hlast', heq, ht, hseq, hts, -⟩
    · rw [hnil] at hlast
      cases hlast
    · obtain rfl : last' = last := Option.some.inj (hlast'.symm.trans hlast)
      refine ⟨ack, heq, ht, ?_, hts⟩
      rw [hseq, show (r.serve crc cfg q).client.window.windowLow =
        (r.serve crc cfg q).client.session.low from rfl, (counts_serve hr hq).low,
        UInt8.toNat_ofNat', happended, List.length_append]

/-- Packet 1 first arrives truncated, then twice, and packet 0 in between. -/
def retransmission : List Call :=
  [Call.sending [{ dataPacket 1 7 [0x62] with truncated := true }, dataPacket 0 7 [0x61]]
      (by decide),
    Call.sending [dataPacket 1 8 [0x62], dataPacket 1 8 [0x62]] (by decide)]

theorem acks_sound_retransmission :
    EachCall bitwiseCrc ⟨31⟩
        (fun r q => Written bitwiseCrc ⟨31⟩ r q ∧ ClosesQuietly bitwiseCrc ⟨31⟩ r q)
        (Run.start 1 localhost) retransmission ∧
      ∀ e ∈ Run.log bitwiseCrc ⟨31⟩ (Run.start 1 localhost) 0 retransmission,
        e.reply.toSend.type = .ack → e.reply.toSend.seqnum.toNat = e.written % 256 := by
  have h : EachCall bitwiseCrc ⟨31⟩
      (fun r q => Written bitwiseCrc ⟨31⟩ r q ∧ ClosesQuietly bitwiseCrc ⟨31⟩ r q)
      (Run.start 1 localhost) retransmission := by
    decide +kernel
  exact ⟨h, (acks_sound bitwiseCrc ⟨31⟩ 1 localhost retransmission h).1⟩

example : (Run.log bitwiseCrc ⟨31⟩ (Run.start 1 localhost) 0 retransmission).map
    (fun e => (e.reply.toSend.type, e.reply.toSend.seqnum, e.written)) =
    [(.nack, 1, 0), (.ack, 1, 1), (.ack, 1, 1), (.ack, 2, 2)] := by
  decide +kernel

/-- The packet that ends the transfer comes together with one behind it, and then a request of
no datagrams.  The last ACK is for two packets when one is in the file. -/
theorem not_acks_sound :
    let qs := [Call.sending [dataPacket 0 7 [], dataPacket 1 8 [0x61]] (by decide),
      Call.sending [] (by decide)]
    EachCall bitwiseCrc ⟨31⟩ (Written bitwiseCrc ⟨31⟩) (Run.start 1 localhost) qs ∧
      (Run.serveAll bitwiseCrc ⟨31⟩ (Run.start 1 localhost) qs).client.outFile.bytes = [] ∧
      ∃ e ∈ Run.log bitwiseCrc ⟨31⟩ (Run.start 1 localhost) 0 qs,
        e.reply.toSend.type = .ack ∧ e.reply.toSend.seqnum = 2 ∧ e.written = 1 ∧
          e.reply.toSend.seqnum.toNat ≠ e.written % 256 := by
  decide +kernel

end Trtp
