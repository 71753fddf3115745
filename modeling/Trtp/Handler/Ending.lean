import Trtp.Handler.Calls

/-!
# The end of a transfer

A packet of length zero closes the file and makes the client inactive.  From then
on nothing should touch the file.  But only the loop over the datagrams looks at
`active`: the delivery loop runs for every request, and stops at the packet that
ends the transfer with whatever is buffered behind it still in the window.  The
next request writes that through the pointer to the stream that has been closed.

`QuietEnd` is the condition under which this cannot happen, and `end_final` shows
that it is the exact one.
-/

namespace Trtp

open Lib

/-- The packet at position `j` once the datagrams of the call are in: the one
already there, or the first accepted one for it. -/
def Call.front (crc : Crc) (q : Call) (c : Client) (j : Nat) : Option Content :=
  (c.session.pending j).or (Session.arrival c.session.low (contents crc q.datagrams) j)

/-- Nothing comes right behind the packet that ends the transfer. -/
def QuietEnd (crc : Crc) (r : Run) (q : Call) : Prop :=
  ∀ k < maxWindowSize, (∀ j < k, (q.front crc r.client j).map Content.isEnd = some false) →
    (q.front crc r.client k).map Content.isEnd = some true → q.front crc r.client (k + 1) = none

instance (crc : Crc) (r : Run) (q : Call) : Decidable (QuietEnd crc r q) :=
  inferInstanceAs (Decidable (∀ k < _, _))

def SameEnd (a b : Client) : Prop :=
  a.outFile = b.outFile ∧ a.window.windowLow = b.window.windowLow ∧ a.transferred = b.transferred

/-- The transfer is over and nothing is left to deliver. -/
structure Session.Over (s : Session) : Prop where
  inactive : s.active = false
  empty : s.pending 0 = none

section

variable {crc : Crc} {cfg : HdCfg} {r : Run} {q : Call} {s : Session}

theorem Session.Over.step (h : s.Over) (accepted : Nat) (cs : List Content) :
    s.step accepted cs = s := by
  rw [Session.step, foldl_accept_of_inactive h.inactive, Session.deliver,
    if_pos (ready_eq_nil_iff.mpr h.empty)]

theorem serveAll_over (h : r.client.session.Over) (qs : List Call) :
    (qs.foldl (Run.serve crc cfg) r).client.session = r.client.session := by
  refine foldl_invariant (I := fun t : Run => t.client.session = r.client.session) ?_ rfl qs
  intro t q ht
  rw [serve_session, ht, h.step]

theorem sameEnd_of_session {a b : Client} (h : a.session = b.session) : SameEnd a b :=
  ⟨congrArg Session.file h, congrArg Session.low h, congrArg Session.transferred h⟩

theorem pending_filled (ha : r.client.active = true) {j : Nat} (hj : j < 32) :
    (q.filled crc r.client.session).pending j = q.front crc r.client j :=
  Session.pending_foldl_accept ha _ hj

theorem closing (ha : r.client.active = true) (hc : (r.serve crc cfg q).client.active = false) :
    (q.filled crc r.client.session).ready.any Content.isEnd = true ∧
      (r.serve crc cfg q).client.session =
        (q.filled crc r.client.session).commit (q.filled crc r.client.session).ready := by
  have hfill : (q.filled crc r.client.session).active = true :=
    (Session.foldl_accept _).2.2.1.trans ha
  have hserve : (r.serve crc cfg q).client.session =
      (q.filled crc r.client.session).deliver q.env.accepted := serve_session r q
  have hact : ((q.filled crc r.client.session).deliver q.env.accepted).active = false := by
    rw [← hserve]
    exact hc
  rw [hserve]
  unfold Session.deliver at hact ⊢
  split at hact
  · rw [hfill] at hact
    cases hact
  · split at hact
    · rename_i hne hwr
      refine ⟨?_, by rw [if_neg hne, if_pos hwr]⟩
      have : ((q.filled crc r.client.session).active &&
        !((q.filled crc r.client.session).ready.any Content.isEnd &&
          (q.filled crc r.client.session).active)) = false := hact
      rw [hfill] at this
      simpa using this
    · have : (q.filled crc r.client.session).active = false := hact
      rw [hfill] at this
      cases this

theorem quietEnd_iff (ha : r.client.active = true)
    (hend : (q.filled crc r.client.session).ready.any Content.isEnd = true) :
    QuietEnd crc r q ↔
      (q.filled crc r.client.session).pending (q.filled crc r.client.session).ready.length =
        none := by
  have hw : maxWindowSize = 31 := rfl
  have hle : (q.filled crc r.client.session).ready.length ≤ maxWindowSize :=
    Session.ready_length_le
  obtain ⟨a, ham, hae⟩ := List.any_eq_true.mp hend
  obtain ⟨k, hk⟩ := List.getElem?_of_mem ham
  have hkl : k + 1 = (q.filled crc r.client.session).ready.length := gapless_stop_last hk hae
  have hget : ∀ j ≤ k, (q.filled crc r.client.session).ready[j]? = q.front crc r.client j := by
    intro j hj
    rw [Session.ready_getElem? (by omega), pending_filled ha (by omega)]
  have hstop : (q.front crc r.client k).map Content.isEnd = some true := by
    rw [← hget k le_rfl, hk, Option.map_some, hae]
  have hopen : ∀ j < k, (q.front crc r.client j).map Content.isEnd = some false := by
    intro j hj
    have hjl : j < (q.filled crc r.client.session).ready.length := by omega
    rw [← hget j (by omega), List.getElem?_eq_getElem hjl, Option.map_some]
    cases he : Content.isEnd (q.filled crc r.client.session).ready[j] with
    | false => rfl
    | true =>
      have : j + 1 = (q.filled crc r.client.session).ready.length :=
        gapless_stop_last (List.getElem?_eq_getElem hjl) he
      omega
  rw [← hkl, pending_filled ha (by omega)]
  constructor
  · intro h
    exact h k (by omega) hopen hstop
  · intro h k' hk' hopen' hstop'
    -- The first packet that ends the transfer is at one place only.
    have hk'' : k' = k := by
      rcases Nat.lt_trichotomy k' k with hlt | heq | hgt
      · rw [hopen k' hlt] at hstop'
        cases hstop'
      · exact heq
      · rw [hopen' k hgt] at hstop
        cases hstop
    rw [hk'']
    exact h

/-- A call that closes the transfer leaves nothing to deliver exactly when nothing
comes right behind the end. -/
theorem over_iff (ha : r.client.active = true) (hc : (r.serve crc cfg q).client.active = false) :
    (r.serve crc cfg q).client.session.Over ↔ QuietEnd crc r q := by
  obtain ⟨hend, hs⟩ := closing ha hc
  have hle : (q.filled crc r.client.session).ready.length ≤ maxWindowSize :=
    Session.ready_length_le
  have hlt : (q.filled crc r.client.session).ready.length + 0 < 32 := Nat.lt_succ_of_le hle
  have hpend : (r.serve crc cfg q).client.session.pending 0 =
      (q.filled crc r.client.session).pending (q.filled crc r.client.session).ready.length := by
    rw [hs, Session.pending_commit _ (Nat.le_succ_of_le hle) (by decide), if_pos hlt, Nat.add_zero]
  rw [quietEnd_iff ha hend, ← hpend]
  exact ⟨fun h => h.empty, fun h => ⟨hc, h⟩⟩

/-- The file is open as long as the transfer lasts, and nothing is left to deliver after it. -/
structure Session.Orderly (s : Session) : Prop where
  opened : s.active = true → s.file.closed = false
  finished : s.active = false → s.pending 0 = none

/-- A call that closes the transfer meets `QuietEnd`. -/
def ClosesQuietly (crc : Crc) (cfg : HdCfg) (r : Run) (q : Call) : Prop :=
  r.client.active = true → (r.serve crc cfg q).client.active = false → QuietEnd crc r q

instance (crc : Crc) (cfg : HdCfg) (r : Run) (q : Call) : Decidable (ClosesQuietly crc cfg r q) :=
  inferInstanceAs (Decidable (_ → _ → _))

theorem orderly_start (id : UInt32) (address : Address) :
    (Run.start id address).client.session.Orderly :=
  ⟨fun _ => rfl, fun h => by cases h⟩

/-- As long as transfers are closed quietly no byte is written to a closed file. -/
theorem orderly_serve (hs : r.client.session.Orderly) (hq : ClosesQuietly crc cfg r q) :
    (r.serve crc cfg q).client.session.Orderly ∧
      (r.serve crc cfg q).client.outFile.late = r.client.outFile.late := by
  cases ha : r.client.active with
  | false =>
    have hover : r.client.session.Over := ⟨ha, hs.finished ha⟩
    have hsame : (r.serve crc cfg q).client.session = r.client.session := by
      rw [serve_session, hover.step]
    exact ⟨hsame ▸ hs, congrArg (File.late ∘ Session.file) hsame⟩
  | true =>
    have hover : (r.serve crc cfg q).client.active = false →
        (r.serve crc cfg q).client.session.pending 0 = none := fun hi =>
      ((over_iff ha hi).mpr (hq ha hi)).empty
    obtain ⟨-, hfile, -⟩ := Session.foldl_accept (s := r.client.session) (contents crc q.datagrams)
    have hopen : (q.filled crc r.client.session).file.closed = false := by
      rw [Call.filled, hfile]
      exact hs.opened ha
    have hserve : (r.serve crc cfg q).client.session =
        (q.filled crc r.client.session).deliver q.env.accepted := serve_session r q
    have hlate : (r.serve crc cfg q).client.outFile.late =
        ((q.filled crc r.client.session).deliver q.env.accepted).file.late :=
      congrArg (File.late ∘ Session.file) hserve
    have hold : (q.filled crc r.client.session).file.late = r.client.outFile.late :=
      congrArg File.late hfile
    rw [hlate]
    refine ⟨⟨fun hact => ?_, hover⟩, ?_⟩
    · rw [hserve] at hact ⊢
      unfold Session.deliver at hact ⊢
      split_ifs at hact ⊢
      · exact hopen
      · exact Session.commit_opened hopen hact
      · exact (File.fseekSet_closed _ _).trans ((File.write_closed _ _).trans hopen)
    · unfold Session.deliver
      split_ifs
      · exact hold
      · exact (Session.commit_late hopen _).trans hold
      · exact (Session.lose_late hopen _ _).trans hold

theorem exists_moves (crc : Crc) (cfg : HdCfg) (hi : r.client.active = false)
    (hp : r.client.session.pending 0 ≠ none) :
    ∃ q : Call, (r.serve crc cfg q).client.window.windowLow ≠ r.client.window.windowLow := by
  let q : Call :=
    { env := { accepted := (r.client.session.ready.flatMap Content.data).length
               toSend := initPacket, remove := false, now := 0 }
      decoded := initPacket, datagrams := [], num_le := Nat.zero_le _ }
  refine ⟨q, ?_⟩
  have hne : r.client.session.ready ≠ [] := fun h => hp (Session.ready_eq_nil_iff.mp h)
  have hserve : (r.serve crc cfg q).client.session =
      r.client.session.commit r.client.session.ready := by
    rw [serve_session, Session.step, Session.foldl_accept_of_inactive hi, Session.deliver,
      if_neg hne, if_pos (show Session.writes _ _ from le_refl _)]
  have hlow : (r.serve crc cfg q).client.window.windowLow =
      seqAt r.client.window.windowLow r.client.session.ready.length := congrArg Session.low hserve
  have hpos := List.length_pos_iff.mpr hne
  have hle : r.client.session.ready.length ≤ 31 := Session.ready_length_le
  have hlt := r.client.window.windowLow.toNat_lt
  intro heq
  have := congrArg UInt8.toNat (hlow.symm.trans heq)
  rw [seqAt_toNat] at this
  omega

end

/-- The end of a transfer.  In a run whose calls all meet `QuietEnd`, a client that
has become inactive keeps its file, `window_low` and `transferred`.  The condition
is exact: the call that closes the transfer is final, whatever requests come
later, if and only if it meets the condition. -/
theorem end_final (crc : Crc) (cfg : HdCfg) (c : Client) (hc : c.active = true)
    (qs : List Call) :
    (EachCall crc cfg (QuietEnd crc) ⟨c, []⟩ qs →
        ∀ before after, qs = before ++ after →
          (Run.serveAll crc cfg ⟨c, []⟩ before).client.active = false →
          SameEnd (Run.serveAll crc cfg ⟨c, []⟩ qs).client
            (Run.serveAll crc cfg ⟨c, []⟩ before).client) ∧
      ∀ before q, qs = before ++ [q] →
        (Run.serveAll crc cfg ⟨c, []⟩ before).client.active = true →
        (Run.serveAll crc cfg ⟨c, []⟩ qs).client.active = false →
        ((∀ after, SameEnd (Run.serveAll crc cfg ⟨c, []⟩ (qs ++ after)).client
            (Run.serveAll crc cfg ⟨c, []⟩ qs).client) ↔
          QuietEnd crc (Run.serveAll crc cfg ⟨c, []⟩ before) q) := by
  constructor
  · rintro h before after rfl hi
    have hinv : (Run.serveAll crc cfg ⟨c, []⟩ before).client.active = true ∨
        (Run.serveAll crc cfg ⟨c, []⟩ before).client.session.Over := by
      refine h.left.invariant
        (I := fun r : Run => r.client.active = true ∨ r.client.session.Over) ?_ (.inl hc)
      rintro r q (ha | hover) hq
      · cases hs : (r.serve crc cfg q).client.active with
        | true => exact .inl rfl
        | false => exact .inr ((over_iff ha hs).mpr hq)
      · exact .inr (by rw [serve_session, hover.step]; exact hover)
    have hover := hinv.resolve_left (by rw [hi]; exact Bool.false_ne_true)
    rw [Run.serveAll, List.foldl_append]
    exact sameEnd_of_session (serveAll_over hover after)
  · rintro before q rfl ha hi
    have hserve : Run.serveAll crc cfg ⟨c, []⟩ (before ++ [q]) =
        (Run.serveAll crc cfg ⟨c, []⟩ before).serve crc cfg q := by
      rw [Run.serveAll, List.foldl_append]
      rfl
    rw [hserve] at hi
    rw [← over_iff ha hi, ← hserve]
    constructor
    · intro hsame
      refine ⟨by rw [hserve]; exact hi, ?_⟩
      by_contra hp
      obtain ⟨q', hq'⟩ := exists_moves crc cfg (by rw [hserve]; exact hi) hp
      apply hq'
      have := (hsame [q']).2.1
      rwa [Run.serveAll, List.foldl_append] at this
    · intro hover after
      rw [Run.serveAll, List.foldl_append]
      exact sameEnd_of_session (serveAll_over hover after)

def oneByte : List Call :=
  [Call.sending [dataPacket 1 7 []] (by decide), Call.sending [dataPacket 0 7 [0x61]] (by decide),
    Call.sending [dataPacket 2 8 [0x62]] (by decide)]

theorem end_final_oneByte :
    EachCall bitwiseCrc ⟨31⟩ (QuietEnd bitwiseCrc) ⟨initializeClient 1 localhost, []⟩ oneByte ∧
      (Run.serveAll bitwiseCrc ⟨31⟩ ⟨initializeClient 1 localhost, []⟩
        (oneByte.take 2)).client.active = false ∧
      SameEnd (Run.serveAll bitwiseCrc ⟨31⟩ ⟨initializeClient 1 localhost, []⟩ oneByte).client
        (Run.serveAll bitwiseCrc ⟨31⟩ ⟨initializeClient 1 localhost, []⟩
          (oneByte.take 2)).client := by
  have h : EachCall bitwiseCrc ⟨31⟩ (QuietEnd bitwiseCrc) ⟨initializeClient 1 localhost, []⟩
      oneByte := by
    decide +kernel
  have hi : (Run.serveAll bitwiseCrc ⟨31⟩ ⟨initializeClient 1 localhost, []⟩
      (oneByte.take 2)).client.active = false := by
    decide +kernel
  exact ⟨h, hi, (end_final bitwiseCrc ⟨31⟩ (initializeClient 1 localhost) rfl oneByte).1 h
    (oneByte.take 2) (oneByte.drop 2) (List.take_append_drop 2 oneByte).symm hi⟩

/-- The packet that ends the transfer and one behind it, in one request.  The next
request, of no datagrams, writes the second packet to the closed stream. -/
theorem not_end_final :
    let c := initializeClient 1 localhost
    let qs := [Call.sending [dataPacket 0 7 [], dataPacket 1 8 [0x61]] (by decide)]
    let closed := (Run.serveAll bitwiseCrc ⟨31⟩ ⟨c, []⟩ qs).client
    let later := (Run.serveAll bitwiseCrc ⟨31⟩ ⟨c, []⟩
      (qs ++ [Call.sending [] (by decide)])).client
    closed.active = false ∧ closed.outFile.closed = true ∧
      closed.outFile.late = [] ∧ later.outFile.late = [0x61] ∧
      closed.window.windowLow = 1 ∧ later.window.windowLow = 2 ∧
      closed.transferred = 0 ∧ later.transferred = 1 := by
  decide +kernel

end Trtp
