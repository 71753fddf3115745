import Mathlib.Algebra.GroupWithZero.Nat
import Mathlib.Algebra.Order.BigOperators.Group.List
import Mathlib.Algebra.Order.Group.Nat
import Mathlib.Data.List.Count
import Trtp.Cli.Assignment

/-!
# The two sides of a line

The file is documented as a list of receivers, a colon and a list of handlers on each line.
`strtok` does not read it so: it skips a colon at the beginning of a line, so that the
handlers behind it become receivers, and it stops after the second field, so that what
follows a second colon is not looked at.

`written` has the pieces of the sides as they are documented.  The streams are right exactly
when neither of the two happens to a number that matters (`assigned_iff`).  A line may also
have nothing on one of its sides, and its stream is then without receivers or without
handlers (`bothEnds_iff`).
-/

namespace Trtp.Cli

open Lib

/-- The pieces on the side of the first colon where the threads of the kind belong. -/
def written : Role → CString → List CString
  | .receiver, line => tokens (· == comma) (line.takeWhile fun c => !(c == colon))
  | .handler, line =>
    tokens (fun c => c == colon || c == comma) (line.dropWhile fun c => !(c == colon))

/-- The pieces behind the second field, which the parser does not look at. -/
def ignored (line : CString) : List CString :=
  ((fields line).drop 2).flatMap (tokens (· == comma))

theorem flatMap_two {f : CString → List CString} (hf : f [] = []) (l : List CString) :
    l.flatMap f = f (l[0]?.getD []) ++ (f (l[1]?.getD []) ++ (l.drop 2).flatMap f) := by
  match l with
  | [] => simp [hf]
  | [a] => simp [hf]
  | a :: b :: l => simp

section Line

variable {line : CString}

theorem written_of_colon (h : line.head? = some colon) :
    written .receiver line = [] ∧
      written .handler line = pieces .receiver line ++ (pieces .handler line ++ ignored line) := by
  obtain ⟨c, line, rfl⟩ := List.exists_cons_of_ne_nil (l := line) (by rintro rfl; cases h)
  rw [List.head?_cons, Option.some.injEq] at h
  subst h
  constructor
  · simp [written]
  · rw [written, List.dropWhile_cons_of_neg (by simp), tokens_or]
    exact flatMap_two (tokens_nil _) _

theorem fields_of_ne_colon (hne : line ≠ []) (h : line.head? ≠ some colon) :
    fields line = line.takeWhile (fun c => !(c == colon)) ::
      tokens (· == colon) (line.dropWhile fun c => !(c == colon)) := by
  obtain ⟨c, rest, rfl⟩ := List.exists_cons_of_ne_nil hne
  have hc : (c == colon) = false := by simpa using h
  set line := c :: rest with hline
  have hnext : nextToken (· == colon) line = some (line.takeWhile (fun c => !(c == colon)),
      (line.dropWhile fun c => !(c == colon)).tail) := by
    simp [nextToken, hline, hc]
  rw [fields, tokens_eq_cons hnext]
  congr 1
  cases hrest : line.dropWhile fun c => !(c == colon) with
  | nil => rfl
  | cons d rest =>
    have hd : (d == colon) = true := by
      have := List.head?_dropWhile_not (fun c => !(c == colon)) line
      rw [hrest] at this
      simpa using this
    exact (tokens_cons (· == colon) hd rest).symm

theorem written_of_ne_colon (h : line.head? ≠ some colon) :
    written .receiver line = pieces .receiver line ∧
      written .handler line = pieces .handler line ++ ignored line := by
  by_cases hne : line = []
  · subst hne
    exact ⟨rfl, rfl⟩
  · have hfields := fields_of_ne_colon hne h
    constructor
    · simp [written, pieces, side, hfields]
    · rw [written, tokens_or]
      have := flatMap_two (f := tokens (· == comma)) (tokens_nil _) (fields line)
      simp only [hfields, List.flatMap_cons, List.getElem?_cons_zero, Option.getD_some] at this
      rw [List.append_cancel_left this]
      simp [pieces, side, ignored, hfields]

end Line

/-! ## The streams as documented -/

/-- How often a number is there. -/
def occurrences (f : CString → List CString) (lines : List CString) (id : ℕ) : ℕ :=
  (lines.flatMap f).countP fun piece => number piece == some id

/-- Every thread is listed once, on its side of the colon, and has the index of the line as
its stream. -/
structure Assigned (config : ConfigRcv) (lines : List CString) (s : Streams) : Prop where
  count_pos : 1 ≤ s.streamCount
  count_le : s.streamCount ≤ config.receiveNum
  once : ∀ role, ∀ id < config.num role, occurrences (written role) lines id = 1
  stream : ∀ role, ∀ id < config.num role, ∃ k < s.streamCount, s.stream role id = some k ∧
    ∃ line, lines[k]? = some line ∧ ∃ piece ∈ written role line, number piece = some id

/-- The parser reads the line as it is documented: there are no handlers that it takes for
receivers, and no handlers that it does not see. -/
def SidesKept (config : ConfigRcv) (line : CString) : Prop :=
  (line.head? = some colon → pieces .receiver line = []) ∧
    ∀ piece ∈ ignored line, ∀ id, number piece = some id → config.handleNum ≤ id

section Occurrences

variable {f g : CString → List CString} {lines : List CString} {line : CString} {id : ℕ}

theorem occurrences_eq_sum (f : CString → List CString) (lines : List CString) (id : ℕ) :
    occurrences f lines id =
      (lines.map fun line => (f line).countP fun piece => number piece == some id).sum := by
  rw [occurrences, List.countP_flatMap]
  rfl

/-- A line on which the number is there more often. -/
theorem occurrences_lt
    (hle : ∀ l ∈ lines, (f l).countP (fun piece => number piece == some id) ≤
      (g l).countP fun piece => number piece == some id)
    (hline : line ∈ lines)
    (hlt : (f line).countP (fun piece => number piece == some id) <
      (g line).countP fun piece => number piece == some id) :
    occurrences f lines id < occurrences g lines id := by
  rw [occurrences_eq_sum, occurrences_eq_sum]
  exact List.sum_lt_sum _ _ hle ⟨line, hline, hlt⟩

theorem occurrences_congr
    (h : ∀ l ∈ lines, (f l).countP (fun piece => number piece == some id) =
      (g l).countP fun piece => number piece == some id) :
    occurrences f lines id = occurrences g lines id := by
  rw [occurrences_eq_sum, occurrences_eq_sum, List.map_congr_left h]

end Occurrences

section Accepted

variable {config : ConfigRcv} {lines : List CString} {s : Streams} {role : Role}

theorem Accepted.occurrences_pieces (h : Accepted config lines s) {id : ℕ}
    (hid : id < config.num role) : occurrences (pieces role) lines id = 1 := by
  obtain ⟨ids, hids, hperm⟩ := h.complete.each role
  have hmap : occurrences (pieces role) lines id =
      ((lines.flatMap (pieces role)).map number).count (some id) := by
    rw [occurrences, List.count, List.countP_map]
    rfl
  rw [hmap, hids, List.count_map_of_injective _ _ (Option.some_injective ℕ)]
  rw [hperm.count_eq]
  exact List.count_eq_one_of_mem List.nodup_range (List.mem_range.mpr hid)

theorem Accepted.number_of_mem (h : Accepted config lines s) {line piece : CString}
    (hline : line ∈ lines) (hpiece : piece ∈ pieces role line) :
    ∃ id < config.num role, number piece = some id := by
  obtain ⟨ids, hids, hperm⟩ := h.complete.each role
  have hmem : number piece ∈ (lines.flatMap (pieces role)).map number :=
    List.mem_map_of_mem (List.mem_flatMap.mpr ⟨line, hline, hpiece⟩)
  rw [hids] at hmem
  obtain ⟨id, hid, heq⟩ := List.mem_map.mp hmem
  exact ⟨id, List.mem_range.mp (hperm.mem_iff.mp hid), heq.symm⟩

theorem countP_pos_of_number {l : List CString} {piece : CString} {id : ℕ} (hpiece : piece ∈ l)
    (hnumber : number piece = some id) : 0 < l.countP fun piece => number piece == some id :=
  List.countP_pos_iff.mpr ⟨piece, hpiece, by simp [hnumber]⟩

/-- A leading colon turns handlers into receivers, which are then missing on their side. -/
theorem Accepted.receivers_kept (h : Accepted config lines s) (ha : Assigned config lines s) :
    ∀ line ∈ lines, line.head? = some colon → pieces .receiver line = [] := by
  intro line hline hcolon
  by_contra hne
  obtain ⟨piece, hpiece⟩ := List.exists_mem_of_ne_nil _ hne
  obtain ⟨id, hid, hnumber⟩ := h.number_of_mem hline hpiece
  have hlt : occurrences (written .receiver) lines id <
      occurrences (pieces .receiver) lines id := by
    refine occurrences_lt (fun l _ => ?_) hline ?_
    · by_cases hl : l.head? = some colon
      · rw [(written_of_colon hl).1]
        exact Nat.zero_le _
      · rw [(written_of_ne_colon hl).1]
    · rw [(written_of_colon hcolon).1]
      exact countP_pos_of_number hpiece hnumber
  rw [ha.once .receiver id hid, h.occurrences_pieces hid] at hlt
  exact lt_irrefl 1 hlt

theorem written_handler {line : CString}
    (h : line.head? = some colon → pieces .receiver line = []) :
    written .handler line = pieces .handler line ++ ignored line := by
  by_cases hcolon : line.head? = some colon
  · rw [(written_of_colon hcolon).2, h hcolon, List.nil_append]
  · exact (written_of_ne_colon hcolon).2

theorem written_receiver {line : CString}
    (h : line.head? = some colon → pieces .receiver line = []) :
    written .receiver line = pieces .receiver line := by
  by_cases hcolon : line.head? = some colon
  · rw [(written_of_colon hcolon).1, h hcolon]
  · exact (written_of_ne_colon hcolon).1

/-- A number behind the second field is a handler that is there twice. -/
theorem Accepted.handlers_kept (h : Accepted config lines s) (ha : Assigned config lines s) :
    ∀ line ∈ lines, ∀ piece ∈ ignored line, ∀ id, number piece = some id →
      config.handleNum ≤ id := by
  have hkept := h.receivers_kept ha
  intro line hline piece hpiece id hnumber
  by_contra hid
  have hid : id < config.num .handler := not_le.mp hid
  have hlt : occurrences (pieces .handler) lines id < occurrences (written .handler) lines id := by
    refine occurrences_lt (fun l hl => ?_) hline ?_
    · rw [written_handler (hkept l hl), List.countP_append]
      exact Nat.le_add_right _ _
    · rw [written_handler (hkept line hline), List.countP_append]
      have := countP_pos_of_number hpiece hnumber
      omega
  rw [ha.once .handler id hid, h.occurrences_pieces hid] at hlt
  exact lt_irrefl 1 hlt

theorem Accepted.occurrences_written (h : Accepted config lines s)
    (hkept : ∀ line ∈ lines, SidesKept config line) {id : ℕ} (hid : id < config.num role) :
    occurrences (written role) lines id = 1 := by
  rw [← h.occurrences_pieces hid]
  refine occurrences_congr fun line hline => ?_
  obtain ⟨hreceiver, hignored⟩ := hkept line hline
  cases role with
  | receiver => rw [written_receiver hreceiver]
  | handler =>
    rw [written_handler hreceiver, List.countP_append, Nat.add_eq_left, List.countP_eq_zero]
    intro piece hpiece hnumber
    exact absurd (hignored piece hpiece id (by simpa using hnumber)) (not_le.mpr hid)

theorem Accepted.stream_of (h : Accepted config lines s) {id : ℕ} (hid : id < config.num role) :
    ∃ k < s.streamCount, s.stream role id = some k ∧
      ∃ line, lines[k]? = some line ∧ Lists role line id := by
  obtain ⟨k, hk⟩ := h.all role id hid
  obtain ⟨line, hline, hlists⟩ := (h.follows role id hid k).mp hk
  refine ⟨k, ?_, hk, line, hline, hlists⟩
  rw [h.count]
  exact (List.getElem?_eq_some_iff.mp hline).1

theorem Accepted.assigned_iff (h : Accepted config lines s) :
    Assigned config lines s ↔ ∀ line ∈ lines, SidesKept config line := by
  constructor
  · intro ha line hline
    exact ⟨h.receivers_kept ha line hline, h.handlers_kept ha line hline⟩
  · intro hkept
    refine ⟨?_, h.count.trans_le h.count_le, fun role id => h.occurrences_written hkept, ?_⟩
    · rw [h.count]
      exact List.length_pos_iff.mpr h.nonempty
    · intro role id hid
      obtain ⟨k, hk, hstream, line, hline, piece, hpiece, hnumber⟩ := h.stream_of hid
      refine ⟨k, hk, hstream, line, hline, piece, ?_, hnumber⟩
      obtain ⟨hreceiver, -⟩ := hkept line (List.mem_of_getElem? hline)
      cases role with
      | receiver => rwa [written_receiver hreceiver]
      | handler =>
        rw [written_handler hreceiver]
        exact List.mem_append_left _ hpiece

theorem Accepted.ends_iff (h : Accepted config lines s) :
    (∀ k < s.streamCount, ∀ role, ∃ id < config.num role, s.stream role id = some k) ↔
      ∀ line ∈ lines, ∀ role, pieces role line ≠ [] := by
  constructor
  · intro hends line hline role hnil
    obtain ⟨k, hk⟩ := List.mem_iff_getElem?.mp hline
    have hlt : k < s.streamCount := h.count ▸ (List.getElem?_eq_some_iff.mp hk).1
    obtain ⟨id, hid, hstream⟩ := hends k hlt role
    obtain ⟨line', hline', piece, hpiece, -⟩ := (h.follows role id hid k).mp hstream
    rw [hk, Option.some.injEq] at hline'
    rw [← hline', hnil] at hpiece
    cases hpiece
  · intro hpieces k hk role
    rw [h.count] at hk
    have hline : lines[k]? = some lines[k] := List.getElem?_eq_getElem hk
    have hmem : lines[k] ∈ lines := List.getElem_mem hk
    obtain ⟨piece, hpiece⟩ := List.exists_mem_of_ne_nil _ (hpieces _ hmem role)
    obtain ⟨id, hid, hnumber⟩ := h.number_of_mem hmem hpiece
    exact ⟨id, hid, (h.follows role id hid k).mpr ⟨_, hline, piece, hpiece, hnumber⟩⟩

end Accepted

/-! ## The parser -/

section Parser

variable (config : ConfigRcv) (file : List UInt8) (s : Streams)

/-- Whatever the file, every thread has one of the streams that `main` opens. -/
theorem mainStreams_lt (sequential : Bool) {role : Role} {id : ℕ} (hid : id < config.num role) :
    ∃ k < (mainStreams config sequential (some file) s).streamCount,
      (mainStreams config sequential (some file) s).stream role id = some k := by
  have hfallback : ∀ t, ∃ k < (fallback config t).streamCount,
      (fallback config t).stream role id = some k := by
    intro t
    refine ⟨0, ?_, setAll_both config (some 0) _ (by decide) role hid⟩
    rw [fallback, (setAll_stream ..).1, (setAll_stream ..).1]
    exact Nat.one_pos
  dsimp only [mainStreams]
  split_ifs with _ herror
  · exact hfallback s
  · exact hfallback _
  · obtain ⟨k, hk, hstream, -⟩ := (parseStreamsFile_ok (by simpa using herror)).stream_of hid
    exact ⟨k, hk, hstream⟩

/-- What the streams of a file are to be: those of a file that is accepted are as
documented, and `main` finds a stream for every thread in any case. -/
def StreamsRight : Prop :=
  ((parseStreamsFile config (some file) s).error = none →
      Assigned config (lines file) (parseStreamsFile config (some file) s).streams) ∧
    ∀ role, ∀ id < config.num role,
      ∃ k < (mainStreams config false (some file) s).streamCount,
        (mainStreams config false (some file) s).stream role id = some k

/-- The streams are right exactly when the file is not complete, which the parser notices, or
each line is read as it is documented. -/
theorem streamsRight_iff :
    StreamsRight config file s ↔
      (Complete config (lines file) → ∀ line ∈ lines file, SidesKept config line) := by
  rw [← parseStreamsFile_ok_iff (s := s)]
  constructor
  · intro h hok
    exact (parseStreamsFile_ok hok).assigned_iff.mp (h.1 hok)
  · intro h
    refine ⟨fun hok => (parseStreamsFile_ok hok).assigned_iff.mpr (h hok), ?_⟩
    intro role id hid
    exact mainStreams_lt config file s false hid

/-- Every stream of a file that is accepted has a receiver and a handler. -/
def BothEnds : Prop :=
  (parseStreamsFile config (some file) s).error = none →
    ∀ k < (parseStreamsFile config (some file) s).streams.streamCount, ∀ role,
      ∃ id < config.num role,
        (parseStreamsFile config (some file) s).streams.stream role id = some k

theorem bothEnds_iff :
    BothEnds config file s ↔
      (Complete config (lines file) → ∀ line ∈ lines file, ∀ role, pieces role line ≠ []) := by
  rw [← parseStreamsFile_ok_iff (s := s)]
  constructor
  · intro h hok
    exact (parseStreamsFile_ok hok).ends_iff.mp (h hok)
  · intro h hok
    exact (parseStreamsFile_ok hok).ends_iff.mpr (h hok)

end Parser

def twoReceivers : ConfigRcv := { receiveNum := 2, handleNum := 1 }

def unread : Streams := { stream := fun _ _ => none, streamCount := 0, writes := [] }

/-- `0:0` and `:1`.  The second line has a handler and no receiver, and is accepted as the
line of receiver 1. -/
def colonFirst : List UInt8 := ['0', ':', '0', '\n', ':', '1', '\n'].map Char.toUInt8

theorem not_streamsRight_colonFirst :
    (parseStreamsFile twoReceivers (some colonFirst) unread).error = none ∧
      ¬ StreamsRight twoReceivers colonFirst unread := by
  have hok : (parseStreamsFile twoReceivers (some colonFirst) unread).error = none := by
    decide +kernel
  refine ⟨hok, fun h => ?_⟩
  have honce := (h.1 hok).once .receiver 1 (by decide)
  have hzero : occurrences (written .receiver) (lines colonFirst) 1 = 0 := by decide +kernel
  rw [hzero] at honce
  cases honce

/-- `0:0` and `1`.  The second stream has a receiver and no handler. -/
def noHandler : List UInt8 := ['0', ':', '0', '\n', '1', '\n'].map Char.toUInt8

theorem not_bothEnds_noHandler :
    (parseStreamsFile twoReceivers (some noHandler) unread).error = none ∧
      ¬ BothEnds twoReceivers noHandler unread := by
  have hok : (parseStreamsFile twoReceivers (some noHandler) unread).error = none := by
    decide +kernel
  refine ⟨hok, fun h => ?_⟩
  obtain ⟨id, hid, hstream⟩ := h hok 1 (by decide +kernel) .handler
  obtain rfl : id = 0 := Nat.lt_one_iff.mp hid
  have hzero : (parseStreamsFile twoReceivers (some noHandler) unread).streams.stream .handler 0 =
      some 0 := by decide +kernel
  rw [hzero] at hstream
  cases hstream

end Trtp.Cli
