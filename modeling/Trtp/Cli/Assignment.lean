import Mathlib.Data.List.Nodup
import Mathlib.Data.Option.Basic
import Trtp.Cli.Lines
import Trtp.Lib.Runs

/-!
# What the parser accepts

A pass over the pieces of one side succeeds exactly when the pieces are numbers of threads
that have no stream yet and none is there twice (`assignAll_ok_iff`).  So the lines read so
far list every thread at most once (`ListedOnce`) and the streams are the indices of the
lines (`Follows`); the two together are the invariant of the loop over the lines (`Placed`).
A file is accepted exactly when its lines list every thread once (`parseStreamsFile_ok_iff`).
-/

namespace Trtp.Cli

open Lib

/-- The pieces of a kind in the lines are the numbers of different threads. -/
def ListedOnce (config : ConfigRcv) (role : Role) (lines : List CString) : Prop :=
  ∃ ids : List ℕ, (lines.flatMap (pieces role)).map number = ids.map some ∧ ids.Nodup ∧
    ∀ id ∈ ids, id < config.num role

def Lists (role : Role) (line : CString) (id : ℕ) : Prop :=
  ∃ piece ∈ pieces role line, number piece = some id

def Follows (config : ConfigRcv) (role : Role) (lines : List CString) (s : Streams) : Prop :=
  ∀ id < config.num role, ∀ k, s.stream role id = some k ↔
    ∃ line, lines[k]? = some line ∧ Lists role line id

/-- The pieces are the numbers of different threads that have no stream. -/
def Acceptable (config : ConfigRcv) (role : Role) (s : Streams) (chunks : List CString) : Prop :=
  ∃ ids : List ℕ, chunks.map number = ids.map some ∧ ids.Nodup ∧
    ∀ id ∈ ids, id < config.num role ∧ s.stream role id = none

variable {config : ConfigRcv} {role : Role} {idx r : ℕ} {s : Streams}

/-! ## One side of a line -/

@[simp] theorem write_stream (s : Streams) (w : Write) : (s.write w).stream = s.stream := rfl

@[simp] theorem write_streamCount (s : Streams) (w : Write) :
    (s.write w).streamCount = s.streamCount := rfl

@[simp] theorem set_streamCount (s : Streams) (role : Role) (id : ℕ) (value : Option ℕ) :
    (s.set role id value).streamCount = s.streamCount := rfl

theorem set_stream_self (s : Streams) (role : Role) (id : ℕ) (value : Option ℕ) :
    (s.set role id value).stream role = Function.update (s.stream role) id value :=
  Function.update_self ..

theorem set_stream_of_ne (s : Streams) {role role' : Role} (h : role' ≠ role) (id : ℕ)
    (value : Option ℕ) : (s.set role id value).stream role' = s.stream role' :=
  Function.update_of_ne h ..

theorem assignAll_frame (config : ConfigRcv) (role : Role) (idx : ℕ) (chunks : List CString)
    (r : ℕ) (s : Streams) :
    (assignAll config role idx chunks r s).streams.streamCount = s.streamCount ∧
      ∀ role' ≠ role, (assignAll config role idx chunks r s).streams.stream role' =
        s.stream role' := by
  induction chunks generalizing r s with
  | nil => exact ⟨rfl, fun _ _ => rfl⟩
  | cons chunk chunks ih =>
    rw [assignAll]
    split
    · exact ⟨rfl, fun _ _ => rfl⟩
    · split_ifs
      · exact ⟨rfl, fun _ _ => rfl⟩
      · exact ⟨rfl, fun _ _ => rfl⟩
      · rename_i id _ _ _
        obtain ⟨hcount, hother⟩ :=
          ih (r + 1) ((s.write (.associated role r)).set role id (some idx))
        exact ⟨hcount, fun role' hne => (hother role' hne).trans (set_stream_of_ne _ hne _ _)⟩

theorem assignAll_ok {chunks : List CString}
    (h : (assignAll config role idx chunks r s).error = none) :
    ∃ ids : List ℕ, chunks.map number = ids.map some ∧ ids.Nodup ∧
      (∀ id ∈ ids, id < config.num role ∧ s.stream role id = none) ∧
      ∀ id, (assignAll config role idx chunks r s).streams.stream role id =
        if id ∈ ids then some idx else s.stream role id := by
  induction chunks generalizing r s with
  | nil => exact ⟨[], rfl, List.nodup_nil, by simp, by simp [assignAll]⟩
  | cons chunk chunks ih =>
    rw [assignAll] at h ⊢
    cases hnumber : number chunk with
    | none => simp [hnumber] at h
    | some id =>
      simp only [hnumber] at h ⊢
      split_ifs at h ⊢ with hunknown hused
      obtain ⟨ids, hids, hnodup, hfresh, hstream⟩ := ih h
      simp only [set_stream_self, write_stream] at hfresh hstream
      have hnew : id ∉ ids := by
        intro hmem
        have := (hfresh id hmem).2
        rw [Function.update_self] at this
        cases this
      refine ⟨id :: ids, by simp [hnumber, hids], List.nodup_cons.mpr ⟨hnew, hnodup⟩, ?_, ?_⟩
      · intro id' hmem
        rcases List.mem_cons.mp hmem with rfl | hmem
        · exact ⟨not_le.mp hunknown, not_not.mp hused⟩
        · obtain ⟨hlt, hnone⟩ := hfresh id' hmem
          have hne : id' ≠ id := fun he => hnew (he ▸ hmem)
          rw [Function.update_of_ne hne] at hnone
          exact ⟨hlt, hnone⟩
      · intro id'
        rw [hstream id']
        by_cases hne : id' = id
        · subst hne
          simp [hnew]
        · simp [hne]

theorem assignAll_of_acceptable {chunks : List CString} (h : Acceptable config role s chunks) :
    (assignAll config role idx chunks r s).error = none := by
  obtain ⟨ids, hids, hnodup, hfresh⟩ := h
  induction chunks generalizing ids r s with
  | nil => rfl
  | cons chunk chunks ih =>
    obtain ⟨id, ids, rfl⟩ : ∃ id ids', ids = id :: ids' := by
      cases ids with
      | nil => cases hids
      | cons id ids => exact ⟨id, ids, rfl⟩
    rw [List.map_cons, List.map_cons, List.cons.injEq] at hids
    obtain ⟨hlt, hnone⟩ := hfresh id List.mem_cons_self
    rw [assignAll, hids.1]
    simp only [if_neg (not_le.mpr hlt), hnone, ne_eq, not_true_eq_false, if_false]
    refine ih ids hids.2 (List.nodup_cons.mp hnodup).2 fun id' hmem => ?_
    have hne : id' ≠ id := fun he => (List.nodup_cons.mp hnodup).1 (he ▸ hmem)
    obtain ⟨hlt', hnone'⟩ := hfresh id' (List.mem_cons_of_mem id hmem)
    rw [set_stream_self, Function.update_of_ne hne]
    exact ⟨hlt', hnone'⟩

theorem assignAll_ok_iff {chunks : List CString} :
    (assignAll config role idx chunks r s).error = none ↔ Acceptable config role s chunks := by
  constructor
  · intro h
    obtain ⟨ids, hids, hnodup, hfresh, -⟩ := assignAll_ok h
    exact ⟨ids, hids, hnodup, hfresh⟩
  · exact assignAll_of_acceptable

/-! ## The lines -/

/-- What holds when the lines have been read without an error. -/
structure Placed (config : ConfigRcv) (lines : List CString) (s : Streams) : Prop where
  once : ∀ role, ListedOnce config role lines
  follows : ∀ role, Follows config role lines s

theorem memset_stream (config : ConfigRcv) (role : Role) (s : Streams) :
    (memset config role s).stream = s.stream ∧
      (memset config role s).streamCount = s.streamCount := by
  refine Lib.foldl_invariant (I := fun t : Streams => t.stream = s.stream ∧
    t.streamCount = s.streamCount) ?_ ⟨rfl, rfl⟩ _
  intro t i ht
  exact ht

/-- Whether a side of a line is accepted depends on the streams only. -/
theorem acceptable_congr {s' : Streams} {chunks : List CString}
    (h : s'.stream role = s.stream role) :
    Acceptable config role s' chunks ↔ Acceptable config role s chunks := by
  unfold Acceptable
  rw [h]

section Line

variable {before : List CString} {line : CString}

/-- The numbers of the lines are the threads that have a stream. -/
theorem Placed.stream_eq_none_iff (h : Placed config before s) {ids : List ℕ}
    (hids : (before.flatMap (pieces role)).map number = ids.map some) {id : ℕ}
    (hid : id < config.num role) : s.stream role id = none ↔ id ∉ ids := by
  have hmem : id ∈ ids ↔ ∃ line ∈ before, Lists role line id := by
    have hmap : id ∈ ids ↔ some id ∈ (before.flatMap (pieces role)).map number := by
      rw [hids]
      simp
    rw [hmap]
    constructor
    · intro hex
      obtain ⟨piece, hpiece, hnumber⟩ := List.mem_map.mp hex
      obtain ⟨line, hline, hpiece⟩ := List.mem_flatMap.mp hpiece
      exact ⟨line, hline, piece, hpiece, hnumber⟩
    · rintro ⟨line, hline, piece, hpiece, hnumber⟩
      exact List.mem_map.mpr ⟨piece, List.mem_flatMap.mpr ⟨line, hline, hpiece⟩, hnumber⟩
  rw [hmem, Option.eq_none_iff_forall_ne_some]
  constructor
  · rintro hnone ⟨line, hline, hlists⟩
    obtain ⟨k, hk⟩ := List.mem_iff_getElem?.mp hline
    exact hnone k ((h.follows role id hid k).mpr ⟨line, hk, hlists⟩)
  · intro hno k hk
    obtain ⟨line, hline, hlists⟩ := (h.follows role id hid k).mp hk
    exact hno ⟨line, List.mem_of_getElem? hline, hlists⟩

theorem Placed.acceptable_iff (h : Placed config before s) :
    Acceptable config role s (pieces role line) ↔ ListedOnce config role (before ++ [line]) := by
  obtain ⟨ids, hids, hnodup, hlt⟩ := h.once role
  have hflat : ((before ++ [line]).flatMap (pieces role)).map number =
      ids.map some ++ (pieces role line).map number := by
    rw [List.flatMap_append, List.map_append, hids]
    simp
  constructor
  · rintro ⟨new, hnew, hnodup', hfresh⟩
    refine ⟨ids ++ new, by rw [hflat, hnew, List.map_append], ?_, ?_⟩
    · refine List.nodup_append.mpr ⟨hnodup, hnodup', ?_⟩
      rintro a ha b hb rfl
      exact (h.stream_eq_none_iff hids (hfresh a hb).1).mp (hfresh a hb).2 ha
    · intro id hmem
      rcases List.mem_append.mp hmem with hmem | hmem
      · exact hlt id hmem
      · exact (hfresh id hmem).1
  · rintro ⟨all, hall, hnodup', hlt'⟩
    rw [hflat] at hall
    obtain ⟨old, new, rfl, hold, hnew⟩ := List.map_eq_append_iff.mp hall.symm
    obtain rfl : old = ids := List.map_injective_iff.mpr (Option.some_injective ℕ) hold
    obtain ⟨-, hnodup'', hdisj⟩ := List.nodup_append.mp hnodup'
    refine ⟨new, hnew.symm, hnodup'', fun id hmem => ?_⟩
    have hid := hlt' id (List.mem_append_right _ hmem)
    refine ⟨hid, (h.stream_eq_none_iff hids hid).mpr ?_⟩
    exact fun hold => hdisj id hold id hmem rfl

/-- The first pass of a line, after the arrays of the line have been cleared. -/
def assignReceivers (config : ConfigRcv) (idx : ℕ) (line : CString) (s : Streams) : Parsed :=
  assignAll config .receiver idx (pieces .receiver line) 0
    (memset config .handler (memset config .receiver s))

theorem assignLine_eq (config : ConfigRcv) (idx : ℕ) (line : CString) (s : Streams) :
    assignLine config idx line s =
      if (assignReceivers config idx line s).error.isSome then assignReceivers config idx line s
      else assignAll config .handler idx (pieces .handler line) 0
        (assignReceivers config idx line s).streams := rfl

theorem clear_stream (config : ConfigRcv) (s : Streams) :
    (memset config .handler (memset config .receiver s)).stream = s.stream := by
  rw [(memset_stream ..).1, (memset_stream ..).1]

theorem assignReceivers_handler (config : ConfigRcv) (idx : ℕ) (line : CString) (s : Streams) :
    (assignReceivers config idx line s).streams.stream .handler = s.stream .handler := by
  rw [assignReceivers, (assignAll_frame ..).2 _ (by decide), clear_stream]

theorem assignReceivers_ok_iff :
    (assignReceivers config idx line s).error = none ↔
      Acceptable config .receiver s (pieces .receiver line) := by
  rw [assignReceivers, assignAll_ok_iff, acceptable_congr (congrFun (clear_stream config s) _)]

/-- The two passes of a line, each on the streams as they were before the line. -/
theorem assignLine_ok_iff :
    (assignLine config idx line s).error = none ↔
      ∀ role, Acceptable config role s (pieces role line) := by
  rw [assignLine_eq]
  split
  · rename_i hsome
    have hne := Option.isSome_iff_ne_none.mp hsome
    constructor
    · intro hnone
      exact absurd hnone hne
    · intro hall
      exact absurd (assignReceivers_ok_iff.mpr (hall .receiver)) hne
  · rename_i hnone
    have hnone : (assignReceivers config idx line s).error = none := by simpa using hnone
    rw [assignAll_ok_iff, acceptable_congr (assignReceivers_handler ..)]
    constructor
    · intro hhandlers role
      cases role with
      | receiver => exact assignReceivers_ok_iff.mp hnone
      | handler => exact hhandlers
    · intro hall
      exact hall .handler

theorem assignLine_stream (h : (assignLine config idx line s).error = none) (role : Role) :
    ∃ ids : List ℕ, (pieces role line).map number = ids.map some ∧
      ∀ id, (assignLine config idx line s).streams.stream role id =
        if id ∈ ids then some idx else s.stream role id := by
  have hnone : (assignReceivers config idx line s).error = none :=
    assignReceivers_ok_iff.mpr (assignLine_ok_iff.mp h .receiver)
  rw [assignLine_eq, if_neg (by simp [hnone])] at h ⊢
  cases role with
  | receiver =>
    obtain ⟨ids, hids, -, -, hset⟩ := assignAll_ok hnone
    refine ⟨ids, hids, fun id => ?_⟩
    rw [(assignAll_frame ..).2 _ (by decide), ← clear_stream config s]
    exact hset id
  | handler =>
    obtain ⟨ids, hids, -, -, hset⟩ := assignAll_ok h
    refine ⟨ids, hids, fun id => ?_⟩
    rw [hset id, assignReceivers_handler]

theorem lists_iff {ids : List ℕ} (hids : (pieces role line).map number = ids.map some) {id : ℕ} :
    Lists role line id ↔ id ∈ ids := by
  have hmap : id ∈ ids ↔ some id ∈ (pieces role line).map number := by
    rw [hids]
    simp
  rw [hmap, List.mem_map]
  rfl

theorem Placed.assignLine_ok_iff (h : Placed config before s) :
    (assignLine config before.length line s).error = none ↔
      ∀ role, ListedOnce config role (before ++ [line]) :=
  Cli.assignLine_ok_iff.trans (forall_congr' fun _ => h.acceptable_iff)

theorem exists_concat_iff {p : CString → Prop} {k : ℕ} :
    (∃ l, (before ++ [line])[k]? = some l ∧ p l) ↔
      (∃ l, before[k]? = some l ∧ p l) ∨ k = before.length ∧ p line := by
  rcases Nat.lt_trichotomy k before.length with hlt | rfl | hgt
  · rw [List.getElem?_append_left hlt]
    simp [hlt.ne]
  · rw [List.getElem?_concat_length, List.getElem?_eq_none le_rfl]
    simp
  · have hout : (before ++ [line])[k]? = none := by
      rw [List.getElem?_eq_none]
      simp
      omega
    rw [hout, List.getElem?_eq_none hgt.le]
    simp [hgt.ne']

theorem Placed.of_assignLine (h : Placed config before s)
    (hok : (assignLine config before.length line s).error = none) :
    Placed config (before ++ [line]) (assignLine config before.length line s).streams where
  once := h.assignLine_ok_iff.mp hok
  follows role := by
    obtain ⟨ids, hids, hstream⟩ := assignLine_stream hok role
    have hfresh : ∀ id ∈ ids, s.stream role id = none := by
      obtain ⟨ids', hids', -, hnone⟩ := Cli.assignLine_ok_iff.mp hok role
      obtain rfl : ids' = ids :=
        List.map_injective_iff.mpr (Option.some_injective ℕ) (hids'.symm.trans hids)
      exact fun id hmem => (hnone id hmem).2
    intro id hid k
    rw [hstream id, exists_concat_iff, ← h.follows role id hid k, lists_iff hids]
    split
    · rename_i hmem
      simp [hfresh id hmem, hmem, eq_comm]
    · rename_i hmem
      simp [hmem]

end Line

/-! ## The file -/

section File

variable {before rest : List CString} {left : ℕ}

theorem Placed.of_assignLines (h : Placed config before s)
    (hok : (assignLines config left before.length rest s).1.error = none) :
    rest.length ≤ left ∧
      Placed config (before ++ rest) (assignLines config left before.length rest s).1.streams ∧
      (assignLines config left before.length rest s).2 = (before ++ rest).length := by
  induction rest generalizing before left s with
  | nil =>
    have hnil : assignLines config left before.length [] s = (⟨s, none⟩, before.length) := by
      cases left <;> rfl
    rw [hnil, List.append_nil]
    exact ⟨Nat.zero_le left, h, rfl⟩
  | cons line rest ih =>
    cases left with
    | zero => cases hok
    | succ left =>
      rw [assignLines] at hok ⊢
      split at hok
      · rename_i hsome
        exact absurd hok (Option.isSome_iff_ne_none.mp hsome)
      · rename_i hnone
        have hnone : (assignLine config before.length line s).error = none := by
          simpa using hnone
        rw [if_neg (by simp [hnone])]
        have hlength : before.length + 1 = (before ++ [line]).length := by simp
        rw [hlength] at hok ⊢
        obtain ⟨hle, hplaced, hcount⟩ := ih (h.of_assignLine hnone) hok
        rw [List.append_assoc] at hplaced hcount
        exact ⟨Nat.succ_le_succ hle, hplaced, hcount⟩

theorem ListedOnce.of_append {a b : List CString} (h : ListedOnce config role (a ++ b)) :
    ListedOnce config role a := by
  obtain ⟨ids, hids, hnodup, hlt⟩ := h
  rw [List.flatMap_append, List.map_append] at hids
  obtain ⟨first, second, rfl, hfirst, -⟩ := List.map_eq_append_iff.mp hids.symm
  exact ⟨first, hfirst.symm, (List.nodup_append.mp hnodup).1,
    fun id hid => hlt id (List.mem_append_left _ hid)⟩

theorem Placed.assignLines_ok (h : Placed config before s) (hle : rest.length ≤ left)
    (honce : ∀ role, ListedOnce config role (before ++ rest)) :
    (assignLines config left before.length rest s).1.error = none := by
  induction rest generalizing before left s with
  | nil => cases left <;> rfl
  | cons line rest ih =>
    cases left with
    | zero => cases hle
    | succ left =>
      have happend : before ++ line :: rest = before ++ [line] ++ rest := by simp
      rw [happend] at honce
      have hok : (assignLine config before.length line s).error = none :=
        h.assignLine_ok_iff.mpr fun role => (honce role).of_append
      have hlength : before.length + 1 = (before ++ [line]).length := by simp
      rw [assignLines, if_neg (by simp [hok]), hlength]
      exact ih (h.of_assignLine hok) (Nat.le_of_succ_le_succ hle) honce

theorem setAll_stream (config : ConfigRcv) (role : Role) (value : Option ℕ) (s : Streams) :
    (setAll config role value s).streamCount = s.streamCount ∧
      (∀ id < config.num role, (setAll config role value s).stream role id = value) ∧
      ∀ role' ≠ role, (setAll config role value s).stream role' = s.stream role' := by
  unfold setAll
  induction config.num role with
  | zero => exact ⟨rfl, by simp, fun _ _ => rfl⟩
  | succ n ih =>
    obtain ⟨hcount, hself, hother⟩ := ih
    rw [List.range_succ, List.foldl_append, List.foldl_cons, List.foldl_nil]
    refine ⟨hcount, fun id hid => ?_, fun role' hne => ?_⟩
    · rw [set_stream_self]
      by_cases heq : id = n
      · rw [heq, Function.update_self]
      · rw [Function.update_of_ne heq]
        exact hself id (by omega)
    · rw [set_stream_of_ne _ hne]
      exact hother role' hne

theorem setAll_both (config : ConfigRcv) (value : Option ℕ) (s : Streams) {role role' : Role}
    (hne : role ≠ role') (role'' : Role) {id : ℕ} (hid : id < config.num role'') :
    (setAll config role value (setAll config role' value s)).stream role'' id = value := by
  by_cases heq : role'' = role
  · subst heq
    exact (setAll_stream ..).2.1 id hid
  · obtain rfl : role'' = role' := by
      cases role <;> cases role' <;> cases role'' <;> simp_all
    rw [(setAll_stream config role value _).2.2 _ heq]
    exact (setAll_stream ..).2.1 id hid

theorem placed_mark (config : ConfigRcv) (s : Streams) : Placed config [] (mark config s) := by
  refine ⟨fun role => ⟨[], rfl, List.nodup_nil, by simp⟩, fun role id hid k => ?_⟩
  have hnone : (mark config s).stream role id = none :=
    setAll_both config none s (by decide) role hid
  simp [hnone]

/-- A file that the parser accepts: it has a line for each stream, the lines list every
thread once, and the streams are the indices of the lines. -/
structure Accepted (config : ConfigRcv) (lines : List CString) (s : Streams) : Prop
    extends Placed config lines s where
  count : s.streamCount = lines.length
  nonempty : lines ≠ []
  count_le : lines.length ≤ config.receiveNum
  all : ∀ role, ∀ id < config.num role, ∃ k, s.stream role id = some k

theorem unassigned_eq_none_iff :
    unassigned config s role = none ↔ ∀ id < config.num role, ∃ k, s.stream role id = some k := by
  rw [unassigned, List.find?_eq_none]
  constructor
  · intro h id hid
    have := h id (List.mem_range.mpr hid)
    rw [Option.isNone_iff_eq_none] at this
    exact Option.ne_none_iff_exists'.mp this
  · intro h id hid hnone
    obtain ⟨k, hk⟩ := h id (List.mem_range.mp hid)
    rw [hk] at hnone
    cases hnone

theorem checkAll_streams (config : ConfigRcv) (s : Streams) : (checkAll config s).streams = s := by
  unfold checkAll
  split_ifs
  · rfl
  · split
    · rfl
    · split <;> rfl

theorem checkAll_ok_iff :
    (checkAll config s).error = none ↔
      s.streamCount ≠ 0 ∧ ∀ role, ∀ id < config.num role, ∃ k, s.stream role id = some k := by
  simp only [← unassigned_eq_none_iff]
  unfold checkAll
  constructor
  · intro h
    split_ifs at h with hzero
    refine ⟨hzero, fun role => ?_⟩
    split at h
    · cases h
    · rename_i hhandler
      split at h
      · cases h
      · rename_i hreceiver
        cases role with
        | receiver => exact hreceiver
        | handler => exact hhandler
  · rintro ⟨hzero, hall⟩
    rw [if_neg hzero, hall .handler, hall .receiver]

theorem parseStreamsFile_eq (config : ConfigRcv) (file : List UInt8) (s : Streams) :
    parseStreamsFile config (some file) s =
      let run := assignLines config config.receiveNum 0 (lines file) (mark config (calloc s))
      if run.1.error.isSome then run.1
      else checkAll config { run.1.streams with streamCount := run.2 } := by
  simp only [parseStreamsFile, parseLines_eq]

theorem parseStreamsFile_ok {file : List UInt8}
    (h : (parseStreamsFile config (some file) s).error = none) :
    Accepted config (lines file) (parseStreamsFile config (some file) s).streams := by
  have hstart : Placed config [] (mark config (calloc s)) := placed_mark config _
  set run := assignLines config config.receiveNum 0 (lines file) (mark config (calloc s)) with hrun
  rw [parseStreamsFile_eq, ← hrun] at h ⊢
  dsimp only at h ⊢
  have hnone : run.1.error = none := by
    split at h
    · exact h
    · rename_i hnone
      simpa using hnone
  obtain ⟨hle, hplaced, hcount⟩ := hstart.of_assignLines hnone
  rw [List.length_nil, ← hrun, List.nil_append] at hplaced hcount
  rw [if_neg (by simp [hnone])] at h ⊢
  obtain ⟨hzero, hall⟩ := checkAll_ok_iff.mp h
  rw [checkAll_streams]
  refine ⟨⟨hplaced.once, hplaced.follows⟩, hcount, fun hnil => hzero ?_, hle, hall⟩
  show run.2 = 0
  rw [hcount, hnil]
  rfl

/-- The lines of a complete configuration: there are at most as many as receivers, and
together they list every thread once. -/
structure Complete (config : ConfigRcv) (lines : List CString) : Prop where
  nonempty : lines ≠ []
  length_le : lines.length ≤ config.receiveNum
  each : ∀ role, ∃ ids : List ℕ, (lines.flatMap (pieces role)).map number = ids.map some ∧
    ids.Perm (List.range (config.num role))

theorem Accepted.complete {lines : List CString} (h : Accepted config lines s) :
    Complete config lines where
  nonempty := h.nonempty
  length_le := h.count_le
  each role := by
    obtain ⟨ids, hids, hnodup, hlt⟩ := h.once role
    refine ⟨ids, hids, (List.perm_ext_iff_of_nodup hnodup List.nodup_range).mpr fun id => ?_⟩
    rw [List.mem_range]
    refine ⟨hlt id, fun hid => ?_⟩
    obtain ⟨k, hk⟩ := h.all role id hid
    by_contra hmem
    rw [(h.toPlaced.stream_eq_none_iff hids hid).mpr hmem] at hk
    cases hk

theorem Complete.listedOnce {lines : List CString} (h : Complete config lines) (role : Role) :
    ListedOnce config role lines := by
  obtain ⟨ids, hids, hperm⟩ := h.each role
  exact ⟨ids, hids, hperm.nodup_iff.mpr List.nodup_range,
    fun id hid => List.mem_range.mp (hperm.mem_iff.mp hid)⟩

/-- The files that `parse_streams_file` returns 0 for. -/
theorem parseStreamsFile_ok_iff {file : List UInt8} :
    (parseStreamsFile config (some file) s).error = none ↔ Complete config (lines file) := by
  constructor
  · intro h
    exact (parseStreamsFile_ok h).complete
  · intro h
    have hstart : Placed config [] (mark config (calloc s)) := placed_mark config _
    have hnone := hstart.assignLines_ok h.length_le fun role => h.listedOnce role
    obtain ⟨-, hplaced, hcount⟩ := hstart.of_assignLines hnone
    rw [List.length_nil, List.nil_append] at hplaced hcount
    rw [List.length_nil] at hnone
    rw [parseStreamsFile_eq]
    dsimp only
    rw [if_neg (by simp [hnone]), checkAll_ok_iff]
    constructor
    · rw [hcount]
      exact List.length_pos_iff.mpr h.nonempty |>.ne'
    · intro role id hid
      obtain ⟨ids, hids, hperm⟩ := h.each role
      refine Option.ne_none_iff_exists'.mp fun hunset => ?_
      exact (hplaced.stream_eq_none_iff hids hid).mp hunset
        (hperm.mem_iff.mpr (List.mem_range.mpr hid))

end File

end Trtp.Cli
