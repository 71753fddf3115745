import Mathlib.Data.List.Perm.Subperm
import Trtp.Cli.Assignment

/-!
# The indices of the parser

The number of a piece is stored in `associated_receivers` or `associated_handlers` before it
is looked at.  The arrays have as many elements as there are threads, and on a line that
lists all of them the next number is stored behind the end, although the parser goes on to
reject the line.

No other write can go wrong, so the condition for this is exact (`writesInBounds_iff`).  A
line can list all threads of a kind only if the lines before it list none.
-/

namespace Trtp.Cli

open Lib

def AllInBounds (config : ConfigRcv) (s : Streams) : Prop := ∀ w ∈ s.writes, w.InBounds config

variable {config : ConfigRcv} {role : Role} {idx r : ℕ} {s : Streams}

theorem allInBounds_write {w : Write} :
    AllInBounds config (s.write w) ↔ AllInBounds config s ∧ w.InBounds config := by
  simp [AllInBounds, Streams.write, or_imp, forall_and]

theorem allInBounds_set {id : ℕ} {value : Option ℕ} :
    AllInBounds config (s.set role id value) ↔ AllInBounds config s ∧ id < config.num role :=
  allInBounds_write (w := .streams role id)

/-! ## One side of a line -/

theorem allInBounds_of_assignAll {chunks : List CString}
    (h : AllInBounds config (assignAll config role idx chunks r s).streams) :
    AllInBounds config s := by
  induction chunks generalizing r s with
  | nil => exact h
  | cons chunk chunks ih =>
    rw [assignAll] at h
    split at h
    · exact h
    · split_ifs at h
      · exact (allInBounds_write.mp h).1
      · exact (allInBounds_write.mp h).1
      · exact (allInBounds_write.mp (allInBounds_set.mp (ih h)).1).1

/-- When `r` elements are taken: the pieces fill the rest of the array and there is one more
number. -/
def Overrun (config : ConfigRcv) (role : Role) (r : ℕ) (s : Streams) (chunks : List CString) :
    Prop :=
  ∃ (ids : List ℕ) (v : ℕ) (rest : List (Option ℕ)),
    chunks.map number = ids.map some ++ some v :: rest ∧ r + ids.length = config.num role ∧
      ids.Nodup ∧ ∀ id ∈ ids, id < config.num role ∧ s.stream role id = none

variable (idx) in
theorem overrun_cons {chunk : CString} {chunks : List CString} {id : ℕ}
    (hnumber : number chunk = some id) (hr : r < config.num role) :
    Overrun config role r s (chunk :: chunks) ↔
      (id < config.num role ∧ s.stream role id = none) ∧
        Overrun config role (r + 1) (s.set role id (some idx)) chunks := by
  constructor
  · rintro ⟨ids, v, rest, hmap, hlength, hnodup, hfresh⟩
    obtain ⟨a, ids, rfl⟩ : ∃ a ids', ids = a :: ids' := by
      cases ids with
      | nil => simp at hlength; omega
      | cons a ids => exact ⟨a, ids, rfl⟩
    rw [List.map_cons, List.map_cons, hnumber, List.cons_append, List.cons.injEq,
      Option.some.injEq] at hmap
    obtain ⟨rfl, hmap⟩ := hmap
    obtain ⟨hnew, hnodup⟩ := List.nodup_cons.mp hnodup
    refine ⟨hfresh id List.mem_cons_self, ids, v, rest, hmap, ?_, hnodup, fun a ha => ?_⟩
    · rw [List.length_cons] at hlength
      omega
    · have hne : a ≠ id := fun he => hnew (he ▸ ha)
      rw [set_stream_self, Function.update_of_ne hne]
      exact hfresh a (List.mem_cons_of_mem _ ha)
  · rintro ⟨hid, ids, v, rest, hmap, hlength, hnodup, hfresh⟩
    have hne : ∀ a ∈ ids, a ≠ id := by
      rintro a ha rfl
      have := (hfresh a ha).2
      rw [set_stream_self, Function.update_self] at this
      cases this
    refine ⟨id :: ids, v, rest, by simp [hnumber, hmap], ?_, ?_, fun a ha => ?_⟩
    · rw [List.length_cons]
      omega
    · exact List.nodup_cons.mpr ⟨fun hmem => hne id hmem rfl, hnodup⟩
    · rcases List.mem_cons.mp ha with rfl | ha
      · exact hid
      · have := hfresh a ha
        rwa [set_stream_self, Function.update_of_ne (hne a ha)] at this

theorem assignAll_inBounds {chunks : List CString} (hr : r ≤ config.num role)
    (hs : AllInBounds config s) :
    AllInBounds config (assignAll config role idx chunks r s).streams ↔
      ¬ Overrun config role r s chunks := by
  induction chunks generalizing r s with
  | nil =>
    refine ⟨fun _ => ?_, fun _ => hs⟩
    rintro ⟨ids, v, rest, hmap, -⟩
    simp at hmap
  | cons chunk chunks ih =>
    cases hnumber : number chunk with
    | none =>
      simp only [assignAll, hnumber]
      refine ⟨fun _ => ?_, fun _ => hs⟩
      rintro ⟨ids, v, rest, hmap, -⟩
      rw [List.map_cons, hnumber] at hmap
      cases ids <;> cases hmap
    | some id =>
      rcases Nat.lt_or_eq_of_le hr with hlt | rfl
      · have hstored : AllInBounds config (s.write (.associated role r)) :=
          allInBounds_write.mpr ⟨hs, hlt⟩
        simp only [assignAll, hnumber]
        rw [overrun_cons idx hnumber hlt]
        split_ifs with hunknown hused
        · exact ⟨fun _ h => absurd h.1.1 (not_lt.mpr hunknown), fun _ => hstored⟩
        · exact ⟨fun _ h => hused h.1.2, fun _ => hstored⟩
        · have hset : AllInBounds config
              ((s.write (.associated role r)).set role id (some idx)) :=
            allInBounds_set.mpr ⟨hstored, not_le.mp hunknown⟩
          rw [ih hlt hset, and_iff_right ⟨not_le.mp hunknown, not_not.mp hused⟩]
          rfl
      · -- All elements are taken: the number is stored behind the end.
        have hfull : Overrun config role (config.num role) s (chunk :: chunks) :=
          ⟨[], id, chunks.map number, by simp [hnumber], by simp, List.nodup_nil, by simp⟩
        refine ⟨fun h => ?_, fun h => absurd hfull h⟩
        have hwrite : AllInBounds config (s.write (.associated role (config.num role))) := by
          simp only [assignAll, hnumber] at h
          split_ifs at h
          · exact h
          · exact h
          · exact (allInBounds_set.mp (allInBounds_of_assignAll h)).1
        exact absurd (allInBounds_write.mp hwrite).2 (lt_irrefl _)

/-- The pieces are the numbers of all threads, in some order, and then one more number. -/
def Overlong (num : ℕ) (chunks : List CString) : Prop :=
  ∃ (ids : List ℕ) (v : ℕ) (rest : List (Option ℕ)),
    chunks.map number = ids.map some ++ some v :: rest ∧ ids.Perm (List.range num)

def Unset (config : ConfigRcv) (role : Role) (s : Streams) : Prop :=
  ∀ id < config.num role, s.stream role id = none

theorem overrun_zero_iff {chunks : List CString} :
    Overrun config role 0 s chunks ↔
      Unset config role s ∧ Overlong (config.num role) chunks := by
  constructor
  · rintro ⟨ids, v, rest, hmap, hlength, hnodup, hfresh⟩
    have hsub : ids ⊆ List.range (config.num role) :=
      fun id hid => List.mem_range.mpr (hfresh id hid).1
    have hperm : ids.Perm (List.range (config.num role)) := by
      refine (List.subperm_of_subset hnodup hsub).perm_of_length_le ?_
      rw [List.length_range]
      omega
    refine ⟨fun id hid => ?_, ids, v, rest, hmap, hperm⟩
    exact (hfresh id (hperm.mem_iff.mpr (List.mem_range.mpr hid))).2
  · rintro ⟨hunset, ids, v, rest, hmap, hperm⟩
    have hlt : ∀ id ∈ ids, id < config.num role :=
      fun id hid => List.mem_range.mp (hperm.mem_iff.mp hid)
    refine ⟨ids, v, rest, hmap, ?_, hperm.nodup_iff.mpr List.nodup_range, ?_⟩
    · rw [hperm.length_eq, List.length_range, Nat.zero_add]
    · exact fun id hid => ⟨hlt id hid, hunset id (hlt id hid)⟩

/-! ## A line -/

section Line

variable {before : List CString} {line : CString}

theorem allInBounds_memset (role : Role) :
    AllInBounds config (memset config role s) ↔ AllInBounds config s := by
  constructor
  · intro h
    have hmono : ∀ (l : List ℕ) (t : Streams), AllInBounds config
        (l.foldl (fun s i => s.write (.associated role (i / 8))) t) → AllInBounds config t := by
      intro l
      induction l with
      | nil => exact fun t ht => ht
      | cons i l ih => exact fun t ht => (allInBounds_write.mp (ih _ ht)).1
    exact hmono _ s h
  · intro h
    unfold memset
    have hlt : ∀ i ∈ List.range (config.num role), i < config.num role :=
      fun i hi => List.mem_range.mp hi
    generalize List.range (config.num role) = l at hlt
    induction l generalizing s with
    | nil => exact h
    | cons i l ih =>
      refine ih (allInBounds_write.mpr ⟨h, ?_⟩) fun j hj => hlt j (List.mem_cons_of_mem i hj)
      exact lt_of_le_of_lt (Nat.div_le_self i 8) (hlt i List.mem_cons_self)

/-- The state before a line lets it be stored without leaving the arrays. -/
def Fits (config : ConfigRcv) (s : Streams) (line : CString) : Prop :=
  ¬ (Unset config .receiver s ∧ Overlong config.receiveNum (pieces .receiver line)) ∧
    (Acceptable config .receiver s (pieces .receiver line) →
      ¬ (Unset config .handler s ∧ Overlong config.handleNum (pieces .handler line)))

theorem assignLine_inBounds (hs : AllInBounds config s) :
    AllInBounds config (assignLine config idx line s).streams ↔ Fits config s line := by
  have hin : AllInBounds config (memset config .handler (memset config .receiver s)) :=
    (allInBounds_memset _).mpr ((allInBounds_memset _).mpr hs)
  have hunset : ∀ role (t : Streams), t.stream role = s.stream role →
      (Unset config role t ↔ Unset config role s) := by
    intro role t ht
    rw [Unset, ht]
    rfl
  have hkept := assignReceivers_handler config idx line s
  have hreceivers : AllInBounds config (assignReceivers config idx line s).streams ↔
      ¬ (Unset config .receiver s ∧ Overlong config.receiveNum (pieces .receiver line)) := by
    rw [assignReceivers, assignAll_inBounds (Nat.zero_le _) hin, overrun_zero_iff,
      hunset .receiver _ (congrFun (clear_stream config s) _)]
    rfl
  have haccept : (assignReceivers config idx line s).error = none ↔
      Acceptable config .receiver s (pieces .receiver line) := assignReceivers_ok_iff
  rw [assignLine_eq, Fits, ← hreceivers, ← haccept]
  split
  · rename_i hsome
    simp [Option.isSome_iff_ne_none.mp hsome]
  · rename_i hnone
    have hnone : (assignReceivers config idx line s).error = none := by simpa using hnone
    simp only [hnone, true_implies]
    constructor
    · intro h
      have hpin := allInBounds_of_assignAll h
      refine ⟨hpin, ?_⟩
      rwa [assignAll_inBounds (Nat.zero_le _) hpin, overrun_zero_iff, hunset .handler _ hkept] at h
    · rintro ⟨hpin, h⟩
      rwa [assignAll_inBounds (Nat.zero_le _) hpin, overrun_zero_iff, hunset .handler _ hkept]

theorem Placed.unset_iff (h : Placed config before s) :
    Unset config role s ↔ ∀ line ∈ before, pieces role line = [] := by
  obtain ⟨ids, hids, -, hlt⟩ := h.once role
  have hunset : Unset config role s ↔ ids = [] := by
    constructor
    · intro hunset
      rw [List.eq_nil_iff_forall_not_mem]
      intro id hid
      exact (h.stream_eq_none_iff hids (hlt id hid)).mp (hunset id (hlt id hid)) hid
    · rintro rfl id hid
      exact (h.stream_eq_none_iff hids hid).mpr List.not_mem_nil
  rw [hunset, ← List.map_eq_nil_iff (f := some), ← hids, List.map_eq_nil_iff,
    List.flatMap_eq_nil_iff]

end Line

/-! ## The lines -/

/-- The lines before it list no thread of the kind, and the line lists all of them and one
number more. -/
def OverlongAt (config : ConfigRcv) (role : Role) (before : List CString) (line : CString) :
    Prop :=
  (∀ l ∈ before, pieces role l = []) ∧ Overlong (config.num role) (pieces role line)

/-- A line that the parser comes to after `before` stays in the arrays.  It does not come to
the handlers of a line whose receivers it rejects. -/
def LineFits (config : ConfigRcv) (before : List CString) (line : CString) : Prop :=
  ¬ OverlongAt config .receiver before line ∧
    (ListedOnce config .receiver (before ++ [line]) → ¬ OverlongAt config .handler before line)

section Lines

variable {before rest : List CString} {line : CString} {left : ℕ}

theorem Placed.fits_iff (h : Placed config before s) :
    Fits config s line ↔ LineFits config before line := by
  unfold Fits LineFits OverlongAt
  rw [h.unset_iff, h.unset_iff, h.acceptable_iff]
  rfl

theorem allInBounds_of_assignLines
    (h : AllInBounds config (assignLines config left idx rest s).1.streams) :
    AllInBounds config s := by
  have hline : ∀ {idx line s}, AllInBounds config (assignLine config idx line s).streams →
      AllInBounds config s := by
    intro idx line s h
    have h₀ : AllInBounds config (memset config .handler (memset config .receiver s)) := by
      unfold assignLine at h
      dsimp only at h
      split at h
      · exact allInBounds_of_assignAll h
      · exact allInBounds_of_assignAll (allInBounds_of_assignAll h)
    exact (allInBounds_memset _).mp ((allInBounds_memset _).mp h₀)
  induction rest generalizing left idx s with
  | nil => cases left <;> exact h
  | cons line rest ih =>
    cases left with
    | zero => exact h
    | succ left =>
      rw [assignLines] at h
      split at h
      · exact hline h
      · exact hline (ih h)

/-- The lines of `rest` that the parser comes to after `before`, with `left` more lines
allowed, stay in the arrays. -/
def AllFit (config : ConfigRcv) (before rest : List CString) (left : ℕ) : Prop :=
  ∀ mid line after, rest = mid ++ line :: after → mid.length < left →
    (∀ role, ListedOnce config role (before ++ mid)) → LineFits config (before ++ mid) line

theorem allFit_cons (h : ∀ role, ListedOnce config role before) :
    AllFit config before (line :: rest) (left + 1) ↔
      LineFits config before line ∧
        ((∀ role, ListedOnce config role (before ++ [line])) →
          AllFit config (before ++ [line]) rest left) := by
  have happend : ∀ mid, before ++ line :: mid = before ++ [line] ++ mid := by simp
  constructor
  · intro hall
    constructor
    · have hline := hall [] line rest rfl (Nat.succ_pos left) (by simpa using h)
      rwa [List.append_nil] at hline
    · intro _ mid line' after hrest hmid honce
      rw [← happend] at honce ⊢
      exact hall (line :: mid) line' after (by rw [hrest]; rfl) (Nat.succ_lt_succ hmid) honce
  · rintro ⟨hline, hfit⟩ mid line' after hrest hmid honce
    cases mid with
    | nil =>
      rw [List.nil_append, List.cons.injEq] at hrest
      rw [← hrest.1, List.append_nil]
      exact hline
    | cons l mid =>
      rw [List.cons_append, List.cons.injEq] at hrest
      obtain ⟨rfl, hrest⟩ := hrest
      rw [happend] at honce ⊢
      exact hfit (fun role => (honce role).of_append) mid line' after hrest
        (Nat.lt_of_succ_lt_succ hmid) honce

theorem Placed.assignLines_inBounds (h : Placed config before s) (hs : AllInBounds config s) :
    AllInBounds config (assignLines config left before.length rest s).1.streams ↔
      AllFit config before rest left := by
  induction rest generalizing before left s with
  | nil =>
    have hnil : (assignLines config left before.length [] s).1.streams = s := by
      cases left <;> rfl
    rw [hnil]
    refine ⟨fun _ mid line after hrest => ?_, fun _ => hs⟩
    simp at hrest
  | cons line rest ih =>
    cases left with
    | zero => exact ⟨fun _ mid _ _ _ hmid => absurd hmid (Nat.not_lt_zero _), fun _ => hs⟩
    | succ left =>
      have hfits : AllInBounds config (assignLine config before.length line s).streams ↔
          LineFits config before line := (assignLine_inBounds hs).trans h.fits_iff
      rw [assignLines, allFit_cons h.once, ← h.assignLine_ok_iff]
      split
      · -- The line is rejected, and with it everything after it.
        rename_i hsome
        have hne := Option.isSome_iff_ne_none.mp hsome
        rw [hfits]
        exact ⟨fun hline => ⟨hline, fun hok => absurd hok hne⟩, fun hall => hall.1⟩
      · rename_i hnone
        have hok : (assignLine config before.length line s).error = none := by simpa using hnone
        have hlength : before.length + 1 = (before ++ [line]).length := by simp
        have hplaced := h.of_assignLine hok
        rw [hlength]
        constructor
        · intro hin
          have hline := allInBounds_of_assignLines hin
          exact ⟨hfits.mp hline, fun _ => (ih hplaced hline).mp hin⟩
        · rintro ⟨hline, hrest⟩
          exact (ih hplaced (hfits.mpr hline)).mpr (hrest hok)

end Lines

/-! ## The parser -/

theorem allInBounds_setAll {value : Option ℕ} (hs : AllInBounds config s) :
    AllInBounds config (setAll config role value s) := by
  unfold setAll
  have hlt : ∀ i ∈ List.range (config.num role), i < config.num role :=
    fun i hi => List.mem_range.mp hi
  generalize List.range (config.num role) = l at hlt
  induction l generalizing s with
  | nil => exact hs
  | cons i l ih =>
    exact ih (allInBounds_set.mpr ⟨hs, hlt i List.mem_cons_self⟩)
      fun j hj => hlt j (List.mem_cons_of_mem i hj)

/-- The writes of `parse_streams_file` stay in the arrays. -/
def WritesInBounds (config : ConfigRcv) (file : List UInt8) (s : Streams) : Prop :=
  ∀ w ∈ (parseStreamsFile config (some file) { s with writes := [] }).streams.writes,
    w.InBounds config

/-- The writes stay in the arrays exactly when no line that the parser comes to lists all
receivers, or all handlers, and then another number. -/
theorem writesInBounds_iff (config : ConfigRcv) (file : List UInt8) (s : Streams) :
    WritesInBounds config file s ↔
      ∀ before line after, lines file = before ++ line :: after →
        before.length < config.receiveNum →
        (∀ role, ListedOnce config role before) → LineFits config before line := by
  set s₀ : Streams := mark config (calloc { s with writes := [] }) with hs₀
  have hin : AllInBounds config s₀ := by
    refine allInBounds_setAll (allInBounds_setAll fun w hw => ?_)
    cases hw
  set run := assignLines config config.receiveNum 0 (lines file) s₀ with hrun
  have hwrites : (parseStreamsFile config (some file) { s with writes := [] }).streams.writes =
      run.1.streams.writes := by
    rw [parseStreamsFile_eq]
    dsimp only
    split
    · rfl
    · rw [checkAll_streams]
  rw [WritesInBounds, hwrites]
  exact (placed_mark config _).assignLines_inBounds hin

/-- `0,0:0` -/
def listedTwice : List UInt8 := ['0', ',', '0', ':', '0'].map Char.toUInt8

/-- With one receiver the second number is stored in element 1 of an array of one. -/
theorem not_writesInBounds_twice :
    ¬ WritesInBounds ⟨1, 1⟩ listedTwice
      { stream := fun _ _ => none, streamCount := 0, writes := [] } := by
  have hwrite : Write.associated .receiver 1 ∈
      (parseStreamsFile ⟨1, 1⟩ (some listedTwice)
        { stream := fun _ _ => none, streamCount := 0, writes := [] }).streams.writes := by
    decide +kernel
  intro h
  exact absurd (h _ hwrite) (by decide)

end Trtp.Cli
