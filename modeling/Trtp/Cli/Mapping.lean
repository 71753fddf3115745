import Trtp.Cli.Affinity
import Trtp.Cli.Bounds
import Trtp.Cli.Sides

/-!
# The file that the usage message describes

Each line of `streams.cfg` is a list of receivers, a colon and a list of handlers.  A file with
a line for each stream, every thread in one of them, is read as it is meant exactly when no
line has more than 127 bytes (`readAsMeant_iff`).  Then the parser accepts it, its writes stay
in the arrays and the threads get the streams of their lines.

`fgets` takes 127 bytes at a time, and what it has cut off counts as another line.
-/

namespace Trtp.Cli

open Lib

variable {config : ConfigRcv} {role : Role} {streams : List (Role → List ℕ)}

/-! ## A complete file -/

theorem Complete.lineFits {lines before after : List CString} {line : CString}
    (h : Complete config lines) (hlines : lines = before ++ line :: after) :
    LineFits config before line := by
  have hnot : ∀ role, ¬ OverlongAt config role before line := by
    rintro role ⟨-, ids, v, rest, hmap, hids⟩
    obtain ⟨ids', hall, hperm⟩ := h.each role
    have hcount : (lines.flatMap (pieces role)).length = config.num role := by
      have := congrArg List.length hall
      rwa [List.length_map, List.length_map, hperm.length_eq, List.length_range] at this
    have hline : (pieces role line).length = config.num role + 1 + rest.length := by
      have := congrArg List.length hmap
      rw [List.length_map, List.length_append, List.length_map, hids.length_eq, List.length_range,
        List.length_cons] at this
      omega
    rw [hlines, List.flatMap_append, List.flatMap_cons, List.length_append,
      List.length_append] at hcount
    omega
  exact ⟨hnot .receiver, fun _ => hnot .handler⟩

theorem Complete.writesInBounds {file : List UInt8} (h : Complete config (lines file))
    (s : Streams) : WritesInBounds config file s := by
  set start := mark config (calloc { s with writes := [] })
  have hin : AllInBounds config start :=
    allInBounds_setAll (allInBounds_setAll fun w hw => absurd hw List.not_mem_nil)
  have hfit : AllFit config [] (lines file) config.receiveNum :=
    fun before line after hlines _ _ => h.lineFits hlines
  have hrun := ((placed_mark config _).assignLines_inBounds hin).mpr hfit
  unfold WritesInBounds
  rw [parseStreamsFile_eq]
  dsimp only
  split
  · exact hrun
  · rw [checkAll_streams]
    exact hrun

/-! ## Lines -/

/-- A text that `fgets` comes to the end of with the line: it ends with the only newline, or
nothing is behind it. -/
def EndsLine (text rest : List UInt8) : Prop :=
  ∃ line, (∀ c ∈ line, c ≠ '\n'.toUInt8) ∧
    (text = line ++ ['\n'.toUInt8] ∨ text = line ∧ line ≠ [] ∧ rest = [])

theorem EndsLine.ne_nil {text rest : List UInt8} (h : EndsLine text rest) : text ≠ [] := by
  obtain ⟨line, -, rfl | ⟨rfl, hne, -⟩⟩ := h
  · simp
  · exact hne

theorem fgetsFrom_append {line : List UInt8} (tail : List UInt8) (room : ℕ)
    (hline : ∀ c ∈ line, c ≠ '\n'.toUInt8) :
    fgetsFrom (line.length + room) (line ++ tail) =
      (line ++ (fgetsFrom room tail).1, (fgetsFrom room tail).2) := by
  induction line with
  | nil => simp
  | cons c line ih =>
    rw [List.length_cons, Nat.add_right_comm, List.cons_append, fgetsFrom,
      if_neg (hline c List.mem_cons_self), ih fun d hd => hline d (List.mem_cons_of_mem c hd)]
    rfl

theorem EndsLine.fgets {text rest : List UInt8} (h : EndsLine text rest)
    (hshort : text.length < maxLine) : fgets maxLine (text ++ rest) = some (text, rest) := by
  have hnonempty : (text ++ rest).isEmpty = false := by simp [h.ne_nil]
  rw [Cli.fgets, hnonempty, if_neg Bool.false_ne_true]
  obtain ⟨line, hline, rfl | ⟨rfl, hne, rfl⟩⟩ := h
  · obtain ⟨room, hroom⟩ : ∃ k, maxLine - 1 = line.length + (k + 1) := by
      refine ⟨maxLine - 1 - line.length - 1, ?_⟩
      rw [List.length_append, List.length_singleton] at hshort
      omega
    rw [hroom, List.append_assoc, fgetsFrom_append _ _ hline]
    simp [fgetsFrom]
  · obtain ⟨room, hroom⟩ : ∃ k, maxLine - 1 = text.length + k :=
      ⟨maxLine - 1 - text.length, by omega⟩
    rw [hroom, fgetsFrom_append _ _ hline]
    cases room <;> simp [fgetsFrom]

theorem EndsLine.fgets_cut {text rest : List UInt8} (h : EndsLine text rest)
    (hlong : maxLine ≤ text.length) :
    ∃ front back, EndsLine back rest ∧ back.length < text.length ∧
      Cli.fgets maxLine (text ++ rest) = some (front, back ++ rest) := by
  have hnonempty : (text ++ rest).isEmpty = false := by simp [h.ne_nil]
  have hsize : (text.take (maxLine - 1)).length = maxLine - 1 :=
    List.length_take_of_le ((Nat.sub_le maxLine 1).trans hlong)
  obtain ⟨line, hline, htext⟩ := h
  have hlength : maxLine - 1 ≤ line.length := by
    rcases htext with rfl | ⟨rfl, -⟩
    · rwa [List.length_append, List.length_singleton, ← Nat.sub_le_iff_le_add] at hlong
    · exact (Nat.sub_le maxLine 1).trans hlong
  have hfront : ∀ c ∈ text.take (maxLine - 1), c ≠ '\n'.toUInt8 := by
    intro c hc
    rcases htext with rfl | ⟨rfl, -⟩
    · rw [List.take_append_of_le_length hlength] at hc
      exact hline c (List.mem_of_mem_take hc)
    · exact hline c (List.mem_of_mem_take hc)
  have hback : EndsLine (text.drop (maxLine - 1)) rest := by
    refine ⟨line.drop (maxLine - 1), fun c hc => hline c (List.mem_of_mem_drop hc), ?_⟩
    rcases htext with rfl | ⟨rfl, -, rfl⟩
    · exact .inl (List.drop_append_of_le_length hlength)
    · refine .inr ⟨rfl, ?_, rfl⟩
      rw [Ne, List.drop_eq_nil_iff, not_le]
      exact lt_of_lt_of_le (by decide) hlong
  have hcut := fgetsFrom_append (text.drop (maxLine - 1) ++ rest) 0 hfront
  rw [hsize, Nat.add_zero, ← List.append_assoc, List.take_append_drop] at hcut
  refine ⟨text.take (maxLine - 1), text.drop (maxLine - 1), hback, ?_, ?_⟩
  · have hpos : 0 < maxLine - 1 := by decide
    rw [List.length_drop]
    omega
  · rw [Cli.fgets, hnonempty, if_neg Bool.false_ne_true, hcut]
    simp [fgetsFrom]

theorem EndsLine.length_lines {text rest : List UInt8} (h : EndsLine text rest) :
    (lines rest).length + 1 ≤ (lines (text ++ rest)).length := by
  induction hn : text.length using Nat.strong_induction_on generalizing text with
  | _ n ih =>
    by_cases hshort : text.length < maxLine
    · rw [lines_of_some (h.fgets hshort), List.length_cons]
    · obtain ⟨front, back, hback, hlt, hget⟩ := h.fgets_cut (not_lt.mp hshort)
      have := ih back.length (hn ▸ hlt) hback rfl
      rw [lines_of_some hget, List.length_cons]
      omega

theorem EndsLine.length_lines_long {text rest : List UInt8} (h : EndsLine text rest)
    (hlong : maxLine ≤ text.length) : (lines rest).length + 1 < (lines (text ++ rest)).length := by
  obtain ⟨front, back, hback, -, hget⟩ := h.fgets_cut hlong
  have := hback.length_lines
  rw [lines_of_some hget, List.length_cons]
  omega

def AreLines : List CString → Prop
  | [] => True
  | text :: texts => EndsLine text texts.flatten ∧ (∀ c ∈ text, c ≠ 0) ∧ AreLines texts

theorem AreLines.length_le {texts : List CString} (h : AreLines texts) :
    texts.length ≤ (lines texts.flatten).length := by
  induction texts with
  | nil => exact Nat.zero_le _
  | cons text texts ih =>
    obtain ⟨htext, -, hrest⟩ := h
    exact (Nat.succ_le_succ (ih hrest)).trans htext.length_lines

theorem AreLines.lines_eq {texts : List CString} (h : AreLines texts)
    (hshort : ∀ text ∈ texts, text.length < maxLine) : lines texts.flatten = texts := by
  induction texts with
  | nil => exact lines_of_none rfl
  | cons text texts ih =>
    obtain ⟨htext, hzero, hrest⟩ := h
    have hstring : cString text = text :=
      List.takeWhile_eq_self_iff.mpr fun c hc => by simpa using hzero c hc
    rw [List.flatten_cons, lines_of_some (htext.fgets (hshort text List.mem_cons_self)), hstring,
      ih hrest fun t ht => hshort t (List.mem_cons_of_mem text ht)]

theorem AreLines.length_lt {texts : List CString} (h : AreLines texts) {text : CString}
    (htext : text ∈ texts) (hlong : maxLine ≤ text.length) :
    texts.length < (lines texts.flatten).length := by
  induction texts with
  | nil => cases htext
  | cons first texts ih =>
    obtain ⟨hfirst, -, hrest⟩ := h
    rcases List.mem_cons.mp htext with rfl | htext
    · have hle := hrest.length_le
      have hlt := hfirst.length_lines_long hlong
      rw [List.flatten_cons, List.length_cons]
      omega
    · have hlt := ih hrest htext
      have hle := hfirst.length_lines
      rw [List.flatten_cons, List.length_cons]
      omega

/-! ## The text -/

/-- The line of a stream: its receivers and its handlers. -/
def mappingLine (stream : Role → List ℕ) : CString :=
  cpuLine (stream .receiver) ++ colon :: cpuLine (stream .handler)

def mappingLines (newline : CString) : List (Role → List ℕ) → List CString
  | [] => []
  | [stream] => [mappingLine stream ++ newline]
  | stream :: streams => (mappingLine stream ++ ['\n'.toUInt8]) :: mappingLines newline streams

/-- The line lists the threads of the stream. -/
def Spells (stream : Role → List ℕ) (line : CString) : Prop :=
  ∀ role, (pieces role line).map number = (stream role).map some

theorem cpuLine_ne_colon {ids : List ℕ} {c : UInt8} (hc : c ∈ cpuLine ids) :
    (c == colon) = false := by
  rw [beq_eq_false_iff_ne]
  rcases cpuLine_mem hc with hdigit | rfl
  · rintro rfl
    exact absurd hdigit (by decide)
  · decide

theorem mappingLine_plain {stream : Role → List ℕ} {c : UInt8} (hc : c ∈ mappingLine stream) :
    c ≠ '\n'.toUInt8 ∧ c ≠ 0 := by
  rcases List.mem_append.mp hc with hc | hc
  · exact cpuLine_plain hc
  · rcases List.mem_cons.mp hc with rfl | hc
    · exact ⟨by decide, by decide⟩
    · exact cpuLine_plain hc

section Sides

variable {newline : CString}

theorem tokens_cpuLine {ids : List ℕ} (hne : ids ≠ []) (hids : ∀ id ∈ ids, id < 2 ^ 31)
    (hnewline : newline = [] ∨ newline = ['\n'.toUInt8]) :
    (tokens (· == comma) (cpuLine ids ++ newline)).map number = ids.map some := by
  have hend : LineEnd newline ∧ newline.take 1 = newline := by
    rcases hnewline with rfl | rfl <;> exact ⟨rfl, rfl⟩
  have hsplit := cpuList_cpuLine hne hids hend.1
  rw [List.splitOn_eq_splitOnP, hend.2] at hsplit
  have hnonempty : ∀ piece ∈ (cpuLine ids ++ newline).splitOnP (· == comma),
      (!piece.isEmpty) = true := by
    intro piece hpiece
    have hok : str2size piece ∈ ids.map Except.ok := hsplit ▸ List.mem_map_of_mem hpiece
    obtain ⟨id, -, hid⟩ := List.mem_map.mp hok
    cases piece with
    | nil => exact absurd hid (by simp [str2size])
    | cons c piece => rfl
  rw [tokens, List.filter_eq_self.mpr hnonempty]
  have hnumber := congrArg (List.map Except.toOption) hsplit
  rwa [List.map_map, List.map_map] at hnumber

theorem spells_mappingLine {stream : Role → List ℕ} (hne : ∀ role, stream role ≠ [])
    (hids : ∀ role, ∀ id ∈ stream role, id < 2 ^ 31)
    (hnewline : newline = [] ∨ newline = ['\n'.toUInt8]) :
    Spells stream (mappingLine stream ++ newline) := by
  have hreceivers : tokens (· == colon) (cpuLine (stream .receiver)) =
      [cpuLine (stream .receiver)] :=
    tokens_of_forall (cpuLine_ne_nil (hne _)) fun c hc => cpuLine_ne_colon hc
  have hhandlers : tokens (· == colon) (cpuLine (stream .handler) ++ newline) =
      [cpuLine (stream .handler) ++ newline] := by
    refine tokens_of_forall (by simp [cpuLine_ne_nil (hne _)]) fun c hc => ?_
    rcases List.mem_append.mp hc with hc | hc
    · exact cpuLine_ne_colon hc
    · rcases hnewline with rfl | rfl
      · cases hc
      · rw [List.mem_singleton.mp hc]
        rfl
  have hsplit : ∀ a b : CString,
      tokens (· == colon) (a ++ colon :: b) = tokens (· == colon) a ++ tokens (· == colon) b :=
    fun a b => tokens_append_cons a b (by rfl)
  have hfields : fields (mappingLine stream ++ newline) =
      [cpuLine (stream .receiver), cpuLine (stream .handler) ++ newline] := by
    rw [fields, mappingLine, List.append_assoc, List.cons_append, hsplit, hreceivers, hhandlers]
    rfl
  intro role
  unfold pieces side
  rw [hfields]
  cases role with
  | receiver => simpa using tokens_cpuLine (hne .receiver) (hids .receiver) (.inl rfl)
  | handler => exact tokens_cpuLine (hne .handler) (hids .handler) hnewline

theorem areLines_mappingLines (hnewline : newline = [] ∨ newline = ['\n'.toUInt8]) :
    AreLines (mappingLines newline streams) := by
  have hline : ∀ (stream : Role → List ℕ) (rest : List UInt8),
      EndsLine (mappingLine stream ++ ['\n'.toUInt8]) rest := fun stream rest =>
    ⟨_, fun c hc => (mappingLine_plain hc).1, .inl rfl⟩
  have hzero : ∀ (stream : Role → List ℕ) {e : CString}, e = [] ∨ e = ['\n'.toUInt8] →
      ∀ c ∈ mappingLine stream ++ e, c ≠ 0 := by
    intro stream e he c hc
    rcases List.mem_append.mp hc with hc | hc
    · exact (mappingLine_plain hc).2
    · rcases he with rfl | rfl
      · cases hc
      · rw [List.mem_singleton.mp hc]
        decide
  induction streams using mappingLines.induct with
  | case1 => trivial
  | case2 stream =>
    refine ⟨?_, hzero stream hnewline, trivial⟩
    rcases hnewline with rfl | rfl
    · exact ⟨_, fun c hc => (mappingLine_plain hc).1,
        .inr ⟨List.append_nil _, by simp [mappingLine], rfl⟩⟩
    · exact hline stream _
  | case3 stream streams hcons ih =>
    rw [mappingLines]
    · exact ⟨hline stream _, hzero stream (.inr rfl), ih⟩
    · exact hcons

theorem spells_mappingLines (hne : ∀ stream ∈ streams, ∀ role, stream role ≠ [])
    (hids : ∀ stream ∈ streams, ∀ role, ∀ id ∈ stream role, id < 2 ^ 31)
    (hnewline : newline = [] ∨ newline = ['\n'.toUInt8]) :
    List.Forall₂ Spells streams (mappingLines newline streams) := by
  induction streams using mappingLines.induct with
  | case1 => exact .nil
  | case2 stream =>
    have hstream : stream ∈ [stream] := List.mem_singleton_self stream
    exact .cons (spells_mappingLine (hne _ hstream) (hids _ hstream) hnewline) .nil
  | case3 stream streams hcons ih =>
    have hstream : stream ∈ stream :: streams := List.mem_cons_self
    rw [mappingLines]
    · exact .cons (spells_mappingLine (hne _ hstream) (hids _ hstream) (.inr rfl))
        (ih (fun _ h => hne _ (List.mem_cons_of_mem _ h))
          fun _ h => hids _ (List.mem_cons_of_mem _ h))
    · exact hcons

theorem Spells.flatMap {lines : List CString} (h : List.Forall₂ Spells streams lines)
    (role : Role) :
    (lines.flatMap (pieces role)).map number = (streams.flatMap fun stream => stream role).map some
    := by
  induction h with
  | nil => rfl
  | cons hline _ ih =>
    rw [List.flatMap_cons, List.flatMap_cons, List.map_append, List.map_append, hline role, ih]

theorem Spells.lists_iff {lines : List CString} (h : List.Forall₂ Spells streams lines) {k id : ℕ} :
    (∃ line, lines[k]? = some line ∧ Lists role line id) ↔
      ∃ stream, streams[k]? = some stream ∧ id ∈ stream role := by
  induction h generalizing k with
  | nil => simp
  | cons hline _ ih =>
    cases k with
    | zero => simp [Cli.lists_iff (hline role)]
    | succ k => simpa using ih

end Sides

/-! ## The file -/

/-- The file is read as the configuration with these streams: the parser accepts it without
leaving its arrays, and `main` goes on with the streams. -/
structure ReadAsMeant (config : ConfigRcv) (file : List UInt8) (streams : List (Role → List ℕ))
    (s : Streams) : Prop where
  accepted : (parseStreamsFile config (some file) s).error = none
  inBounds : WritesInBounds config file s
  streamCount : (mainStreams config false (some file) s).streamCount = streams.length
  stream : ∀ role, ∀ id < config.num role, ∀ k,
    (mainStreams config false (some file) s).stream role id = some k ↔
      ∃ stream, streams[k]? = some stream ∧ id ∈ stream role

/-- Every thread is in one of the streams, and each stream has receivers and handlers. -/
structure Covers (config : ConfigRcv) (streams : List (Role → List ℕ)) : Prop where
  nonempty : ∀ stream ∈ streams, ∀ role, stream role ≠ []
  each : ∀ role, (streams.flatMap fun stream => stream role).Perm (List.range (config.num role))

theorem Covers.length_le (h : Covers config streams) : streams.length ≤ config.receiveNum := by
  have hone : streams.length ≤ (streams.flatMap fun stream => stream .receiver).length := by
    rw [List.length_flatMap, ← List.length_map fun stream => (stream Role.receiver).length]
    refine List.length_le_sum_of_one_le _ fun n hn => ?_
    obtain ⟨stream, hstream, rfl⟩ := List.mem_map.mp hn
    exact List.length_pos_iff.mpr (h.nonempty stream hstream .receiver)
  rwa [(h.each .receiver).length_eq, List.length_range] at hone

theorem Covers.lt (h : Covers config streams) {stream : Role → List ℕ} (hstream : stream ∈ streams)
    {id : ℕ} (hid : id ∈ stream role) : id < config.num role :=
  List.mem_range.mp ((h.each role).subset (List.mem_flatMap.mpr ⟨stream, hstream, hid⟩))

theorem Covers.ne_nil (h : Covers config streams) (hreceive : config.receiveNum ≠ 0) :
    streams ≠ [] := by
  rintro rfl
  have hlength := (h.each .receiver).length_eq
  rw [List.length_range] at hlength
  exact hreceive hlength.symm

theorem Covers.complete (h : Covers config streams) (hreceive : config.receiveNum ≠ 0)
    {lines : List CString} (hlines : List.Forall₂ Spells streams lines) :
    Complete config lines where
  nonempty := by
    rintro rfl
    exact h.ne_nil hreceive (List.forall₂_nil_right_iff.mp hlines)
  length_le := hlines.length_eq ▸ h.length_le
  each role := ⟨_, Spells.flatMap hlines role, h.each role⟩

/-- The file that the usage message describes, with or without a newline at its end, is read as
it is meant exactly when each of its lines fits the buffer of `fgets`. -/
theorem readAsMeant_iff (config : ConfigRcv) (hreceive : config.receiveNum ≠ 0)
    (hnum : ∀ role, config.num role ≤ 2 ^ 31) (streams : List (Role → List ℕ))
    (hcovers : Covers config streams) (newline : CString)
    (hnewline : newline = [] ∨ newline = ['\n'.toUInt8]) (s : Streams) :
    ReadAsMeant config (mappingLines newline streams).flatten streams s ↔
      ∀ line ∈ mappingLines newline streams, line.length < maxLine := by
  have hare : AreLines (mappingLines newline streams) := areLines_mappingLines hnewline
  have hspells : List.Forall₂ Spells streams (mappingLines newline streams) :=
    spells_mappingLines hcovers.nonempty
      (fun stream hstream role id hid => (hcovers.lt hstream hid).trans_le (hnum role)) hnewline
  have hmain : (parseStreamsFile config (some (mappingLines newline streams).flatten) s).error =
      none → mainStreams config false (some (mappingLines newline streams).flatten) s =
        (parseStreamsFile config (some (mappingLines newline streams).flatten) s).streams := by
    intro hok
    rw [mainStreams, if_neg Bool.false_ne_true]
    dsimp only
    rw [if_neg (by rw [hok]; decide)]
  constructor
  · intro h line hline
    by_contra hlong
    -- A stream for each string that `fgets` returns
    have hcount := (parseStreamsFile_ok h.accepted).count
    rw [← hmain h.accepted, h.streamCount, hspells.length_eq] at hcount
    exact absurd hcount (hare.length_lt hline (not_lt.mp hlong)).ne
  · intro hshort
    have hlines := hare.lines_eq hshort
    have hcomplete := hcovers.complete hreceive hspells
    rw [← hlines] at hcomplete
    have hok := (parseStreamsFile_ok_iff (s := s)).mpr hcomplete
    have haccepted := parseStreamsFile_ok hok
    refine ⟨hok, hcomplete.writesInBounds s, ?_, fun role id hid k => ?_⟩
    · rw [hmain hok, haccepted.count, hlines, hspells.length_eq]
    · rw [hmain hok, haccepted.follows role id hid k, hlines]
      exact Spells.lists_iff hspells

def threads (receivers handlers : List ℕ) : Role → List ℕ
  | .receiver => receivers
  | .handler => handlers

def shared : List (Role → List ℕ) := [threads [0, 1] [0, 1, 2, 3], threads [2] [4, 5]]

theorem readAsMeant_iff_shared :
    ReadAsMeant ⟨3, 6⟩ ("0,1:0,1,2,3\n2:4,5\n".toList.map Char.toUInt8) shared unread := by
  have hfile : (mappingLines ['\n'.toUInt8] shared).flatten =
      "0,1:0,1,2,3\n2:4,5\n".toList.map Char.toUInt8 := by decide
  have hnum : ∀ role, ConfigRcv.num ⟨3, 6⟩ role ≤ 2 ^ 31 := by
    intro role
    cases role <;> decide
  have hcovers : Covers ⟨3, 6⟩ shared := by
    refine ⟨fun stream hstream role => ?_, fun role => ?_⟩
    · rcases List.mem_pair.mp hstream with rfl | rfl <;> cases role <;> simp [threads]
    · cases role <;> decide
  rw [← hfile]
  exact (readAsMeant_iff ⟨3, 6⟩ (by decide) hnum shared hcovers _ (.inr rfl) unread).mpr (by decide)

end Trtp.Cli
