import Trtp.Cli.Streams

/-!
# The parser on lists

`strtok` keeps its place in a hidden variable and the parser uses it for the two sides of a
line and, in between, for the numbers of a side.  Here the parser is brought down to the lines
of the file (`lines`), the lists of pieces on the two sides of each (`pieces`), and one pass
over the pieces (`assignAll`).
-/

namespace Trtp.Cli

open Lib

def colon : UInt8 := ':'.toUInt8

def comma : UInt8 := ','.toUInt8

/-! ## Lines -/

def readAll : ℕ → List UInt8 → List CString
  | 0, _ => []
  | fuel + 1, file =>
    match fgets maxLine file with
    | none => []
    | some (str, file) => cString str :: readAll fuel file

/-- The strings that `fgets` returns one after the other: the lines of the file, cut after
127 bytes. -/
def lines (file : List UInt8) : List CString := readAll file.length file

theorem readAll_eq {fuel fuel' : ℕ} {file : List UInt8} (h : file.length ≤ fuel)
    (h' : file.length ≤ fuel') : readAll fuel file = readAll fuel' file := by
  induction fuel generalizing file fuel' with
  | zero =>
    have hnil : file = [] := List.length_eq_zero_iff.mp (Nat.le_zero.mp h)
    subst hnil
    cases fuel' <;> rfl
  | succ fuel ih =>
    cases fuel' with
    | zero =>
      have hnil : file = [] := List.length_eq_zero_iff.mp (Nat.le_zero.mp h')
      subst hnil
      rfl
    | succ fuel' =>
      rw [readAll, readAll]
      cases hget : fgets maxLine file with
      | none => rfl
      | some r =>
        have hlt := (fgets_length (by decide) hget).2
        exact congrArg _ (ih (by omega) (by omega))

theorem lines_of_none {file : List UInt8} (h : fgets maxLine file = none) : lines file = [] := by
  unfold lines
  cases file.length with
  | zero => rfl
  | succ n => rw [readAll, h]

theorem lines_of_some {file str rest : List UInt8} (h : fgets maxLine file = some (str, rest)) :
    lines file = cString str :: lines rest := by
  have hlt := (fgets_length (by decide) h).2
  obtain ⟨n, hn⟩ : ∃ n, file.length = n + 1 := ⟨file.length - 1, by omega⟩
  rw [lines, hn, readAll, h]
  exact congrArg _ (readAll_eq (by omega) le_rfl)

theorem cString_length {file str rest : List UInt8} (h : fgets maxLine file = some (str, rest)) :
    (cString str).length < maxLine := by
  have hprefix : (cString str).length ≤ str.length := (List.takeWhile_prefix _).length_le
  exact hprefix.trans_lt (fgets_length (by decide) h).1

/-! ## Pieces -/

/-- The texts between the colons of a line, without the empty ones. -/
def fields (line : CString) : List CString := tokens (· == colon) line

/-- What the parser takes for the list of receivers and for that of handlers. -/
def side (line : CString) : Role → Option CString
  | .receiver => (fields line)[0]?
  | .handler => (fields line)[1]?

def pieces (role : Role) (line : CString) : List CString :=
  tokens (· == comma) ((side line role).getD [])

def number (piece : CString) : Option ℕ := (str2size piece).toOption

/-- The loop of `associate`, over a list. -/
def assignAll (config : ConfigRcv) (role : Role) (idx : ℕ) : List CString → ℕ → Streams → Parsed
  | [], _, s => ⟨s, none⟩
  | chunk :: chunks, r, s =>
    match number chunk with
    | none => ⟨s, some (.number chunk)⟩
    | some id =>
      if id ≥ config.num role then
        ⟨s.write (.associated role r), some (.unknown role id)⟩
      else if s.stream role id ≠ none then
        ⟨s.write (.associated role r), some (.usedTwice role id)⟩
      else
        assignAll config role idx chunks (r + 1)
          ((s.write (.associated role r)).set role id (some idx))

section Associate

variable {config : ConfigRcv} {role : Role} {idx : ℕ}

/-- The loop over the tokens of a text.  When it has come to the end, `strtok` has nothing
left. -/
theorem associate_eq {chunks : List CString} {fuel r : ℕ} {x : Option CString} {save : CString}
    {s : Streams} (hfuel : chunks.length ≤ fuel)
    (hchunks : tokens (· == comma) (x.getD save) = chunks) :
    let next := strtok x comma save
    let out := associate config role idx fuel next.1 next.2 r s
    out.1 = assignAll config role idx chunks r s ∧ (out.1.error = none → out.2 = []) := by
  induction chunks generalizing fuel r x save s with
  | nil =>
    intro next out
    have hnext : next = (none, []) := strtok_none hchunks
    have hout : out = (⟨s, none⟩, []) := by
      show associate config role idx fuel next.1 next.2 r s = _
      rw [hnext]
      cases fuel <;> rfl
    rw [hout]
    exact ⟨rfl, fun _ => rfl⟩
  | cons chunk chunks ih =>
    intro next out
    obtain ⟨fuel, rfl⟩ : ∃ f, fuel = f + 1 := ⟨fuel - 1, by simp at hfuel; omega⟩
    obtain ⟨save', hnext, hrest⟩ := strtok_some hchunks
    have hnext : next = (some chunk, save') := hnext
    have hout : out = associate config role idx (fuel + 1) (some chunk) save' r s := by
      show associate config role idx (fuel + 1) next.1 next.2 r s = _
      rw [hnext]
    rw [hout, associate, assignAll, number]
    cases hsize : str2size chunk with
    | error e => exact ⟨rfl, fun h => by cases h⟩
    | ok id =>
      have hstream : (s.write (.associated role r)).stream = s.stream := rfl
      simp only [Except.toOption, hstream]
      split
      · exact ⟨rfl, fun h => by cases h⟩
      · split
        · exact ⟨rfl, fun h => by cases h⟩
        · exact ih (x := none) (Nat.le_of_succ_le_succ hfuel) hrest

/-- The list of a line: the arrays are cleared, the receivers assigned and then the
handlers. -/
def assignLine (config : ConfigRcv) (idx : ℕ) (line : CString) (s : Streams) : Parsed :=
  let p := assignAll config .receiver idx (pieces .receiver line) 0
    (memset config .handler (memset config .receiver s))
  if p.error.isSome then p
  else assignAll config .handler idx (pieces .handler line) 0 p.streams

theorem pieces_length_le (role : Role) (line : CString) :
    (pieces role line).length ≤ line.length := by
  refine (tokens_length_le _ _).trans ?_
  cases hside : side line role with
  | none => exact Nat.zero_le _
  | some f =>
    have hmem : f ∈ tokens (· == colon) line := by
      cases role <;> exact List.mem_of_getElem? hside
    exact length_le_of_mem_tokens hmem

/-- The two calls that look for colons. -/
theorem strtok_fields (line : CString) :
    ∃ save₁ save₂, strtok (some line) colon [] = (side line .receiver, save₁) ∧
      strtok none colon save₁ = (side line .handler, save₂) ∧
      (side line .receiver = none → save₂ = []) := by
  cases hf : fields line with
  | nil =>
    have hfirst : strtok (some line) colon [] = (none, []) := strtok_none hf
    have hsecond : strtok none colon [] = (none, []) := strtok_none rfl
    exact ⟨[], [], by simp [hfirst, side, hf], by simp [hsecond, side, hf], fun _ => rfl⟩
  | cons first rest =>
    obtain ⟨save₁, hfirst, hrest⟩ :
        ∃ save₁, strtok (some line) colon [] = (some first, save₁) ∧
          tokens (· == colon) save₁ = rest := strtok_some hf
    cases rest with
    | nil =>
      have hsecond : strtok none colon save₁ = (none, []) := strtok_none hrest
      exact ⟨save₁, [], by simp [hfirst, side, hf], by simp [hsecond, side, hf], fun _ => rfl⟩
    | cons second rest =>
      obtain ⟨save₂, hsecond, -⟩ :
          ∃ save₂, strtok none colon save₁ = (some second, save₂) ∧
            tokens (· == colon) save₂ = rest := strtok_some hrest
      refine ⟨save₁, save₂, by simp [hfirst, side, hf], by simp [hsecond, side, hf], fun h => ?_⟩
      simp [side, hf] at h

/-- The calls of `strtok` for the two sides and those for the numbers do not get in each
other's way: where a side is missing, nothing is left for the call that asks for it. -/
theorem parseLine_eq {line : CString} {s : Streams} (hline : line.length < maxLine) :
    parseLine config idx line s = assignLine config idx line s := by
  obtain ⟨save₁, save₂, hfirst, hsecond, hnone⟩ := strtok_fields line
  have hr : tokens (· == comma) ((side line .receiver).getD save₂) = pieces .receiver line := by
    unfold pieces
    cases hside : side line .receiver with
    | none => rw [hnone hside]
    | some f => rfl
  have hlength : ∀ role, (pieces role line).length ≤ maxLine :=
    fun role => (pieces_length_le role line).trans hline.le
  set s₀ := memset config .handler (memset config .receiver s) with hs₀
  obtain ⟨hp, hend⟩ := @associate_eq config .receiver idx _ _ 0 _ _ s₀
    (hlength .receiver) hr
  set next := strtok (side line .receiver) comma save₂ with hnext
  set out := associate config .receiver idx maxLine next.1 next.2 0 s₀ with hout
  have hparse : parseLine config idx line s = if out.1.error.isSome then out.1 else
      let next := strtok (side line .handler) comma out.2
      (associate config .handler idx maxLine next.1 next.2 0 out.1.streams).1 := by
    unfold parseLine
    rw [show ':'.toUInt8 = colon from rfl, hfirst]
    dsimp only
    rw [hsecond]
    rfl
  rw [hparse, assignLine, ← hs₀, ← hp]
  split
  · rfl
  · rename_i hok
    have hsave : out.2 = [] := hend (by simpa using hok)
    rw [hsave]
    have hh : tokens (· == comma) ((side line .handler).getD []) = pieces .handler line := rfl
    exact (associate_eq (hlength .handler) hh).1

end Associate

/-! ## The whole file -/

def assignLines (config : ConfigRcv) : ℕ → ℕ → List CString → Streams → Parsed × ℕ
  | _, i, [], s => (⟨s, none⟩, i)
  | 0, i, _ :: _, s => (⟨s, some .tooMany⟩, i)
  | left + 1, i, line :: lines, s =>
    let p := assignLine config i line s
    if p.error.isSome then (p, i + 1) else assignLines config left (i + 1) lines p.streams

theorem parseLines_eq (config : ConfigRcv) (left i : ℕ) (file : List UInt8) (s : Streams) :
    parseLines config left i file s = assignLines config left i (lines file) s := by
  induction left generalizing i file s with
  | zero =>
    unfold parseLines
    cases hget : fgets maxLine file with
    | none => rw [lines_of_none hget]; rfl
    | some r => rw [lines_of_some hget]; rfl
  | succ left ih =>
    unfold parseLines
    cases hget : fgets maxLine file with
    | none => rw [lines_of_none hget]; rfl
    | some r =>
      obtain ⟨str, rest⟩ := r
      rw [lines_of_some hget, assignLines]
      simp only [parseLine_eq (cString_length hget), ih]

end Trtp.Cli
