import Trtp.Cli.Argument

/-!
# The numbers of the command line

`str2size` reads a number that fits an `int` or fails (`str2size_ok`).  `parse_receiver` then
casts every number to 16 bits, whatever the field of `config` holds.  Only the window is
compared with a bound before: the other numbers wrap from 65536 on, and a limit of 65536
clients is a limit of none (`numbersKept_iff`).

What the rest of the receiver takes for granted holds all the same: the bounds on the numbers
(`parseReceiver_bounds`) and the form of the format (`parseReceiver_format`).
-/

namespace Trtp.Cli

def unsigned (s : CString) : CString :=
  if s.head? == some '-'.toUInt8 || s.head? == some '+'.toUInt8 then s.tail else s

/-- The decimal number at the beginning of a string, if there is one: the digits, with a sign
in front or not. -/
def numeral (s : CString) : Option ℤ :=
  let digits := (unsigned s).takeWhile isdigit
  if digits.isEmpty then none
  else some (if s.head? == some '-'.toUInt8 then -(decimal digits : ℤ) else decimal digits)

/-- The config has the numbers that the command line gives. -/
structure NumbersKept {α : Type} (line : CommandLine) (config : Config α) : Prop where
  maxConnections : numeral line.m = some (config.maxConnections.toNat : ℤ)
  port : numeral line.port = some (config.port.toNat : ℤ)
  handleNum : numeral line.n = some (config.handleNum : ℤ)
  receiveNum : numeral line.N = some (config.receiveNum : ℤ)
  maxWindow : numeral line.w = some (config.maxWindow : ℤ)
  receiveWindowSize : numeral line.W = some (config.receiveWindowSize : ℤ)

/-! ## Numbers -/

/-- Without digits `strtol` reads nothing. -/
theorem strtol_of_numeral_none {s : CString} (hspace : s.dropWhile isspace = s)
    (h : numeral s = none) : strtol s = { value := 0, erange := false, endPtr := s } := by
  have hempty : ((unsigned s).takeWhile isdigit).isEmpty = true := by
    by_contra hdigits
    simp only [numeral, if_neg hdigits] at h
    cases h
  unfold strtol
  simp only [hspace]
  exact if_pos hempty

/-- `strtol` gives the number, or the nearest one that a `long` holds. -/
theorem strtol_of_numeral {s : CString} {value : ℤ} (hspace : s.dropWhile isspace = s)
    (h : numeral s = some value) :
    (strtol s).value =
      if value > longMax then longMax else if value < longMin then longMin else value := by
  have hdigits : ¬ ((unsigned s).takeWhile isdigit).isEmpty = true := by
    intro hempty
    simp only [numeral, if_pos hempty] at h
    cases h
  simp only [numeral, if_neg hdigits, Option.some.injEq] at h
  unfold strtol
  simp only [hspace]
  refine (congrArg Strtol.value (if_neg hdigits)).trans ?_
  rw [← h]
  simp only [apply_ite Strtol.value]
  rfl

theorem dropWhile_isspace {s : CString} (h : ¬ s.head?.all isspace) :
    s.dropWhile isspace = s := by
  cases s with
  | nil => rfl
  | cons c s => exact List.dropWhile_cons_of_neg (by simpa using h)

/-- The tests that `str2size` makes. -/
structure Converts (s : CString) (v : ℕ) : Prop where
  head : ¬ s.head?.all isspace
  fits : (v : ℤ) ≤ intMax
  value : (strtol s).value = v
  atEnd : ¬ (strtol s).endPtr.head?.any (· != '\n'.toUInt8)

theorem str2size_converts {s : CString} {v : ℕ} (h : str2size s = .ok v) : Converts s v := by
  unfold str2size at h
  split at h
  · cases h
  · rename_i hhead
    dsimp only at h
    split at h
    · cases h
    · rename_i hmax
      split at h
      · cases h
      · rename_i hmin
        split at h
        · cases h
        · rename_i hend
          cases h
          have hle : (strtol s).value ≤ intMax := by
            simp only [Bool.or_eq_true, decide_eq_true_eq, not_or] at hmax
            exact not_lt.mp hmax.1
          have hge : 0 ≤ (strtol s).value := by
            simp only [Bool.or_eq_true, decide_eq_true_eq, not_or] at hmin
            exact not_lt.mp hmin.1
          exact ⟨hhead, by omega, by omega, hend⟩

/-- A string that is accepted begins with a number: where nothing is read, the string goes on
with a character that is no newline. -/
theorem Converts.numeral_ne_none {s : CString} {v : ℕ} (h : Converts s v) :
    numeral s ≠ none := by
  intro hnone
  have hend := h.atEnd
  rw [strtol_of_numeral_none (dropWhile_isspace h.head) hnone] at hend
  have hhead := h.head
  cases s with
  | nil => exact hhead rfl
  | cons c cs =>
    have hnewline : c = '\n'.toUInt8 := by simpa using hend
    rw [hnewline] at hhead
    exact hhead (show isspace '\n'.toUInt8 = true by decide)

theorem str2size_ok {s : CString} {v : ℕ} (h : str2size s = .ok v) :
    numeral s = some (v : ℤ) ∧ v < 2 ^ 31 := by
  have hconverts : Converts s v := str2size_converts h
  obtain ⟨value, hnumeral⟩ := Option.ne_none_iff_exists'.mp hconverts.numeral_ne_none
  have hvalue := strtol_of_numeral (dropWhile_isspace hconverts.head) hnumeral
  have hfits := hconverts.fits
  rw [hconverts.value] at hvalue
  -- The bounds of a `long` are outside those of an `int`.
  simp only [intMax, longMax, longMin] at hvalue hfits
  have heq : value = v := by
    split_ifs at hvalue <;> omega
  rw [hnumeral, heq]
  exact ⟨rfl, by omega⟩

/-- A number that fits an `int` comes through the cast exactly when it fits 16 bits. -/
theorem numeral_eq_cast_iff {s : CString} {v : ℕ} (h : str2size s = .ok v) :
    numeral s = some ((UInt16.ofNat v).toNat : ℤ) ↔ ∀ x ∈ numeral s, x < 2 ^ 16 := by
  rw [(str2size_ok h).1, UInt16.toNat_ofNat']
  simp only [Option.mem_some_iff, Option.some.injEq, forall_eq']
  omega

/-! ## The configuration -/

theorem readSize_eq_ok {s : CString} {e : CliError} {v : ℕ} :
    readSize s e = .ok v ↔ str2size s = .ok v := by
  unfold readSize
  cases str2size s <;> simp

/-- How a configuration comes from a command line: the format as it was read, and each number
as `str2size` read it, cast to 16 bits. -/
structure Reads {α : Type} (line : CommandLine) (config : Config α) : Prop where
  format : readFormat line.o = .ok config.toFormatFields
  maxConnections :
    ∃ v, str2size line.m = .ok v ∧ config.maxConnections = (UInt16.ofNat v).toUInt32
  port : ∃ v, str2size line.port = .ok v ∧ config.port = .ofNat v
  handleNum : ∃ v, str2size line.n = .ok v ∧ config.handleNum = (UInt16.ofNat v).toNat
  receiveNum : ∃ v, str2size line.N = .ok v ∧ config.receiveNum = (UInt16.ofNat v).toNat
  maxWindow : ∃ v ≤ maxWindowSize, str2size line.w = .ok v ∧
    config.maxWindow = (UInt16.ofNat v).toNat
  receiveWindowSize :
    ∃ v, str2size line.W = .ok v ∧ config.receiveWindowSize = (UInt16.ofNat v).toNat

variable {α : Type} {getaddrinfo : CString → CString → Option (α × List α)}
  {argv : List CString} {config : Config α}

theorem parseReceiver_ok (h : parseReceiver getaddrinfo argv = .ok config) :
    ∃ line, commandLine argv = .ok line ∧ Reads line config := by
  unfold parseReceiver at h
  obtain ⟨line, hline, h⟩ := bind_eq_ok.mp h
  obtain ⟨format, hformat, h⟩ := bind_eq_ok.mp h
  obtain ⟨max, hmax, h⟩ := bind_eq_ok.mp h
  obtain ⟨port, hport, h⟩ := bind_eq_ok.mp h
  obtain ⟨handleNum, hhandle, h⟩ := bind_eq_ok.mp h
  obtain ⟨receiveNum, hreceive, h⟩ := bind_eq_ok.mp h
  obtain ⟨window, hwindow, h⟩ := bind_eq_ok.mp h
  dsimp only at h
  split at h
  · obtain ⟨_, herror, _⟩ := bind_eq_ok.mp h
    cases herror
  · rename_i hle
    obtain ⟨receiveSize, hsize, h⟩ := bind_eq_ok.mp h
    split at h
    · cases h
    · cases h
      exact ⟨line, mapError_eq_ok.mp hline,
        { format := hformat
          maxConnections := ⟨max, readSize_eq_ok.mp hmax, rfl⟩
          port := ⟨port, readSize_eq_ok.mp hport, rfl⟩
          handleNum := ⟨handleNum, readSize_eq_ok.mp hhandle, rfl⟩
          receiveNum := ⟨receiveNum, readSize_eq_ok.mp hreceive, rfl⟩
          maxWindow := ⟨window, Nat.le_of_not_gt hle, readSize_eq_ok.mp hwindow, rfl⟩
          receiveWindowSize := ⟨receiveSize, readSize_eq_ok.mp hsize, rfl⟩ }⟩

theorem parseReceiver_format (h : parseReceiver getaddrinfo argv = .ok config) :
    ∃ o, readFormat o = .ok config.toFormatFields := by
  obtain ⟨line, -, hreads⟩ := parseReceiver_ok h
  exact ⟨line.o, hreads.format⟩

/-- The bounds that the server relies on. -/
theorem parseReceiver_bounds (h : parseReceiver getaddrinfo argv = .ok config) :
    config.maxConnections.toNat ≤ 65535 ∧ config.handleNum ≤ 65535 ∧
      config.receiveNum ≤ 65535 ∧ config.maxWindow ≤ maxWindowSize := by
  obtain ⟨line, -, hreads⟩ := parseReceiver_ok h
  obtain ⟨m, -, hmax⟩ := hreads.maxConnections
  obtain ⟨n, -, hhandle⟩ := hreads.handleNum
  obtain ⟨N, -, hreceive⟩ := hreads.receiveNum
  obtain ⟨w, hle, -, hwindow⟩ := hreads.maxWindow
  rw [hmax, hhandle, hreceive, hwindow, UInt16.toNat_toUInt32]
  simp only [UInt16.toNat_ofNat']
  have hmod : w % 2 ^ 16 ≤ w := Nat.mod_le w (2 ^ 16)
  omega

theorem Reads.numeral_maxWindow {line : CommandLine} (h : Reads line config) :
    numeral line.w = some (config.maxWindow : ℤ) := by
  obtain ⟨v, hle, hv, hconfig⟩ := h.maxWindow
  rw [hconfig, numeral_eq_cast_iff hv, (str2size_ok hv).1]
  intro x hx
  cases hx
  have hmax : maxWindowSize = 31 := rfl
  omega

/-- The numbers are kept exactly when none of the strings stands for a number of more than 16
bits. -/
theorem Reads.kept_iff {line : CommandLine} (h : Reads line config) :
    NumbersKept line config ↔
      ∀ s ∈ [line.m, line.port, line.n, line.N, line.W],
        ∀ x ∈ numeral s, x < 2 ^ 16 := by
  obtain ⟨m, hm, hmax⟩ := h.maxConnections
  obtain ⟨p, hp, hport⟩ := h.port
  obtain ⟨n, hn, hhandle⟩ := h.handleNum
  obtain ⟨N, hN, hreceive⟩ := h.receiveNum
  obtain ⟨W, hW, hsize⟩ := h.receiveWindowSize
  have hcast : config.maxConnections.toNat = (UInt16.ofNat m).toNat := by
    rw [hmax, UInt16.toNat_toUInt32]
  simp only [List.forall_mem_cons, List.not_mem_nil, false_implies, implies_true, and_true]
  rw [← numeral_eq_cast_iff hm, ← numeral_eq_cast_iff hp, ← numeral_eq_cast_iff hn,
    ← numeral_eq_cast_iff hN, ← numeral_eq_cast_iff hW, ← hcast, ← hport, ← hhandle, ← hreceive,
    ← hsize]
  constructor
  · intro hkept
    exact ⟨hkept.maxConnections, hkept.port, hkept.handleNum, hkept.receiveNum,
      hkept.receiveWindowSize⟩
  · rintro ⟨hm, hp, hn, hN, hW⟩
    exact ⟨hm, hp, hn, hN, h.numeral_maxWindow, hW⟩

/-- An accepted command line gives its numbers to the configuration exactly when no number but
that of the window, which is compared with a bound, is above 65535. -/
theorem numbersKept_iff (h : parseReceiver getaddrinfo argv = .ok config) :
    ∃ line, commandLine argv = .ok line ∧
      (NumbersKept line config ↔
        ∀ s ∈ [line.m, line.port, line.n, line.N, line.W],
          ∀ x ∈ numeral s, x < 2 ^ 16) := by
  obtain ⟨line, hline, hreads⟩ := parseReceiver_ok h
  exact ⟨line, hline, hreads.kept_iff⟩

def localArgv (options : List CString) : List CString :=
  ("receiver".toList.map Char.toUInt8) :: options ++
    ["::1".toList.map Char.toUInt8, "1234".toList.map Char.toUInt8]

def localConfig (maxConnections : UInt32) : Config Unit where
  format := defaultOutFormat
  formatLen := defaultOutFormat.length
  deallocateFormat := false
  sequential := false
  maxConnections := maxConnections
  port := 1234
  handleNum := 2
  receiveNum := 1
  maxWindow := 31
  receiveWindowSize := 31
  addrInfo := ()

theorem numbersKept_iff_localArgv :
    parseReceiver (fun _ _ => some ((), [])) (localArgv []) = .ok (localConfig 100) ∧
      ∃ line, commandLine (localArgv []) = .ok line ∧ NumbersKept line (localConfig 100) := by
  have hok : parseReceiver (fun _ _ => some ((), [])) (localArgv []) = .ok (localConfig 100) :=
    rfl
  obtain ⟨line, hline, hiff⟩ := numbersKept_iff hok
  refine ⟨hok, line, hline, hiff.mpr ?_⟩
  cases hline
  decide

/-- With `-m 65536` the receiver starts and accepts no client. -/
theorem not_numbersKept_65536 :
    let argv := localArgv ["-m".toList.map Char.toUInt8, "65536".toList.map Char.toUInt8]
    parseReceiver (fun _ _ => some ((), [])) argv = .ok (localConfig 0) ∧
      ∃ line, commandLine argv = .ok line ∧ numeral line.m = some 65536 ∧
        ¬ NumbersKept line (localConfig 0) := by
  refine ⟨rfl, _, rfl, by decide, fun hkept => ?_⟩
  exact absurd hkept.maxConnections (by decide)

end Trtp.Cli
