import Trtp.Cli.Affinity
import Trtp.Cli.Numbers

/-!
# How command lines are written

A word of the command line is an operand or a minus sign followed by option letters, of which
only the last one may take an argument: the rest of the word or, if nothing is left, the whole
next word.  Operands stand anywhere, and behind the word `--` every word is one.

`parse_receiver` takes a command line apart exactly when it is written in this way with two
operands, and of the values of an option the last one counts (`commandLine_iff`).  So a
configuration is read back from every command line that is written for it
(`parseReceiver_written`).
-/

namespace Trtp.Cli

/-- The word is none with options. -/
def IsOperand (word : CString) : Prop := ¬ (word.head? = some '-'.toUInt8 ∧ word.tail ≠ [])

instance (word : CString) : Decidable (IsOperand word) := inferInstanceAs (Decidable (¬ _))

/-- The words for some options, or an operand.  The first of the options are `n` times `s`. -/
inductive Arg where
  | flags (n : ℕ)
  /-- `c` has its argument in the same word. -/
  | glued (n : ℕ) (c : UInt8) (optarg : CString) (hc : optstring c = some true)
    (hne : optarg ≠ [])
  /-- `c` has the next word as its argument. -/
  | separate (n : ℕ) (c : UInt8) (optarg : CString) (hc : optstring c = some true)
  | operand (word : CString) (hword : IsOperand word)

namespace Arg

def words : Arg → List CString
  | flags n => ['-'.toUInt8 :: List.replicate (n + 1) 's'.toUInt8]
  | glued n c optarg _ _ => ['-'.toUInt8 :: (List.replicate n 's'.toUInt8 ++ c :: optarg)]
  | separate n c optarg _ => ['-'.toUInt8 :: (List.replicate n 's'.toUInt8 ++ [c]), optarg]
  | operand word _ => [word]

def opts : Arg → List Opt
  | flags n => List.replicate (n + 1) (.flag 's'.toUInt8)
  | glued n c optarg _ _ => List.replicate n (.flag 's'.toUInt8) ++ [.value c optarg]
  | separate n c optarg _ => List.replicate n (.flag 's'.toUInt8) ++ [.value c optarg]
  | operand _ _ => []

def operands : Arg → List CString
  | operand word _ => [word]
  | _ => []

end Arg

abbrev dashes : CString := ['-', '-'].map Char.toUInt8

/-- A command line without the name of the program.  `behind` are the words behind `--`, if
this word is there. -/
structure Written where
  args : List Arg
  behind : Option (List CString)

namespace Written

def words (w : Written) : List CString :=
  w.args.flatMap Arg.words ++ w.behind.elim [] fun words => dashes :: words

def opts (w : Written) : List Opt := w.args.flatMap Arg.opts

def operands (w : Written) : List CString := w.args.flatMap Arg.operands ++ w.behind.getD []

def cons (arg : Arg) (w : Written) : Written := ⟨arg :: w.args, w.behind⟩

theorem words_cons (arg : Arg) (w : Written) : (w.cons arg).words = arg.words ++ w.words :=
  List.append_assoc ..

theorem opts_cons (arg : Arg) (w : Written) : (w.cons arg).opts = arg.opts ++ w.opts := rfl

theorem operands_cons (arg : Arg) (w : Written) :
    (w.cons arg).operands = arg.operands ++ w.operands := List.append_assoc ..

end Written

def Opt.argument (c : Char) : Opt → Option CString
  | .value c' optarg => if c' = c.toUInt8 then some optarg else none
  | _ => none

def lastArgument (opts : List Opt) (c : Char) (default : CString) : CString :=
  (opts.filterMap (Opt.argument c)).getLastD default

/-- The variables of `parse_receiver` after these options. -/
def Options.after (options : Options) (opts : List Opt) : Options where
  m := lastArgument opts 'm' options.m
  W := lastArgument opts 'W' options.W
  w := lastArgument opts 'w' options.w
  n := lastArgument opts 'n' options.n
  N := lastArgument opts 'N' options.N
  o := lastArgument opts 'o' options.o
  sequential := opts.any (· = .flag 's'.toUInt8) || options.sequential

def Written.options (w : Written) : Options := Options.default.after w.opts

/-! ## getopt -/

section Words

variable {n : ℕ} {c : UInt8} {cs optarg : CString} {words : List CString}

theorem letters_flags (n : ℕ) (cs : CString) :
    letters (List.replicate n 's'.toUInt8 ++ cs) =
      (List.replicate n (.flag 's'.toUInt8) ++ (letters cs).1, (letters cs).2) := by
  have hs : optstring 's'.toUInt8 = some false := by decide
  induction n with
  | zero => rfl
  | succ n ih =>
    rw [List.replicate_succ, List.cons_append, letters, hs]
    dsimp only
    rw [ih]
    rfl

theorem letters_glued (hc : optstring c = some true) (hne : optarg ≠ []) :
    letters (c :: optarg) = ([.value c optarg], none) := by
  rw [letters, hc]
  simp [hne]

theorem letters_separate (hc : optstring c = some true) : letters [c] = ([], some c) := by
  rw [letters, hc]
  rfl

/-- No option is a minus sign, so that no word with options is `--`. -/
theorem options_ne_dashes (hc : optstring c ≠ none) :
    '-'.toUInt8 :: (List.replicate n 's'.toUInt8 ++ c :: cs) ≠ dashes := by
  intro h
  have htail : List.replicate n 's'.toUInt8 ++ c :: cs = ['-'.toUInt8] := (List.cons.inj h).2
  cases n with
  | zero =>
    rw [List.replicate_zero, List.nil_append] at htail
    rw [(List.cons.inj htail).1] at hc
    exact hc (by decide)
  | succ n => exact absurd (List.cons.inj htail).1 (by decide)

theorem getopt_options {word : CString} (hword : '-'.toUInt8 :: word ≠ dashes) (hne : word ≠ [])
    {opts : List Opt} (hletters : letters word = (opts, none)) :
    getopt (('-'.toUInt8 :: word) :: words) = (opts ++ (getopt words).1, (getopt words).2) := by
  conv_lhs => unfold getopt
  rw [if_neg hword, if_pos ⟨rfl, hne⟩]
  simp only [List.tail_cons, hletters]

theorem getopt_waiting {word : CString} (hword : '-'.toUInt8 :: word ≠ dashes) (hne : word ≠ [])
    {opts : List Opt} (hletters : letters word = (opts, some c)) :
    getopt (('-'.toUInt8 :: word) :: optarg :: words) =
      (opts ++ .value c optarg :: (getopt words).1, (getopt words).2) := by
  conv_lhs => unfold getopt
  rw [if_neg hword, if_pos ⟨rfl, hne⟩]
  simp only [List.tail_cons, hletters]

end Words

/-- `getopt` finds the options and the operands in the words that are written for them. -/
theorem getopt_words (w : Written) : getopt w.words = (w.opts, w.operands) := by
  obtain ⟨args, behind⟩ := w
  have hs : optstring 's'.toUInt8 ≠ none := by decide
  induction args with
  | nil =>
    cases behind with
    | none => rfl
    | some words =>
      show getopt (dashes :: words) = _
      unfold getopt
      exact if_pos rfl
  | cons arg args ih =>
    show getopt (Written.cons arg ⟨args, behind⟩).words =
      ((Written.cons arg ⟨args, behind⟩).opts, (Written.cons arg ⟨args, behind⟩).operands)
    rw [Written.words_cons, Written.opts_cons, Written.operands_cons]
    cases arg with
    | flags n =>
      have hletters := letters_flags (n + 1) []
      rw [List.append_nil] at hletters
      have hne : '-'.toUInt8 :: List.replicate (n + 1) 's'.toUInt8 ≠ dashes := by
        rw [List.replicate_succ']
        exact options_ne_dashes hs
      show getopt (_ :: Written.words ⟨args, behind⟩) = _
      rw [getopt_options hne (by simp) hletters, ih, letters, List.append_nil]
      rfl
    | glued n c optarg hc hne =>
      have hletters := letters_flags n (c :: optarg)
      rw [letters_glued hc hne] at hletters
      show getopt (_ :: Written.words ⟨args, behind⟩) = _
      rw [getopt_options (options_ne_dashes (by simp [hc])) (by simp) hletters, ih]
      rfl
    | separate n c optarg hc =>
      have hletters := letters_flags n [c]
      rw [letters_separate hc, List.append_nil] at hletters
      show getopt (_ :: optarg :: Written.words ⟨args, behind⟩) = _
      rw [getopt_waiting (options_ne_dashes (by simp [hc])) (by simp) hletters, ih,
        List.append_cons]
      rfl
    | operand word hword =>
      have hne : word ≠ dashes := by
        rintro rfl
        exact hword ⟨rfl, by decide⟩
      show getopt (word :: Written.words ⟨args, behind⟩) = _
      unfold getopt
      rw [if_neg hne, if_neg hword, ih]
      rfl

/-! ## What is accepted -/

def Opt.IsError : Opt → Prop
  | .missing _ => True
  | .unknown _ => True
  | _ => False

theorem optstring_flag {c : UInt8} (h : optstring c = some false) : c = 's'.toUInt8 := by
  unfold optstring at h
  by_contra hs
  rw [if_neg hs] at h
  split_ifs at h
  cases h

theorem optstring_value {c : UInt8} (h : optstring c = some true) :
    c ∈ ['m', 'o', 'n', 'w', 'N', 'W'].map Char.toUInt8 := by
  by_contra hc
  unfold optstring at h
  rw [if_neg hc] at h
  split_ifs at h
  cases h

theorem letters_cases {cs : CString} (h : ∀ opt ∈ (letters cs).1, ¬ opt.IsError) :
    ∃ n, cs = List.replicate n 's'.toUInt8 ∨ ∃ c optarg, optstring c = some true ∧
      cs = List.replicate n 's'.toUInt8 ++ c :: optarg := by
  induction cs with
  | nil => exact ⟨0, .inl rfl⟩
  | cons c cs ih =>
    cases hc : optstring c with
    | none =>
      refine absurd trivial (h (.unknown c) ?_)
      rw [letters, hc]
      exact List.mem_cons_self
    | some argument =>
      cases argument with
      | true => exact ⟨0, .inr ⟨c, cs, hc, rfl⟩⟩
      | false =>
        rw [optstring_flag hc] at h ⊢
        have hrest : ∀ opt ∈ (letters cs).1, ¬ opt.IsError := by
          have hflag := letters_flags 1 cs
          rw [List.replicate_one, List.singleton_append] at hflag
          rw [hflag] at h
          exact fun opt hopt => h opt (List.mem_append_right _ hopt)
        obtain ⟨n, rfl | ⟨c', optarg, hc', rfl⟩⟩ := ih hrest
        · exact ⟨n + 1, .inl rfl⟩
        · exact ⟨n + 1, .inr ⟨c', optarg, hc', rfl⟩⟩

/-- Words in which `getopt` finds no error are written as a command line. -/
theorem exists_written {words : List CString} (h : ∀ opt ∈ (getopt words).1, ¬ opt.IsError) :
    ∃ w : Written, w.words = words := by
  induction hn : words.length using Nat.strong_induction_on generalizing words with
  | _ k ih =>
  cases words with
  | nil => exact ⟨⟨[], none⟩, rfl⟩
  | cons word words =>
    by_cases hdashes : word = dashes
    · exact ⟨⟨[], some words⟩, by rw [hdashes]; rfl⟩
    by_cases hword : word.head? = some '-'.toUInt8 ∧ word.tail ≠ []
    swap
    · have hrest : ∀ opt ∈ (getopt words).1, ¬ opt.IsError := by
        unfold getopt at h
        rwa [if_neg hdashes, if_neg hword] at h
      obtain ⟨w, rfl⟩ := ih _ (hn ▸ Nat.lt_succ_self _) hrest rfl
      exact ⟨w.cons (.operand word hword), w.words_cons _⟩
    obtain ⟨cs, rfl⟩ : ∃ cs, word = '-'.toUInt8 :: cs := by
      cases word with
      | nil => cases hword.1
      | cons c cs => exact ⟨cs, by rw [Option.some.inj hword.1]⟩
    have hne : cs ≠ [] := hword.2
    have hletters : ∀ opt ∈ (letters cs).1, ¬ opt.IsError := by
      intro opt hopt
      refine h opt ?_
      unfold getopt
      rw [if_neg hdashes, if_pos hword, List.tail_cons]
      split
      all_goals
        rename_i heq
        rw [heq] at hopt
        exact List.mem_append_left _ hopt
    obtain ⟨n, rfl | ⟨c, optarg, hc, rfl⟩⟩ := letters_cases hletters
    · -- Only flags
      cases n with
      | zero => exact absurd rfl hne
      | succ n =>
        have hflags := letters_flags (n + 1) []
        rw [List.append_nil] at hflags
        rw [getopt_options hdashes hne hflags] at h
        obtain ⟨w, rfl⟩ := ih _ (hn ▸ Nat.lt_succ_self _)
          (fun opt hopt => h opt (List.mem_append_right _ hopt)) rfl
        exact ⟨w.cons (.flags n), w.words_cons _⟩
    by_cases hempty : optarg = []
    · -- The argument is the next word.
      subst hempty
      have hwaiting := letters_flags n [c]
      rw [letters_separate hc, List.append_nil] at hwaiting
      cases words with
      | nil =>
        refine absurd trivial (h (.missing c) ?_)
        unfold getopt
        rw [if_neg hdashes, if_pos hword, List.tail_cons, hwaiting]
        exact List.mem_append_right _ List.mem_cons_self
      | cons optarg words =>
        rw [getopt_waiting hdashes hne hwaiting] at h
        obtain ⟨w, rfl⟩ := ih _ (hn ▸ Nat.lt_succ_of_lt (Nat.lt_succ_self _))
          (fun opt hopt => h opt (List.mem_append_right _ (List.mem_cons_of_mem _ hopt))) rfl
        exact ⟨w.cons (.separate n c optarg hc), w.words_cons _⟩
    · have hglued := letters_flags n (c :: optarg)
      rw [letters_glued hc hempty] at hglued
      rw [getopt_options hdashes hne hglued] at h
      obtain ⟨w, rfl⟩ := ih _ (hn ▸ Nat.lt_succ_self _)
        (fun opt hopt => h opt (List.mem_append_right _ hopt)) rfl
      exact ⟨w.cons (.glued n c optarg hc hempty), w.words_cons _⟩

/-! ## The options -/

theorem mem_opts {w : Written} {opt : Opt} (h : opt ∈ w.opts) :
    opt = .flag 's'.toUInt8 ∨
      ∃ c optarg, opt = .value c optarg ∧ optstring c = some true := by
  obtain ⟨arg, -, hopt⟩ := List.mem_flatMap.mp h
  have hvalue : ∀ {n c optarg}, optstring c = some true →
      opt ∈ List.replicate n (.flag 's'.toUInt8) ++ [.value c optarg] →
        opt = .flag 's'.toUInt8 ∨
          ∃ c optarg, opt = .value c optarg ∧ optstring c = some true := by
    intro n c optarg hc hmem
    rcases List.mem_append.mp hmem with hmem | hmem
    · exact .inl (List.eq_of_mem_replicate hmem)
    · exact .inr ⟨c, optarg, List.mem_singleton.mp hmem, hc⟩
  cases arg with
  | flags n => exact .inl (List.eq_of_mem_replicate hopt)
  | glued n c optarg hc hne => exact hvalue hc hopt
  | separate n c optarg hc => exact hvalue hc hopt
  | operand word hword => cases hopt

theorem lastArgument_cons (opt : Opt) (opts : List Opt) (c : Char) (default : CString) :
    lastArgument (opt :: opts) c default =
      lastArgument opts c (lastArgument [opt] c default) := by
  unfold lastArgument
  cases h : Opt.argument c opt with
  | none => rw [List.filterMap_cons_none h, List.filterMap_cons_none h]; rfl
  | some optarg =>
    rw [List.filterMap_cons_some h, List.filterMap_cons_some h, List.getLastD_cons]
    rfl

theorem Options.after_cons (options : Options) (opt : Opt) (opts : List Opt) :
    options.after (opt :: opts) = (options.after [opt]).after opts := by
  unfold Options.after
  simp only [lastArgument_cons opt opts, List.any_cons, List.any_nil, Bool.or_false,
    Bool.or_left_comm, Bool.or_assoc]

theorem set_after {options : Options} {opt : Opt}
    (h : opt = .flag 's'.toUInt8 ∨ ∃ c optarg, opt = .value c optarg ∧ optstring c = some true) :
    options.set opt = .ok (options.after [opt]) := by
  rcases h with rfl | ⟨c, optarg, rfl, hc⟩
  · simp [Options.set, Options.after, lastArgument, Opt.argument]
  · have hmem := optstring_value hc
    simp only [List.map_cons, List.map_nil, List.mem_cons, List.not_mem_nil, or_false] at hmem
    rcases hmem with rfl | rfl | rfl | rfl | rfl | rfl <;> rfl

theorem foldlM_set {opts : List Opt} (options : Options)
    (h : ∀ opt ∈ opts, opt = .flag 's'.toUInt8 ∨
      ∃ c optarg, opt = .value c optarg ∧ optstring c = some true) :
    opts.foldlM Options.set options = .ok (options.after opts) := by
  induction opts generalizing options with
  | nil => simp [Options.after, lastArgument, pure, Except.pure]
  | cons opt opts ih =>
    rw [List.foldlM_cons, set_after (h opt List.mem_cons_self),
      Options.after_cons options opt opts]
    exact ih _ fun o ho => h o (List.mem_cons_of_mem opt ho)

theorem not_isError_of_foldlM {opts : List Opt} {options options' : Options}
    (h : opts.foldlM Options.set options = .ok options') : ∀ opt ∈ opts, ¬ opt.IsError := by
  induction opts generalizing options with
  | nil => simp
  | cons opt opts ih =>
    rw [List.foldlM_cons] at h
    obtain ⟨next, hset, hrest⟩ := bind_eq_ok.mp h
    rw [List.forall_mem_cons]
    refine ⟨fun herror => ?_, ih hrest⟩
    cases opt with
    | flag c => exact herror
    | value c optarg => exact herror
    | missing c => cases hset
    | unknown c => cases hset

/-- The command lines that `parse_receiver` takes apart are those written with two operands, in
whatever order, and the last argument of an option counts.  `getopt` permutes the words, as it
does unless `POSIXLY_CORRECT` is set. -/
theorem commandLine_iff (argv : List CString) (line : CommandLine) :
    commandLine argv = .ok line ↔
      ∃ w : Written, w.words = argv.tail ∧ w.operands = [line.ip, line.port] ∧
        line.toOptions = w.options := by
  constructor
  · intro h
    unfold commandLine at h
    obtain ⟨options, hoptions, h⟩ := bind_eq_ok.mp h
    obtain ⟨w, hw⟩ := exists_written (not_isError_of_foldlM hoptions)
    rw [← hw, getopt_words] at hoptions h
    rw [foldlM_set _ fun opt => mem_opts] at hoptions
    refine ⟨w, hw, ?_⟩
    dsimp only at h
    split at h
    · cases h
    · cases h
    · rename_i ip port hoperands
      cases h
      exact ⟨hoperands, (Except.ok.inj hoptions).symm⟩
    · cases h
  · rintro ⟨w, hwords, hoperands, hoptions⟩
    unfold commandLine
    rw [← hwords, getopt_words]
    dsimp only
    rw [foldlM_set _ fun opt => mem_opts, hoperands]
    show Except.ok ({ w.options with ip := line.ip, port := line.port } : CommandLine) = _
    rw [← hoptions]

/-! ## The configuration -/

/-- What a command line is written for. -/
structure Settings where
  ip : CString
  port : UInt16
  maxConnections : UInt16
  handleNum : UInt16
  receiveNum : UInt16
  maxWindow : UInt16
  maxWindow_le : maxWindow.toNat ≤ maxWindowSize
  receiveWindowSize : UInt16
  format : CString
  nameFormat : NameFormat format
  sequential : Bool

/-- The command line has the numbers in decimal, as the last arguments of their options or as
defaults, and the format with or without quotation marks. -/
structure Written.For (line : Written) (s : Settings) : Prop where
  operands : line.operands = [s.ip, decimalDigits s.port.toNat]
  m : line.options.m = decimalDigits s.maxConnections.toNat
  n : line.options.n = decimalDigits s.handleNum.toNat
  N : line.options.N = decimalDigits s.receiveNum.toNat
  w : line.options.w = decimalDigits s.maxWindow.toNat
  W : line.options.W = decimalDigits s.receiveWindowSize.toNat
  o : unquoted line.options.o = s.format
  short : line.options.o.length < 2 ^ 31
  sequential : line.options.sequential = s.sequential

/-- The configuration with these settings.  `deallocate` says that the format is a copy. -/
def Settings.config {α : Type} (s : Settings) (addrInfo : α) (deallocate : Bool) : Config α where
  format := s.format
  formatLen := s.format.length
  deallocateFormat := deallocate
  sequential := s.sequential
  maxConnections := s.maxConnections.toUInt32
  port := s.port
  handleNum := s.handleNum.toNat
  receiveNum := s.receiveNum.toNat
  maxWindow := s.maxWindow.toNat
  receiveWindowSize := s.receiveWindowSize.toNat
  addrInfo := addrInfo

theorem readSize_decimalDigits (n : UInt16) (e : CliError) :
    readSize (decimalDigits n.toNat) e = .ok n.toNat := by
  have hlt : n.toNat < 2 ^ 31 := n.toNat_lt.trans (by decide)
  have hend : LineEnd [] := rfl
  have hread := str2size_decimalDigits hlt hend
  rw [List.take_nil, List.append_nil] at hread
  exact readSize_eq_ok.mpr hread

/-- A format in quotation marks, or without them, is stored as it is meant. -/
theorem readFormat_unquoted {s format : CString} (hs : unquoted s = format)
    (hname : NameFormat format) (hshort : s.length < 2 ^ 31) :
    readFormat s = .ok ⟨format, format.length,
      decide ((behindQuote s).getLast? = some quotationMark)⟩ := by
  have hsize := length_behindQuote s
  have hne : format ≠ [] := by
    obtain ⟨before, -, digits, -, after, -, rfl⟩ := hname
    simp
  have hpos : 1 ≤ (behindQuote s).length := by
    refine List.length_pos_iff.mpr fun hnil => hne ?_
    rw [← hs, unquoted, hnil]
    rfl
  have hlen : intLength (behindQuote s) = (behindQuote s).length := by
    unfold intLength
    exact Int.bmod_eq_of_le (by omega) (by omega)
  have hmatch : regexFormat.rmatch format = true := rmatch_iff_nameFormat.mpr hname
  rw [readFormat_inside hlen hpos, ← List.getLast?_eq_getElem?]
  by_cases hlast : (behindQuote s).getLast? = some quotationMark
  · rw [if_pos hlast, decide_eq_true hlast, ← List.dropLast_eq_take, ← unquoted_of_last hlast, hs,
      validate, if_pos hmatch]
  · rw [if_neg hlast, decide_eq_false hlast, ← unquoted_of_not_last hlast, hs, validate,
      if_pos hmatch]

/-- Whatever the order of the options and operands, and in whatever words they are, the
configuration is the one that the command line is written for, if the address resolves and the
argument of `-o` has a length that an `int` holds. -/
theorem parseReceiver_written {α : Type}
    (getaddrinfo : CString → CString → Option (α × List α)) (program : CString) (w : Written)
    (s : Settings) (hw : w.For s) (first : α) (more : List α)
    (haddress : getaddrinfo s.ip (decimalDigits s.port.toNat) = some (first, more)) :
    parseReceiver getaddrinfo (program :: w.words) =
      .ok (s.config (more.getLastD first)
        (decide ((behindQuote w.options.o).getLast? = some quotationMark))) := by
  have hline : commandLine (program :: w.words) =
      .ok { w.options with ip := s.ip, port := decimalDigits s.port.toNat } :=
    (commandLine_iff _ _).mpr ⟨w, rfl, hw.operands, rfl⟩
  have hformat := readFormat_unquoted hw.o s.nameFormat hw.short
  have hwindow : ¬ s.maxWindow.toNat > maxWindowSize := not_lt.mpr s.maxWindow_le
  unfold parseReceiver
  rw [hline]
  simp only [Except.mapError, ok_bind, hformat, hw.m, hw.n, hw.N, hw.w, hw.W,
    readSize_decimalDigits, if_neg hwindow, haddress, UInt16.ofNat_toNat, hw.sequential]
  rfl

def bytes (s : String) : CString := s.toList.map Char.toUInt8

/-- `-sn3 ::1 -o "%d" -n 4 1234` -/
theorem parseReceiver_written_twice :
    parseReceiver (fun _ _ => some ((), []))
        (["receiver", "-sn3", "::1", "-o", "\"%d\"", "-n", "4", "1234"].map bytes) =
      .ok { localConfig 100 with sequential := true, handleNum := 4, deallocateFormat := true } :=
  parseReceiver_written (fun _ _ => some ((), [])) (bytes "receiver")
    ⟨[.glued 1 'n'.toUInt8 (bytes "3") (by decide) (by decide),
      .operand (bytes "::1") (by decide), .separate 0 'o'.toUInt8 (bytes "\"%d\"") (by decide),
      .separate 0 'n'.toUInt8 (bytes "4") (by decide), .operand (bytes "1234") (by decide)], none⟩
    { ip := bytes "::1", port := 1234, maxConnections := 100, handleNum := 4, receiveNum := 1
      maxWindow := 31, maxWindow_le := by decide, receiveWindowSize := 31
      format := defaultOutFormat
      nameFormat := ⟨[], by simp, [], by simp, [], by simp, by decide⟩
      sequential := true }
    { operands := by decide +kernel, m := by decide +kernel, n := by decide +kernel
      N := by decide +kernel, w := by decide +kernel, W := by decide +kernel
      o := by decide +kernel, short := by decide +kernel, sequential := by decide +kernel }
    () [] rfl

end Trtp.Cli
