import Mathlib.Algebra.Group.Nat.Defs
import Trtp.Cli.Format
import Trtp.Cli.Streams
import Trtp.Handler.Buffer

/-!
# The command line

`parse_receiver` of `src/cli.c`: the options are taken off the command line with `getopt`, the
output format is stripped of its quotation marks and validated, the numbers are read with
`str2size` and cast to 16 bits, and the address is looked up.

C does not check the accesses that the quotation marks are looked for and taken off with.
Here the function stops at the first one that leaves its object.
-/

namespace Trtp.Cli

/-- The values of `errno` that `parse_receiver` sets, memory not running out. -/
inductive CliError where
  | oValueMissing
  | unknownOption
  | ipMissing
  | portMissing
  | tooManyArguments
  | formatValidationFailed
  | ipInvalid
  | maxInvalid
  | portInvalid
  | handleInvalid
  | windowInvalid
  deriving DecidableEq, Repr

/-! ## getopt -/

/-- What a call of `getopt` returns, with `optarg`. -/
inductive Opt where
  | flag (c : UInt8)
  | value (c : UInt8) (optarg : CString)
  /-- `:`, the option needs an argument and is the last word -/
  | missing (c : UInt8)
  /-- `?`, there is no such option -/
  | unknown (c : UInt8)
  deriving DecidableEq, Repr

/-- The option string `:m:o:n:w:sN:W:`: whether a letter takes an argument, if it is an
option. -/
def optstring (c : UInt8) : Option Bool :=
  if c ∈ ['m', 'o', 'n', 'w', 'N', 'W'].map Char.toUInt8 then some true
  else if c = 's'.toUInt8 then some false
  else none

/-- The options in the letters of a word, and the one at its end that waits for the next
word. -/
def letters : CString → List Opt × Option UInt8
  | [] => ([], none)
  | c :: cs =>
    match optstring c with
    | none => let (opts, waiting) := letters cs; (.unknown c :: opts, waiting)
    | some false => let (opts, waiting) := letters cs; (.flag c :: opts, waiting)
    | some true => if cs.isEmpty then ([], some c) else ([.value c cs], none)

/-- The calls of `getopt` until it returns -1, and the words from `optind` on: `getopt` moves
the words that are no options behind the others.  Everything behind the word `--` is left. -/
def getopt : List CString → List Opt × List CString
  | [] => ([], [])
  | word :: words =>
    if word = ['-', '-'].map Char.toUInt8 then ([], words)
    else if word.head? = some '-'.toUInt8 ∧ word.tail ≠ [] then
      match letters word.tail, words with
      | (opts, none), words => let (more, rest) := getopt words; (opts ++ more, rest)
      | (opts, some c), [] => (opts ++ [.missing c], [])
      | (opts, some c), optarg :: words =>
        let (more, rest) := getopt words; (opts ++ .value c optarg :: more, rest)
    else let (more, rest) := getopt words; (more, word :: rest)

def defaultOutFormat : CString := ['%', 'd'].map Char.toUInt8

structure Options where
  m : CString
  W : CString
  w : CString
  n : CString
  N : CString
  o : CString
  sequential : Bool
  deriving DecidableEq, Repr

/-- `DEFAULT_MAX_CAPACITY`, `MAX_WINDOW_SIZE`, `DEFAULT_HANDLER_COUNT`,
`DEFAULT_RECEIVER_COUNT` and `DEFAULT_OUT_FORMAT`. -/
def Options.default : Options where
  m := ['1', '0', '0'].map Char.toUInt8
  W := ['3', '1'].map Char.toUInt8
  w := ['3', '1'].map Char.toUInt8
  n := ['2'].map Char.toUInt8
  N := ['1'].map Char.toUInt8
  o := defaultOutFormat
  sequential := false

def Options.set (options : Options) : Opt → Except CliError Options
  | .flag _ => .ok { options with sequential := true }
  | .value c optarg =>
    if c = 'm'.toUInt8 then .ok { options with m := optarg }
    else if c = 'W'.toUInt8 then .ok { options with W := optarg }
    else if c = 'o'.toUInt8 then .ok { options with o := optarg }
    else if c = 'w'.toUInt8 then .ok { options with w := optarg }
    else if c = 'n'.toUInt8 then .ok { options with n := optarg }
    else if c = 'N'.toUInt8 then .ok { options with N := optarg }
    else .error .unknownOption
  | .missing _ => .error .oValueMissing
  | .unknown _ => .error .unknownOption

structure CommandLine extends Options where
  ip : CString
  port : CString
  deriving DecidableEq, Repr

/-- `parse_receiver` up to the check for too many arguments. -/
def commandLine (argv : List CString) : Except CliError CommandLine := do
  let (opts, rest) := getopt argv.tail
  let options ← opts.foldlM Options.set Options.default
  match rest with
  | [] => .error .ipMissing
  | [_] => .error .portMissing
  | [ip, port] => .ok { options with ip := ip, port := port }
  | _ => .error .tooManyArguments

/-! ## The format -/

/-- What the function may access for the format: the argument with its terminating zero, and
the copy made with `malloc`. -/
inductive Object where
  | argument
  | copy
  deriving DecidableEq, Repr

structure Access where
  object : Object
  start : ℤ
  count : ℕ
  deriving DecidableEq, Repr

def Access.Inside (a : Access) (size : ℕ) : Prop := 0 ≤ a.start ∧ a.start + a.count ≤ size

instance (a : Access) (size : ℕ) : Decidable (a.Inside size) :=
  inferInstanceAs (Decidable (_ ∧ _))

/-- Why `parse_receiver` does not come to its end: it returns -1, or its behaviour is not
defined. -/
inductive Stop where
  | error (e : CliError)
  | outside (a : Access)
  deriving DecidableEq, Repr

def load (s : CString) (start : ℤ) (count : ℕ) : Except Stop CString :=
  let a : Access := ⟨.argument, start, count⟩
  if a.Inside (s.length + 1) then .ok (((s ++ [0]).drop start.toNat).take count)
  else .error (.outside a)

def store (size : ℕ) (start : ℤ) (count : ℕ) : Except Stop Unit :=
  let a : Access := ⟨.copy, start, count⟩
  if a.Inside size then .ok () else .error (.outside a)

/-- The fields of `config_rcv_t` for the format. -/
structure FormatFields where
  format : CString
  formatLen : ℕ
  deallocateFormat : Bool
  deriving DecidableEq, Repr

/-- The validation with `regexec` and the stores to `config`. -/
def validate (o : CString) (deallocateFormat : Bool) : Except Stop FormatFields :=
  if regexFormat.rmatch o then .ok ⟨o, o.length, deallocateFormat⟩
  else .error (.error .formatValidationFailed)

/-- `int len = strlen(o)`. -/
def intLength (o : CString) : ℤ := (o.length : ℤ).bmod (2 ^ 32)

/-- An `int` as a `size_t`. -/
def sizeT (n : ℤ) : ℕ := (n % 2 ^ 64).toNat

/-- The part of `parse_receiver` that reads the `-o` argument `s`, with `malloc` and
`regcomp` succeeding.  `o` is the offset in `s` of what the variable `o` points to. -/
def readFormat (s : CString) : Except Stop FormatFields := do
  let first ← load s 0 1
  let o := if first = [quotationMark] then 1 else 0
  let len := intLength (s.drop o)
  let last ← load s (o + len - 1) 1
  if last = [quotationMark] then
    let size := sizeT len
    let bytes ← load s o (sizeT (len - 1))
    store size 0 (sizeT (len - 1))
    store size (len - 1) 1
    validate bytes true
  else validate (s.drop o) false

/-! ## The configuration -/

/-- `config_rcv_t`, as far as `parse_receiver` sets it.  `α` is `struct addrinfo`. -/
structure Config (α : Type) extends ConfigRcv, FormatFields where
  sequential : Bool
  maxWindow : ℕ
  receiveWindowSize : ℕ
  maxConnections : UInt32
  addrInfo : α
  port : UInt16

/-- A number on the command line.  The tests `< 0` that follow `str2size` are on a `size_t`
and never true. -/
def readSize (s : CString) (e : CliError) : Except Stop ℕ :=
  match str2size s with
  | .ok value => .ok value
  | .error _ => .error (.error e)

/-- `parse_receiver`.  `getaddrinfo` returns the first element of its list and the others, of
which the last one is kept. -/
def parseReceiver {α : Type} (getaddrinfo : CString → CString → Option (α × List α))
    (argv : List CString) : Except Stop (Config α) := do
  let line ← (commandLine argv).mapError .error
  let format ← readFormat line.o
  let max ← readSize line.m .maxInvalid
  let portNumber ← readSize line.port .portInvalid
  let handleNum ← readSize line.n .handleInvalid
  let receiveNum ← readSize line.N .handleInvalid
  let maxWindow ← readSize line.w .windowInvalid
  if maxWindow > maxWindowSize then .error (.error .windowInvalid)
  let receiveSize ← readSize line.W .windowInvalid
  match getaddrinfo line.ip line.port with
  | none => .error (.error .ipInvalid)
  | some (first, more) =>
    .ok
      { format with
        sequential := line.sequential
        maxConnections := (UInt16.ofNat max).toUInt32
        port := .ofNat portNumber
        handleNum := (UInt16.ofNat handleNum).toNat
        receiveNum := (UInt16.ofNat receiveNum).toNat
        maxWindow := (UInt16.ofNat maxWindow).toNat
        receiveWindowSize := (UInt16.ofNat receiveSize).toNat
        addrInfo := more.getLastD first }

/-! ## Steps of a computation -/

theorem ok_bind {α β : Type} (a : α) (f : α → Except Stop β) : (Except.ok a >>= f) = f a := rfl

theorem bind_eq_ok {α β ε : Type} {x : Except ε α} {f : α → Except ε β} {b : β} :
    (x >>= f) = .ok b ↔ ∃ a, x = .ok a ∧ f a = .ok b := by
  cases x <;> simp [bind, Except.bind]

theorem mapError_eq_ok {α ε ε' : Type} {f : ε → ε'} {x : Except ε α} {a : α} :
    x.mapError f = .ok a ↔ x = .ok a := by
  cases x <;> simp [Except.mapError]

end Trtp.Cli
