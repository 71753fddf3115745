import Mathlib.Logic.Function.Basic
import Trtp.Cli.Text

/-!
# The streams of the configuration

`parse_streams_file` of `src/cli.c` and the fallback of `main`.  A line of `streams.cfg` lists
the receivers of a stream and, after a colon, its handlers.

The two loops over the numbers of a line differ only in the arrays they use, so they are one
definition with the kind of thread as a parameter.  The writes to the arrays are recorded:
C does not check their indices.
-/

namespace Trtp.Cli

inductive Role where
  | receiver
  | handler
  deriving DecidableEq, Repr

/-- The fields of `config_rcv_t` that `parse_streams_file` reads. -/
structure ConfigRcv where
  receiveNum : ℕ
  handleNum : ℕ

def ConfigRcv.num (config : ConfigRcv) : Role → ℕ
  | .receiver => config.receiveNum
  | .handler => config.handleNum

/-- A write to an element of an array: `associated_receivers` or `associated_handlers`, of
the line, and `receive_streams` or `handle_streams`.  Each array has as many elements as
there are threads of its kind. -/
inductive Write where
  | associated (role : Role) (index : ℕ)
  | streams (role : Role) (index : ℕ)
  deriving DecidableEq, Repr

def Write.InBounds (config : ConfigRcv) : Write → Prop
  | .associated role index => index < config.num role
  | .streams role index => index < config.num role

instance (config : ConfigRcv) : (w : Write) → Decidable (w.InBounds config)
  | .associated role index => inferInstanceAs (Decidable (index < config.num role))
  | .streams role index => inferInstanceAs (Decidable (index < config.num role))

/-- The fields of `config_rcv_t` that `parse_streams_file` sets: `stream .receiver` is
`receive_streams` and `stream .handler` is `handle_streams`, where `none` is the mark
`(size_t) -1`.  `writes` is not in the code. -/
structure Streams where
  stream : Role → ℕ → Option ℕ
  streamCount : ℕ
  writes : List Write

namespace Streams

def write (s : Streams) (w : Write) : Streams := { s with writes := s.writes ++ [w] }

/-- `streams[id].stream = value`. -/
def set (s : Streams) (role : Role) (id : ℕ) (value : Option ℕ) : Streams :=
  { s.write (.streams role id) with
    stream := Function.update s.stream role (Function.update (s.stream role) id value) }

end Streams

/-- Why `parse_streams_file` returns -1, one for each message. -/
inductive StreamsError where
  | cannotOpen
  | tooMany
  | number (chunk : CString)
  | unknown (role : Role) (id : ℕ)
  | usedTwice (role : Role) (id : ℕ)
  | noStream
  | notAll (role : Role) (id : ℕ)
  deriving DecidableEq, Repr

/-- The outcome of a part of the function: what it has set and why it has returned, if it
has. -/
structure Parsed where
  streams : Streams
  error : Option StreamsError

/-- The loop over the numbers of one kind.  `chunk` and `save` are the last result of
`strtok` and what it keeps, `r` is the number of numbers so far.  A round uses up a part of
the line, so 128 rounds are enough. -/
def associate (config : ConfigRcv) (role : Role) (idx : ℕ) :
    ℕ → Option CString → CString → ℕ → Streams → Parsed × CString
  | fuel + 1, some chunk, save, r, s =>
    match str2size chunk with
    | .error _ => (⟨s, some (.number chunk)⟩, save)
    | .ok id =>
      let s := s.write (.associated role r)
      if id ≥ config.num role then (⟨s, some (.unknown role id)⟩, save)
      else if s.stream role id ≠ none then (⟨s, some (.usedTwice role id)⟩, save)
      else
        let s := s.set role id (some idx)
        let (chunk, save) := strtok none ','.toUInt8 save
        associate config role idx fuel chunk save (r + 1) s
  | _, _, save, _, s => (⟨s, none⟩, save)

/-- `memset(associated, 0, num)`: the number is one of bytes, the elements have eight. -/
def memset (config : ConfigRcv) (role : Role) (s : Streams) : Streams :=
  (List.range (config.num role)).foldl (fun s i => s.write (.associated role (i / 8))) s

def maxLine : ℕ := 128

/-- The body of the loop over the lines. -/
def parseLine (config : ConfigRcv) (idx : ℕ) (str : CString) (s : Streams) : Parsed :=
  let (receivers, save) := strtok (some str) ':'.toUInt8 []
  let (handlers, save) := strtok none ':'.toUInt8 save
  let s := memset config .handler (memset config .receiver s)
  let (chunk, save) := strtok receivers ','.toUInt8 save
  let (p, save) := associate config .receiver idx maxLine chunk save 0 s
  if p.error.isSome then p
  else
    let (chunk, save) := strtok handlers ','.toUInt8 save
    (associate config .handler idx maxLine chunk save 0 p.streams).1

/-- The loop over the lines, where `i` of them have been read and `left` more may follow.
The second component is `i` at the end. -/
def parseLines (config : ConfigRcv) : ℕ → ℕ → List UInt8 → Streams → Parsed × ℕ
  | left, i, file, s =>
    match fgets maxLine file with
    | none => (⟨s, none⟩, i)
    | some (str, file) =>
      match left with
      | 0 => (⟨s, some .tooMany⟩, i)
      | left + 1 =>
        let p := parseLine config i (cString str) s
        if p.error.isSome then (p, i + 1)
        else parseLines config left (i + 1) file p.streams

/-- The allocation of `receive_streams` and `handle_streams`. -/
def calloc (s : Streams) : Streams := { s with stream := fun _ _ => some 0 }

def setAll (config : ConfigRcv) (role : Role) (value : Option ℕ) (s : Streams) : Streams :=
  (List.range (config.num role)).foldl (fun s id => s.set role id value) s

/-- The mark of every stream before the file is read. -/
def mark (config : ConfigRcv) (s : Streams) : Streams :=
  setAll config .handler none (setAll config .receiver none s)

def unassigned (config : ConfigRcv) (s : Streams) (role : Role) : Option ℕ :=
  (List.range (config.num role)).find? fun id => (s.stream role id).isNone

def checkAll (config : ConfigRcv) (s : Streams) : Parsed :=
  if s.streamCount = 0 then ⟨s, some .noStream⟩
  else
    match unassigned config s .handler with
    | some id => ⟨s, some (.notAll .handler id)⟩
    | none =>
      match unassigned config s .receiver with
      | some id => ⟨s, some (.notAll .receiver id)⟩
      | none => ⟨s, none⟩

/-- `parse_streams_file`, with the allocations succeeding.  `s` is the configuration before,
and `file` is `none` when `streams.cfg` cannot be opened. -/
def parseStreamsFile (config : ConfigRcv) (file : Option (List UInt8)) (s : Streams) : Parsed :=
  let s := mark config (calloc s)
  match file with
  | none => ⟨s, some .cannotOpen⟩
  | some file =>
    let (p, i) := parseLines config config.receiveNum 0 file s
    if p.error.isSome then p else checkAll config { p.streams with streamCount := i }

/-- The fallback of `main`: all threads share one stream. -/
def fallback (config : ConfigRcv) (s : Streams) : Streams :=
  setAll config .receiver (some 0) (setAll config .handler (some 0) { s with streamCount := 1 })

/-- The streams that `main` goes on with.  In `sequential` mode the file is not read. -/
def mainStreams (config : ConfigRcv) (sequential : Bool) (file : Option (List UInt8))
    (s : Streams) : Streams :=
  if sequential then fallback config s
  else
    let p := parseStreamsFile config file s
    if p.error.isSome then fallback config p.streams else p.streams

end Trtp.Cli
