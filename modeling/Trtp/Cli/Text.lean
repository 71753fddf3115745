import Mathlib.Algebra.Group.Int.Defs
import Trtp.Lib.Tokens

/-!
# C strings

The functions of the C library that `src/cli.c` reads `streams.cfg` with, and `str2size`
of the same file.  A C string is the list of its bytes, without the terminating zero.
-/

namespace Trtp.Cli

open Lib

abbrev CString : Type := List UInt8

def cString (buffer : List UInt8) : CString := buffer.takeWhile (· != 0)

/-! ## Files -/

def fgetsFrom : ℕ → List UInt8 → List UInt8 × List UInt8
  | 0, file => ([], file)
  | _ + 1, [] => ([], [])
  | room + 1, c :: file =>
    if c = '\n'.toUInt8 then ([c], file)
    else
      let (line, rest) := fgetsFrom room file
      (c :: line, rest)

/-- `fgets(str, size, file)`: the bytes stored in `str` and what is left of the file.  There
is no result at the end of the file. -/
def fgets (size : ℕ) (file : List UInt8) : Option (List UInt8 × List UInt8) :=
  if file.isEmpty then none else some (fgetsFrom (size - 1) file)

theorem fgetsFrom_length (room : ℕ) (file : List UInt8) :
    (fgetsFrom room file).1.length ≤ room ∧
      (fgetsFrom room file).2.length ≤ file.length - min room 1 := by
  induction file generalizing room with
  | nil => cases room <;> simp [fgetsFrom]
  | cons c file ih =>
    cases room with
    | zero => simp [fgetsFrom]
    | succ room =>
      rw [fgetsFrom]
      split
      · simp
      · have := ih room
        simp only [List.length_cons]
        omega

theorem fgets_length {size : ℕ} {file line rest : List UInt8} (hsize : 1 < size)
    (h : fgets size file = some (line, rest)) :
    line.length < size ∧ rest.length < file.length := by
  unfold fgets at h
  split at h
  · cases h
  · rename_i hne
    have hpos : 0 < file.length := List.length_pos_iff.mpr (by simpa using hne)
    have hlengths := fgetsFrom_length (size - 1) file
    rw [Option.some.injEq] at h
    rw [h] at hlengths
    obtain ⟨hline, hrest⟩ := hlengths
    dsimp only at hline hrest
    omega

/-! ## Tokens -/

/-- `strtok(s, delim)` for a delimiter of one character, where `none` is `NULL`.  `save` is
what the pointer kept between the calls points to. -/
def strtok (s : Option CString) (delim : UInt8) (save : CString) : Option CString × CString :=
  match nextToken (· == delim) (s.getD save) with
  | none => (none, [])
  | some (token, rest) => (some token, rest)

theorem strtok_none {s : Option CString} {delim : UInt8} {save : CString}
    (h : tokens (· == delim) (s.getD save) = []) : strtok s delim save = (none, []) := by
  unfold strtok
  split
  · rfl
  · rename_i hnext
    rw [tokens_eq_cons hnext] at h
    cases h

theorem strtok_some {s : Option CString} {delim : UInt8} {save token : CString}
    {rest : List CString} (h : tokens (· == delim) (s.getD save) = token :: rest) :
    ∃ save', strtok s delim save = (some token, save') ∧ tokens (· == delim) save' = rest := by
  unfold strtok
  split
  · rename_i hnext
    rw [tokens_eq_nil hnext] at h
    cases h
  · rename_i hnext
    rw [tokens_eq_cons hnext, List.cons.injEq] at h
    exact ⟨_, by rw [h.1], h.2⟩

/-! ## Numbers -/

/-- `isspace` in the C locale. -/
def isspace (c : UInt8) : Bool := c == ' '.toUInt8 || ('\t'.toUInt8 ≤ c && c ≤ '\r'.toUInt8)

def isdigit (c : UInt8) : Bool := '0'.toUInt8 ≤ c && c ≤ '9'.toUInt8

def decimal (digits : CString) : ℕ :=
  digits.foldl (fun n c => 10 * n + (c.toNat - '0'.toUInt8.toNat)) 0

def longMax : ℤ := 2 ^ 63 - 1

def longMin : ℤ := -2 ^ 63

def intMax : ℤ := 2 ^ 31 - 1

/-- What `strtol` returns: the value, whether `errno` is `ERANGE`, and what `end` points to. -/
structure Strtol where
  value : ℤ
  erange : Bool
  endPtr : CString

/-- `strtol(s, &end, 10)`. -/
def strtol (s : CString) : Strtol :=
  let t := s.dropWhile isspace
  let negative := t.head? == some '-'.toUInt8
  let t := if negative || t.head? == some '+'.toUInt8 then t.tail else t
  let digits := t.takeWhile isdigit
  let rest := t.dropWhile isdigit
  let value : ℤ := if negative then -(decimal digits : ℤ) else decimal digits
  if digits.isEmpty then { value := 0, erange := false, endPtr := s }
  else if value > longMax then { value := longMax, erange := true, endPtr := rest }
  else if value < longMin then { value := longMin, erange := true, endPtr := rest }
  else { value := value, erange := false, endPtr := rest }

/-- The values of `errno` that `str2size` sets. -/
inductive Str2Int where
  | inconvertible
  | overflow
  | underflow
  | notEnd
  deriving DecidableEq, Repr

/-- `str2size(&out, s, 10)`.  The value is stored in `out` when the function returns 0 and
`out` is left alone otherwise. -/
def str2size (s : CString) : Except Str2Int ℕ :=
  if s.head?.all isspace then .error .inconvertible
  else
    let l := strtol s
    if l.value > intMax || (l.erange && l.value == longMax) then .error .overflow
    else if l.value < 0 || (l.erange && l.value == longMin) then .error .underflow
    else if l.endPtr.head?.any (· != '\n'.toUInt8) then .error .notEnd
    else .ok l.value.toNat

end Trtp.Cli
