import Trtp.Cli.Text
import Trtp.Lib.Classes

/-!
# Output formats

The `-o` argument is a format for the names of the output files.  `parse_receiver` of
`src/cli.c` takes the quotation marks off it and stores it when it matches `REGEX_FORMAT`,
and `sprintf` writes the number of a client in the place of its only directive.
-/

namespace Trtp.Cli

open Lib RegularExpression

def percent : UInt8 := '%'.toUInt8

def quotationMark : UInt8 := 34

def backslash : UInt8 := 92

/-! ## Validation -/

def charRange (lo hi : Char) : List UInt8 :=
  (List.range' lo.toNat (hi.toNat + 1 - lo.toNat)).map UInt8.ofNat

/-- The bracket expression of `REGEX_FORMAT` for the text around the directive.  A backslash
stands for itself between brackets. -/
def nameChars : List UInt8 :=
  charRange 'a' 'z' ++ charRange 'A' 'Z' ++ charRange '0' '9' ++
    ['.'.toUInt8, '_'.toUInt8, backslash, '/'.toUInt8, '-'.toUInt8]

/-- `REGEX_FORMAT`, a basic regular expression anchored at both ends. -/
def regexFormat : RegularExpression UInt8 :=
  (bracket nameChars).star * (char percent * ((bracket (charRange '0' '9')).star *
    (char 'd'.toUInt8 * (bracket nameChars).star)))

/-! ## Directives -/

/-- A format with one directive `%[0-9]*d` and no other percent sign. -/
@[ext]
structure Directive where
  before : CString
  digits : CString
  after : CString
  before_plain : ∀ c ∈ before, c ≠ percent
  digits_isdigit : ∀ c ∈ digits, isdigit c = true
  after_plain : ∀ c ∈ after, c ≠ percent

namespace Directive

def text (d : Directive) : CString :=
  d.before ++ percent :: (d.digits ++ 'd'.toUInt8 :: d.after)

/-- The zeros in front are flags, however many there are. -/
def zeroFlag (d : Directive) : Bool := d.digits.head? == some '0'.toUInt8

/-- The digits from the first other than zero on are the field width. -/
def width (d : Directive) : ℕ := decimal (d.digits.dropWhile (· == '0'.toUInt8))

end Directive

/-- How `sprintf` reads a format.  Formats with other directives have no result here. -/
def directive? (format : CString) : Option Directive :=
  match format.dropWhile (· != percent) with
  | [] => none
  | _ :: rest =>
    match rest.dropWhile isdigit with
    | [] => none
    | c :: after =>
      if h : c = 'd'.toUInt8 ∧ after.all (· != percent) = true then
        some
          { before := format.takeWhile (· != percent)
            digits := rest.takeWhile isdigit
            after := after
            before_plain := fun _ hc => by simpa using List.mem_takeWhile_imp hc
            digits_isdigit := fun _ hc => List.mem_takeWhile_imp hc
            after_plain := by simpa using h.2 }
      else none

theorem directive?_text (d : Directive) : directive? d.text = some d := by
  have hbefore : ∀ c ∈ d.before, (c != percent) = true := fun c hc => by
    simpa using d.before_plain c hc
  have hd : isdigit 'd'.toUInt8 = false := by decide
  have hdrop : d.text.dropWhile (· != percent) =
      percent :: (d.digits ++ 'd'.toUInt8 :: d.after) := by
    rw [Directive.text, List.dropWhile_append_of_pos hbefore]
    exact List.dropWhile_cons_of_neg (by simp)
  have htake : d.text.takeWhile (· != percent) = d.before := by
    rw [Directive.text, List.takeWhile_append_of_pos hbefore,
      List.takeWhile_cons_of_neg (by simp), List.append_nil]
  have hdigits : (d.digits ++ 'd'.toUInt8 :: d.after).takeWhile isdigit = d.digits := by
    rw [List.takeWhile_append_of_pos d.digits_isdigit,
      List.takeWhile_cons_of_neg (by simp [hd]), List.append_nil]
  have hafter : (d.digits ++ 'd'.toUInt8 :: d.after).dropWhile isdigit =
      'd'.toUInt8 :: d.after := by
    rw [List.dropWhile_append_of_pos d.digits_isdigit]
    exact List.dropWhile_cons_of_neg (by simp [hd])
  unfold directive?
  simp only [hdrop, hafter, htake, hdigits]
  rw [dif_pos ⟨trivial, by simpa using d.after_plain⟩]

/-- What `regexec` lets through. -/
theorem rmatch_regexFormat {format : CString} :
    regexFormat.rmatch format = true ↔
      ∃ before, (∀ c ∈ before, c ∈ nameChars) ∧
      ∃ digits, (∀ c ∈ digits, c ∈ charRange '0' '9') ∧
      ∃ after, (∀ c ∈ after, c ∈ nameChars) ∧
        format = before ++ percent :: (digits ++ 'd'.toUInt8 :: after) := by
  rw [rmatch_iff_matches', regexFormat, mem_star_bracket_mul]
  simp only [mem_char_mul, mem_star_bracket_mul, mem_star_bracket]
  constructor
  · rintro ⟨before, hbefore, _, ⟨_, ⟨digits, hdigits, _, ⟨after, hafter, rfl⟩, rfl⟩, rfl⟩, rfl⟩
    exact ⟨before, hbefore, digits, hdigits, after, hafter, rfl⟩
  · rintro ⟨before, hbefore, digits, hdigits, after, hafter, rfl⟩
    exact ⟨before, hbefore, _, ⟨_, ⟨digits, hdigits, _, ⟨after, hafter, rfl⟩, rfl⟩, rfl⟩, rfl⟩

theorem ne_percent_of_mem_nameChars {c : UInt8} (hc : c ∈ nameChars) : c ≠ percent := by
  rintro rfl
  exact absurd hc (by decide)

theorem isdigit_of_mem_charRange {c : UInt8} (hc : c ∈ charRange '0' '9') : isdigit c = true := by
  obtain ⟨n, hn, rfl⟩ := List.mem_map.mp hc
  rw [List.mem_range'_1] at hn
  have hlow : 48 ≤ n := hn.1
  have hhigh : n < 58 := hn.2
  have htoNat : (UInt8.ofNat n).toNat = n := UInt8.toNat_ofNat_of_lt' (by omega : n < 256)
  simp only [isdigit, Bool.and_eq_true, decide_eq_true_eq, UInt8.le_iff_toNat_le, htoNat]
  exact ⟨hlow, Nat.le_of_lt_succ hhigh⟩

/-! ## Conversion -/

def decimalDigits (n : ℕ) : CString := (Nat.toDigits 10 n).map Char.toUInt8

def sign (v : ℤ) : CString := if v < 0 then ['-'.toUInt8] else []

/-- What the directive is replaced by for the argument `v`.  Zeros are filled in behind the
sign and blanks in front of it. -/
def Directive.convert (d : Directive) (v : ℤ) : CString :=
  let number := decimalDigits v.natAbs
  let fill := d.width - ((sign v).length + number.length)
  if d.zeroFlag then sign v ++ (List.replicate fill '0'.toUInt8 ++ number)
  else List.replicate fill ' '.toUInt8 ++ (sign v ++ number)

structure Printed where
  ret : ℤ
  str : CString
  deriving DecidableEq

/-- `sprintf(str, format, v)`.  A field width that no `int` holds makes the call fail with
`EOVERFLOW` when it comes to the directive, with only the text in front of it written.  A
string longer than `INT_MAX` is an overflow as well, found behind its end. -/
def sprintf (format : CString) (v : ℤ) : Option Printed :=
  (directive? format).map fun d =>
    if intMax < d.width then { ret := -1, str := d.before }
    else
      let str := d.before ++ (d.convert v ++ d.after)
      { ret := if intMax < str.length then -1 else str.length, str := str }

end Trtp.Cli
