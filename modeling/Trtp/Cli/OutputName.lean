import Trtp.Cli.Argument

/-!
# Output file names

`initialize_client` of `src/client.c` makes the name of a client's output file with
`sprintf(name, format, id)` in a buffer of 256 bytes, and does not look at what `sprintf`
returns.

The number can be read back from what `sprintf` makes of the directive (`readNumber_convert`),
so two clients share a file only when `sprintf` fails in front of the directive, for a field
width that is no `int`.  How long a name gets is up to the format: an accepted format can ask
for more than the buffer holds.
-/

namespace Trtp.Cli

def nameSize : ℕ := 256

/-- The name that `initialize_client` opens.  `%d` takes the bits of `id` for an `int`. -/
def fileName (format : CString) (id : UInt32) : Option CString :=
  (sprintf format id.toBitVec.toInt).map Printed.str

theorem fileName_text (d : Directive) (id : UInt32) :
    fileName d.text id = some
      (if intMax < d.width then d.before
        else d.before ++ (d.convert id.toBitVec.toInt ++ d.after)) := by
  rw [fileName, sprintf, directive?_text, Option.map_some, Option.map_some]
  split_ifs <;> rfl

theorem directive_unique {d d' : Directive} (h : d.text = d'.text) : d = d' := by
  have hread := directive?_text d
  rw [h, directive?_text] at hread
  exact (Option.some.inj hread).symm

/-- A format that is stored is read by `sprintf` as one directive. -/
theorem readFormat_directive {o : CString} {f : FormatFields} (h : readFormat o = .ok f) :
    ∃ d : Directive, f.format = d.text := by
  obtain ⟨before, hbefore, digits, hdigits, after, hafter, htext⟩ := (readFormat_ok h).1
  exact ⟨{ before := before, digits := digits, after := after
           before_plain := fun c hc => ne_percent_of_mem_nameChars (hbefore c hc)
           digits_isdigit := fun c hc => isdigit_of_mem_charRange (hdigits c hc)
           after_plain := fun c hc => ne_percent_of_mem_nameChars (hafter c hc) }, htext⟩

/-! ## Digits -/

theorem toNat_toUInt8_of_isDigit {c : Char} (hc : c.isDigit) : c.toUInt8.toNat = c.toNat := by
  have hle : c.toNat ≤ 57 := by
    simp only [Char.isDigit, Bool.and_eq_true, decide_eq_true_eq] at hc
    exact UInt32.le_iff_toNat_le.mp hc.2
  rw [Char.toUInt8, UInt32.toNat_toUInt8]
  exact Nat.mod_eq_of_lt (by have : c.val.toNat ≤ 57 := hle; omega)

theorem isdigit_of_mem_decimalDigits {n : ℕ} {c : UInt8} (hc : c ∈ decimalDigits n) :
    isdigit c = true := by
  obtain ⟨c, hmem, rfl⟩ := List.mem_map.mp hc
  have hdigit : c.isDigit := Nat.isDigit_of_mem_toDigits (by decide) (by decide) hmem
  have htoNat := toNat_toUInt8_of_isDigit hdigit
  simp only [Char.isDigit, Bool.and_eq_true, decide_eq_true_eq] at hdigit
  simp only [isdigit, Bool.and_eq_true, decide_eq_true_eq, UInt8.le_iff_toNat_le, htoNat]
  exact ⟨UInt32.le_iff_toNat_le.mp hdigit.1, UInt32.le_iff_toNat_le.mp hdigit.2⟩

theorem decimalDigits_ne_nil (n : ℕ) : decimalDigits n ≠ [] := by
  simp [decimalDigits]

theorem decimalDigits_length_le_iff {n k : ℕ} (hk : 0 < k) :
    (decimalDigits n).length ≤ k ↔ n < 10 ^ k := by
  rw [decimalDigits, List.length_map]
  exact Nat.length_toDigits_le_iff (by decide) hk

theorem decimal_decimalDigits (n : ℕ) : decimal (decimalDigits n) = n := by
  calc decimal (decimalDigits n)
      = Nat.ofDigitChars 10 (Nat.toDigits 10 n) 0 := by
        rw [decimal, decimalDigits, List.foldl_map, Nat.ofDigitChars_eq_foldl]
        refine List.foldl_ext _ _ _ fun m c hc => ?_
        have hdigit : c.isDigit := Nat.isDigit_of_mem_toDigits (by decide) (by decide) hc
        rw [toNat_toUInt8_of_isDigit hdigit]
        rfl
    _ = n := Nat.ofDigitChars_ten_toDigits

theorem decimal_replicate_zero_append (k : ℕ) (s : CString) :
    decimal (List.replicate k '0'.toUInt8 ++ s) = decimal s := by
  induction k with
  | zero => rfl
  | succ k ih =>
    rw [← ih]
    rfl

/-! ## Reading back -/

/-- The number in a field that is filled with blanks or zeros. -/
def readNumber (s : CString) : ℤ :=
  let t := s.dropWhile (· == ' '.toUInt8)
  if t.head? = some '-'.toUInt8 then -(decimal t.tail : ℤ) else decimal t

theorem readNumber_sign {v : ℤ} {u : CString} (hne : u ≠ []) (hu : ∀ c ∈ u, isdigit c = true)
    (hv : decimal u = v.natAbs) (k : ℕ) :
    readNumber (List.replicate k ' '.toUInt8 ++ (sign v ++ u)) = v := by
  obtain ⟨c, u, rfl⟩ := List.exists_cons_of_ne_nil hne
  have hc : isdigit c = true := hu c List.mem_cons_self
  have hblank : (c == ' '.toUInt8) = false := by
    by_contra h
    rw [Bool.not_eq_false, beq_iff_eq] at h
    rw [h] at hc
    exact absurd hc (by decide)
  have hminus : c ≠ '-'.toUInt8 := by
    rintro rfl
    exact absurd hc (by decide)
  have hdrop : (List.replicate k ' '.toUInt8 ++ (sign v ++ c :: u)).dropWhile
      (· == ' '.toUInt8) = sign v ++ c :: u := by
    rw [List.dropWhile_append_of_pos (by simp)]
    unfold sign
    split
    · exact List.dropWhile_cons_of_neg (by decide)
    · exact List.dropWhile_cons_of_neg (by simp [hblank])
  rw [readNumber, hdrop]
  unfold sign
  split
  · simp only [List.cons_append, List.nil_append, List.head?_cons, List.tail_cons, if_true, hv]
    omega
  · simp only [List.nil_append, List.head?_cons, Option.some.injEq, hminus, if_false, hv]
    omega

theorem readNumber_convert (d : Directive) (v : ℤ) : readNumber (d.convert v) = v := by
  set number := decimalDigits v.natAbs with hnumber
  set fill := d.width - ((sign v).length + number.length) with hfill
  have hne : number ≠ [] := decimalDigits_ne_nil _
  have hdigits : ∀ c ∈ number, isdigit c = true := fun _ => isdigit_of_mem_decimalDigits
  have hdecimal : decimal number = v.natAbs := decimal_decimalDigits _
  unfold Directive.convert
  split
  · refine readNumber_sign (u := List.replicate fill '0'.toUInt8 ++ number) ?_ ?_ ?_ 0
    · simp [hne]
    · intro c hc
      rcases List.mem_append.mp hc with hc | hc
      · rw [List.eq_of_mem_replicate hc]
        decide
      · exact hdigits c hc
    · rw [decimal_replicate_zero_append, hdecimal]
  · exact readNumber_sign hne hdigits hdecimal fill

/-! ## Length -/

theorem Directive.convert_length (d : Directive) (v : ℤ) :
    (d.convert v).length = max d.width ((sign v).length + (decimalDigits v.natAbs).length) := by
  unfold Directive.convert
  split
  · simp only [List.length_append, List.length_replicate]
    omega
  · simp only [List.length_append, List.length_replicate]
    omega

/-- The longest `int` is -2147483648. -/
theorem length_sign_decimalDigits_le (id : UInt32) :
    (sign id.toBitVec.toInt).length + (decimalDigits id.toBitVec.toInt.natAbs).length ≤ 11 := by
  have hlow := BitVec.le_toInt id.toBitVec
  have hhigh := BitVec.toInt_lt (x := id.toBitVec)
  have hdigits : (decimalDigits id.toBitVec.toInt.natAbs).length ≤ 10 := by
    rw [decimalDigits_length_le_iff (by decide)]
    omega
  have hsign : (sign id.toBitVec.toInt).length ≤ 1 := by
    unfold sign
    split <;> simp
  omega

/-- The name and its terminating zero fit in `name`. -/
def NameFits (format : CString) (id : UInt32) : Prop :=
  ∃ name, fileName format id = some name ∧ name.length + 1 ≤ nameSize

theorem nameFits_text (d : Directive) (id : UInt32) :
    NameFits d.text id ↔
      if intMax < d.width then d.before.length < nameSize
      else d.before.length + max d.width ((sign id.toBitVec.toInt).length +
        (decimalDigits id.toBitVec.toInt.natAbs).length) + d.after.length < nameSize := by
  have hname : NameFits d.text id ↔
      (if intMax < d.width then d.before
        else d.before ++ (d.convert id.toBitVec.toInt ++ d.after)).length < nameSize := by
    unfold NameFits
    rw [fileName_text]
    constructor
    · rintro ⟨name, hname, hfits⟩
      rw [Option.some.inj hname]
      exact hfits
    · intro hfits
      exact ⟨_, rfl, hfits⟩
  rw [hname]
  split_ifs with hwidth
  · exact Iff.rfl
  · rw [List.length_append, List.length_append, d.convert_length, Nat.add_assoc]

theorem nameFits_lt {d : Directive} {id : UInt32} (h : NameFits d.text id) :
    d.before.length < nameSize := by
  rw [nameFits_text] at h
  split_ifs at h
  · exact h
  · omega

/-- The names of all clients fit exactly when the text around the directive and the field
leave room for the zero, the field having 11 characters or the width that is asked for, or
when `sprintf` fails on the width and the text in front of the directive leaves room. -/
theorem nameFits_iff {o : CString} {f : FormatFields} (h : readFormat o = .ok f) :
    (∀ id, NameFits f.format id) ↔
      ∃ d : Directive, f.format = d.text ∧
        if intMax < d.width then d.before.length < nameSize
        else d.before.length + max d.width 11 + d.after.length < nameSize := by
  obtain ⟨d, hd⟩ := readFormat_directive h
  rw [hd]
  constructor
  · intro hfits
    refine ⟨d, rfl, ?_⟩
    have hmin := (nameFits_text d 2147483648).mp (hfits 2147483648)
    have heleven : (sign (2147483648 : UInt32).toBitVec.toInt).length +
        (decimalDigits (2147483648 : UInt32).toBitVec.toInt.natAbs).length = 11 := by
      decide +kernel
    rwa [heleven] at hmin
  · rintro ⟨d', htext, hroom⟩ id
    obtain rfl := directive_unique htext
    rw [nameFits_text]
    have hle := length_sign_decimalDigits_le id
    split_ifs at hroom ⊢
    · exact hroom
    · omega

def defaultDirective : Directive where
  before := []
  digits := []
  after := []
  before_plain := by simp
  digits_isdigit := by simp
  after_plain := by simp

theorem nameFits_defaultOutFormat :
    readFormat defaultOutFormat = .ok ⟨defaultOutFormat, 2, false⟩ ∧
      ∀ id, NameFits defaultOutFormat id := by
  have hread : readFormat defaultOutFormat = .ok ⟨defaultOutFormat, 2, false⟩ := by
    decide +kernel
  have hroom : if intMax < defaultDirective.width then defaultDirective.before.length < nameSize
      else defaultDirective.before.length + max defaultDirective.width 11 +
        defaultDirective.after.length < nameSize := by decide
  exact ⟨hread, (nameFits_iff hread).mpr ⟨defaultDirective, rfl, hroom⟩⟩

/-- `%300d` -/
def wideFormat : CString := ['%', '3', '0', '0', 'd'].map Char.toUInt8

/-- The format is accepted, and the names that it makes have 300 characters. -/
theorem not_nameFits_width :
    readFormat wideFormat = .ok ⟨wideFormat, 5, false⟩ ∧ ¬ NameFits wideFormat 0 := by
  constructor
  · decide +kernel
  · rintro ⟨name, hname, hfits⟩
    have hlength : (fileName wideFormat 0).all (fun name => name.length = 300) = true := by
      decide +kernel
    rw [hname, Option.all_some, decide_eq_true_eq] at hlength
    rw [nameSize] at hfits
    omega

/-! ## Different clients -/

/-- Clients with different numbers write to different files. -/
def NamesDiffer (format : CString) : Prop :=
  ∀ id id', id ≠ id' → NameFits format id → NameFits format id' →
    fileName format id ≠ fileName format id'

theorem fileName_text_inj {d : Directive} (hwidth : d.width ≤ intMax) {id id' : UInt32}
    (h : fileName d.text id = fileName d.text id') : id = id' := by
  rw [fileName_text, fileName_text, if_neg (not_lt.mpr hwidth), if_neg (not_lt.mpr hwidth),
    Option.some.injEq] at h
  have hconvert : d.convert id.toBitVec.toInt = d.convert id'.toBitVec.toInt :=
    List.append_cancel_right (List.append_cancel_left h)
  have hint : id.toBitVec.toInt = id'.toBitVec.toInt := by
    rw [← readNumber_convert d id.toBitVec.toInt, hconvert, readNumber_convert]
  exact UInt32.toBitVec_inj.mp (BitVec.toInt_inj.mp hint)

/-- When `sprintf` fails on the width, all clients are given the text in front of the
directive. -/
theorem fileName_of_width {d : Directive} (hwidth : intMax < d.width) (id : UInt32) :
    fileName d.text id = some d.before := by
  rw [fileName_text, if_pos hwidth]

/-- The names of different clients differ, as far as they fit, exactly when an `int` holds the
field width or no name fits because of the text in front of the directive. -/
theorem fileName_ne_iff {o : CString} {f : FormatFields} (h : readFormat o = .ok f) :
    NamesDiffer f.format ↔
      ∃ d : Directive, f.format = d.text ∧ (d.width ≤ intMax ∨ nameSize ≤ d.before.length) := by
  obtain ⟨d, hd⟩ := readFormat_directive h
  rw [hd]
  constructor
  · intro hdiffer
    refine ⟨d, rfl, ?_⟩
    by_contra hnot
    rw [not_or, not_le, not_le] at hnot
    have hfits : ∀ id, NameFits d.text id := fun id => by
      rw [nameFits_text, if_pos hnot.1]
      exact hnot.2
    refine hdiffer 0 1 (by decide) (hfits 0) (hfits 1) ?_
    rw [fileName_of_width hnot.1, fileName_of_width hnot.1]
  · rintro ⟨d', htext, hcond⟩ id id' hne hfits _ hname
    obtain rfl := directive_unique htext
    rcases hcond with hwidth | hlong
    · exact hne (fileName_text_inj hwidth hname)
    · exact absurd (nameFits_lt hfits) (not_lt.mpr hlong)

/-- `a%03d` -/
def paddedFormat : CString := ['a', '%', '0', '3', 'd'].map Char.toUInt8

/-- The format comes in quotation marks.  Clients 1 and 2^32 - 1 get the files `a001` and
`a-01`. -/
theorem fileName_ne_iff_quoted :
    readFormat (quotationMark :: (paddedFormat ++ [quotationMark])) =
        .ok ⟨paddedFormat, 5, true⟩ ∧ NamesDiffer paddedFormat := by
  have hread : readFormat (quotationMark :: (paddedFormat ++ [quotationMark])) =
      .ok ⟨paddedFormat, 5, true⟩ := by
    decide +kernel
  let d : Directive := ⟨['a'.toUInt8], ['0', '3'].map Char.toUInt8, [],
    List.forall_mem_singleton.mpr (by decide), List.all_eq_true.mp rfl,
    fun _ h => absurd h List.not_mem_nil⟩
  exact ⟨hread, (fileName_ne_iff hread).mpr ⟨d, rfl, .inl (by decide)⟩⟩

/-- `a%99999999999d` -/
def overflowFormat : CString := "a%99999999999d".toList.map Char.toUInt8

/-- The format is accepted, and clients 0 and 1 are both given the file `a`. -/
theorem not_namesDiffer_overflow :
    readFormat overflowFormat = .ok ⟨overflowFormat, 14, false⟩ ∧
      fileName overflowFormat 0 = some ['a'.toUInt8] ∧
      fileName overflowFormat 1 = some ['a'.toUInt8] ∧ ¬ NamesDiffer overflowFormat := by
  have hread : readFormat overflowFormat = .ok ⟨overflowFormat, 14, false⟩ := by
    decide +kernel
  have hzero : fileName overflowFormat 0 = some ['a'.toUInt8] := by decide +kernel
  have hone : fileName overflowFormat 1 = some ['a'.toUInt8] := by decide +kernel
  refine ⟨hread, hzero, hone, fun hdiffer => ?_⟩
  exact hdiffer 0 1 (by decide) ⟨_, hzero, by decide⟩ ⟨_, hone, by decide⟩ (hzero.trans hone.symm)

end Trtp.Cli
