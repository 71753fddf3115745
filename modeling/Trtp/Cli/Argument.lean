import Trtp.Cli.Receiver

/-!
# The quotation marks of the format

`parse_receiver` looks for the last character of the format at `strlen(o) - 1`.  When nothing
is left behind the first quotation mark this is in front of the string, and when there was
nothing else it finds the first quotation mark again and copies `len - 1` bytes with `len`
zero.

The length is kept in an `int`.  A string of 2^31 bytes or more has a length that has wrapped:
it is negative, or so small that the quotation mark is looked for in the middle of the string.

Otherwise the format is stored without its quotation marks when it has the right form
(`formatRight_iff`).
-/

namespace Trtp.Cli

/-! ## What is asked for -/

/-- The string without a leading quotation mark. -/
def behindQuote (s : CString) : CString :=
  if s.head? = some quotationMark then s.tail else s

/-- The string without a leading and without a trailing quotation mark. -/
def unquoted (s : CString) : CString :=
  let t := behindQuote s
  if t.getLast? = some quotationMark then t.dropLast else t

/-- The form of a format: one `%`, digits and a `d` with characters for file names around
them. -/
def NameFormat (format : CString) : Prop :=
  ∃ before, (∀ c ∈ before, c ∈ nameChars) ∧
  ∃ digits, (∀ c ∈ digits, c ∈ charRange '0' '9') ∧
  ∃ after, (∀ c ∈ after, c ∈ nameChars) ∧
    format = before ++ percent :: (digits ++ 'd'.toUInt8 :: after)

/-- What is promised of the argument `s`: the function stays in its objects, fails with one
error only, and stores the argument without its quotation marks exactly when this has the
form of a format. -/
structure FormatRight (s : CString) : Prop where
  inside : ∀ a, readFormat s ≠ .error (.outside a)
  error : ∀ e, readFormat s = .error (.error e) → e = .formatValidationFailed
  stored : ∀ f, readFormat s = .ok f → f.format = unquoted s ∧ f.formatLen = (unquoted s).length
  accepts : (∃ f, readFormat s = .ok f) ↔ NameFormat (unquoted s)

/-! ## Validation -/

theorem rmatch_iff_nameFormat {format : CString} :
    regexFormat.rmatch format = true ↔ NameFormat format := rmatch_regexFormat

theorem NameFormat.quotationMark_notMem {format : CString} (h : NameFormat format) :
    quotationMark ∉ format := by
  obtain ⟨before, hbefore, digits, hdigits, after, hafter, rfl⟩ := h
  have hname : quotationMark ∉ nameChars := by decide
  have hdigit : quotationMark ∉ charRange '0' '9' := by decide
  have hpercent : quotationMark ≠ percent := by decide
  have hd : quotationMark ≠ 'd'.toUInt8 := by decide
  simp only [List.mem_append, List.mem_cons, not_or]
  exact ⟨fun h => hname (hbefore _ h), hpercent, fun h => hdigit (hdigits _ h), hd,
    fun h => hname (hafter _ h)⟩

theorem formatRight_of_ok {s u : CString} {b : Bool} (h : readFormat s = .ok ⟨u, u.length, b⟩) :
    FormatRight s ↔ u = unquoted s ∧ NameFormat (unquoted s) := by
  constructor
  · intro hright
    exact ⟨(hright.stored _ h).1, hright.accepts.mp ⟨_, h⟩⟩
  · rintro ⟨heq, hname⟩
    refine ⟨fun a ha => ?_, fun e he => ?_, fun f hf => ?_, ⟨fun _ => hname, fun _ => ⟨_, h⟩⟩⟩
    · rw [h] at ha
      cases ha
    · rw [h] at he
      cases he
    · rw [h] at hf
      cases hf
      exact ⟨heq, congrArg List.length heq⟩

theorem formatRight_of_error {s : CString}
    (h : readFormat s = .error (.error .formatValidationFailed)) :
    FormatRight s ↔ ¬ NameFormat (unquoted s) := by
  have hnot : ∀ f, readFormat s ≠ .ok f := by
    intro f hf
    rw [h] at hf
    cases hf
  constructor
  · intro hright hname
    obtain ⟨f, hf⟩ := hright.accepts.mpr hname
    exact hnot f hf
  · intro hname
    refine ⟨fun a ha => ?_, fun e he => ?_, fun f hf => absurd hf (hnot f), ⟨?_, ?_⟩⟩
    · rw [h] at ha
      cases ha
    · rw [h] at he
      cases he
      rfl
    · rintro ⟨f, hf⟩
      exact absurd hf (hnot f)
    · intro hright
      exact absurd hright hname

theorem formatRight_of_validate {s u : CString} {b : Bool} (h : readFormat s = validate u b) :
    FormatRight s ↔
      (NameFormat u → u = unquoted s) ∧ (NameFormat u ↔ NameFormat (unquoted s)) := by
  by_cases hu : NameFormat u
  · have hok : readFormat s = .ok ⟨u, u.length, b⟩ := by
      rw [h, validate, if_pos (rmatch_iff_nameFormat.mpr hu)]
    rw [formatRight_of_ok hok]
    simp only [hu, true_implies, true_iff]
  · have herror : readFormat s = .error (.error .formatValidationFailed) := by
      rw [h, validate, if_neg (mt rmatch_iff_nameFormat.mp hu)]
    rw [formatRight_of_error herror]
    simp only [hu, false_implies, false_iff, true_and]

/-! ## Accesses -/

section Accesses

variable {s : CString}

/-- The offset of what `o` points to. -/
def quoteSize (s : CString) : ℕ := if s.head? = some quotationMark then 1 else 0

theorem drop_quoteSize (s : CString) : s.drop (quoteSize s) = behindQuote s := by
  unfold quoteSize behindQuote
  split
  · exact List.drop_one
  · rfl

theorem length_behindQuote (s : CString) : quoteSize s + (behindQuote s).length = s.length := by
  have hle : quoteSize s ≤ s.length := by
    unfold quoteSize
    split
    · rename_i h
      cases s with
      | nil => cases h
      | cons c s => exact Nat.succ_le_succ (Nat.zero_le _)
    · exact Nat.zero_le _
  rw [← drop_quoteSize, List.length_drop]
  omega

theorem drop_append_zero (s : CString) : (s ++ [0]).drop (quoteSize s) = behindQuote s ++ [0] := by
  have hle : quoteSize s ≤ s.length := by
    have := length_behindQuote s
    omega
  rw [List.drop_append_of_le_length hle, drop_quoteSize]

theorem load_eq {start : ℤ} {count : ℕ} (hlow : 0 ≤ start) (hhigh : start + count ≤ s.length + 1) :
    load s start count = .ok (((s ++ [0]).drop start.toNat).take count) :=
  if_pos ⟨hlow, by push_cast; exact hhigh⟩

theorem load_outside {start : ℤ} {count : ℕ} (h : start < 0) :
    load s start count = .error (.outside ⟨.argument, start, count⟩) := by
  have hnot : ¬ Access.Inside ⟨.argument, start, count⟩ (s.length + 1) :=
    fun hinside => not_le.mpr h hinside.1
  unfold load
  exact if_neg hnot

theorem store_eq {size : ℕ} {start : ℤ} {count : ℕ} (hlow : 0 ≤ start)
    (hhigh : start + count ≤ size) : store size start count = .ok () :=
  if_pos ⟨hlow, hhigh⟩

theorem take_one_drop {l : CString} {i : ℕ} {c : UInt8} :
    (l.drop i).take 1 = [c] ↔ l[i]? = some c := by
  rw [List.take_one, List.head?_drop, Option.toList_eq_singleton_iff]

/-- `parse_receiver` from `strlen` on. -/
theorem readFormat_eq (s : CString) :
    readFormat s = (do
      let len := intLength (behindQuote s)
      let last ← load s (quoteSize s + len - 1) 1
      if last = [quotationMark] then
        let bytes ← load s (quoteSize s) (sizeT (len - 1))
        store (sizeT len) 0 (sizeT (len - 1))
        store (sizeT len) (len - 1) 1
        validate bytes true
      else validate (behindQuote s) false) := by
  have hfirst : load s 0 1 = .ok (((s ++ [0]).drop 0).take 1) := load_eq le_rfl (by simp)
  have hquote : ((s ++ [0]).drop 0).take 1 = [quotationMark] ↔ s.head? = some quotationMark := by
    rw [take_one_drop]
    cases s with
    | nil => decide
    | cons c s => rfl
  have ho : (if ((s ++ [0]).drop 0).take 1 = [quotationMark] then 1 else 0) = quoteSize s := by
    unfold quoteSize
    simp only [hquote]
  unfold readFormat
  rw [hfirst, ok_bind]
  simp only [ho, drop_quoteSize]

theorem intLength_le {t : CString} (h : 1 ≤ intLength t) :
    intLength t ≤ t.length ∧ intLength t < 2 ^ 31 := by
  unfold intLength at h ⊢
  rw [Int.bmod_def] at h ⊢
  push_cast at h ⊢
  split at h <;> omega

theorem sizeT_eq {n : ℤ} (hlow : 0 ≤ n) (hhigh : n < 2 ^ 31) : sizeT n = n.toNat := by
  unfold sizeT
  rw [Int.emod_eq_of_lt hlow (by omega)]

theorem readFormat_outside (h : intLength (behindQuote s) < 1) :
    ∃ a, readFormat s = .error (.outside a) := by
  rw [readFormat_eq]
  dsimp only
  set len := intLength (behindQuote s) with hlen
  by_cases hlow : 0 ≤ (quoteSize s : ℤ) + len - 1
  · -- The first quotation mark is found again, and `len` is zero.
    have hquote : quoteSize s = 1 ∧ s.head? = some quotationMark := by
      unfold quoteSize at hlow ⊢
      split at hlow
      · rename_i hhead
        exact ⟨if_pos hhead, hhead⟩
      · omega
    have hzero : len = 0 := by
      rw [hquote.1] at hlow
      omega
    have hlast : load s (quoteSize s + len - 1) 1 = .ok [quotationMark] := by
      rw [hquote.1, hzero]
      show load s 0 1 = _
      rw [load_eq le_rfl (by simp)]
      cases s with
      | nil => cases hquote.2
      | cons c s =>
        rw [List.head?_cons, Option.some.injEq] at hquote
        rw [hquote.2]
        rfl
    have hstore : store (sizeT len) 0 (sizeT (len - 1)) =
        .error (.outside ⟨.copy, 0, sizeT (len - 1)⟩) := by
      rw [hzero]
      rfl
    rw [hlast, ok_bind, if_pos rfl]
    unfold load
    dsimp only
    split
    · rw [ok_bind, hstore]
      exact ⟨_, rfl⟩
    · exact ⟨_, rfl⟩
  · rw [load_outside (not_le.mp hlow)]
    exact ⟨_, rfl⟩

theorem readFormat_inside {k : ℕ} (hlen : intLength (behindQuote s) = k) (hk : 1 ≤ k) :
    readFormat s =
      if (behindQuote s)[k - 1]? = some quotationMark then
        validate ((behindQuote s).take (k - 1)) true
      else validate (behindQuote s) false := by
  obtain ⟨hle, hsmall⟩ := intLength_le (t := behindQuote s) (by omega)
  have hsize := length_behindQuote s
  have hstart : ((quoteSize s : ℤ) + k - 1).toNat = quoteSize s + (k - 1) := by omega
  have hcount : sizeT ((k : ℤ) - 1) = k - 1 := by
    rw [sizeT_eq (by omega) (by omega)]
    omega
  have hcopy : sizeT (k : ℤ) = k := by
    rw [sizeT_eq (by omega) (by omega)]
    omega
  have hlast : load s (quoteSize s + k - 1) 1 =
      .ok (((behindQuote s ++ [0]).drop (k - 1)).take 1) := by
    rw [load_eq (by omega) (by omega), hstart, ← List.drop_drop, drop_append_zero]
  have hlast_iff : ((behindQuote s ++ [0]).drop (k - 1)).take 1 = [quotationMark] ↔
      (behindQuote s)[k - 1]? = some quotationMark := by
    rw [take_one_drop, List.getElem?_append_left (by omega)]
  have hbytes : load s (quoteSize s) (k - 1) = .ok ((behindQuote s).take (k - 1)) := by
    rw [load_eq (by omega) (by omega), Int.toNat_natCast, drop_append_zero,
      List.take_append_of_le_length (by omega)]
  have hstore : store k 0 (k - 1) = .ok () := store_eq le_rfl (by omega)
  have hterminate : store k ((k : ℤ) - 1) 1 = .ok () := store_eq (by omega) (by omega)
  rw [readFormat_eq, hlen]
  dsimp only
  rw [hlast, ok_bind]
  simp only [hlast_iff, hcount, hcopy, hbytes, hstore, hterminate, ok_bind]

end Accesses

/-! ## What is stored -/

theorem validate_ok {u : CString} {b : Bool} {f : FormatFields} (h : validate u b = .ok f) :
    NameFormat f.format ∧ f.formatLen = f.format.length := by
  unfold validate at h
  split at h
  · rename_i hmatch
    cases h
    exact ⟨rmatch_iff_nameFormat.mp hmatch, rfl⟩
  · cases h

/-- Whatever was cut off, what is stored has the form of a format. -/
theorem readFormat_ok {s : CString} {f : FormatFields} (h : readFormat s = .ok f) :
    NameFormat f.format ∧ f.formatLen = f.format.length := by
  by_cases hpos : 1 ≤ intLength (behindQuote s)
  · have hlen : intLength (behindQuote s) = ((intLength (behindQuote s)).toNat : ℤ) := by omega
    rw [readFormat_inside hlen (by omega)] at h
    split at h
    · exact validate_ok h
    · exact validate_ok h
  · obtain ⟨a, ha⟩ := readFormat_outside (not_le.mp hpos)
    rw [ha] at h
    cases h

/-! ## The whole argument -/

/-- A length that has wrapped to `k` does no harm: the string is cut at a quotation mark in its
middle and what is left is not accepted, or it is not cut, and without its own quotation mark
at the end, if it has one, it would not be accepted either. -/
def WrapHarmless (t : CString) (k : ℕ) : Prop :=
  if t[k - 1]? = some quotationMark then ¬ NameFormat (t.take (k - 1))
  else t.getLast? = some quotationMark → ¬ NameFormat t.dropLast

theorem unquoted_of_last {s : CString} (h : (behindQuote s).getLast? = some quotationMark) :
    unquoted s = (behindQuote s).dropLast := if_pos h

theorem unquoted_of_not_last {s : CString} (h : (behindQuote s).getLast? ≠ some quotationMark) :
    unquoted s = behindQuote s := if_neg h

/-- A length that has not wrapped: the string is cut where it should be. -/
theorem formatRight_of_length {s : CString} (hpos : 1 ≤ (behindQuote s).length)
    (hlen : intLength (behindQuote s) = (behindQuote s).length) : FormatRight s := by
  have hread := readFormat_inside hlen hpos
  rw [← List.getLast?_eq_getElem?] at hread
  have hunquoted : ∃ b, readFormat s = validate (unquoted s) b := by
    split at hread
    · rename_i hlast
      refine ⟨true, ?_⟩
      rw [hread, unquoted_of_last hlast, List.dropLast_eq_take]
    · rename_i hlast
      exact ⟨false, by rw [hread, unquoted_of_not_last hlast]⟩
  obtain ⟨b, hvalidate⟩ := hunquoted
  exact (formatRight_of_validate hvalidate).mpr ⟨fun _ => rfl, Iff.rfl⟩

/-- A length that has wrapped to `k`. -/
theorem formatRight_of_wrapped {s : CString} {k : ℕ} (hlen : intLength (behindQuote s) = k)
    (hpos : 1 ≤ k) (hk : k < (behindQuote s).length) :
    FormatRight s ↔ WrapHarmless (behindQuote s) k := by
  have hread := readFormat_inside hlen hpos
  unfold WrapHarmless
  by_cases hmid : (behindQuote s)[k - 1]? = some quotationMark
  · rw [if_pos hmid] at hread ⊢
    rw [formatRight_of_validate hread]
    -- The quotation mark in the middle stays.
    have hnot : ¬ NameFormat (unquoted s) := by
      intro hname
      refine hname.quotationMark_notMem (List.mem_of_getElem? (i := k - 1) ?_)
      unfold unquoted
      dsimp only
      split
      · rw [List.getElem?_dropLast, if_pos (by omega)]
        exact hmid
      · exact hmid
    constructor
    · intro h hcut
      exact hnot (h.2.mp hcut)
    · intro h
      exact ⟨fun hcut => absurd hcut h, iff_of_false h hnot⟩
  · rw [if_neg hmid] at hread ⊢
    rw [formatRight_of_validate hread]
    by_cases hlast : (behindQuote s).getLast? = some quotationMark
    · have hnot : ¬ NameFormat (behindQuote s) :=
        fun hname => hname.quotationMark_notMem (List.mem_of_getLast? hlast)
      rw [unquoted_of_last hlast]
      constructor
      · intro h _ hcut
        exact hnot (h.2.mpr hcut)
      · intro h
        exact ⟨fun hname => absurd hname hnot, iff_of_false hnot (h hlast)⟩
    · rw [unquoted_of_not_last hlast]
      constructor
      · intro _ h
        exact absurd h hlast
      · intro _
        exact ⟨fun _ => rfl, Iff.rfl⟩

/-- The format is read as it should be exactly when something is left behind the first
quotation mark and its length fits an `int`, or has wrapped to a positive number and this does
no harm. -/
theorem formatRight_iff (s : CString) :
    FormatRight s ↔
      1 ≤ intLength (behindQuote s) ∧
        ((behindQuote s).length < 2 ^ 31 ∨
          WrapHarmless (behindQuote s) (intLength (behindQuote s)).toNat) := by
  by_cases hpos : 1 ≤ intLength (behindQuote s)
  · obtain ⟨hle, hsmall⟩ := intLength_le hpos
    have hnat : intLength (behindQuote s) = ((intLength (behindQuote s)).toNat : ℤ) := by omega
    by_cases hfits : (behindQuote s).length < 2 ^ 31
    · have hlen : intLength (behindQuote s) = (behindQuote s).length := by
        unfold intLength
        exact Int.bmod_eq_of_le (by omega) (by omega)
      have hright : FormatRight s := formatRight_of_length (by omega) hlen
      exact iff_of_true hright ⟨hpos, .inl hfits⟩
    · rw [formatRight_of_wrapped hnat (by omega) (by omega)]
      simp only [hpos, hfits, true_and, false_or]
  · refine iff_of_false (fun hright => ?_) fun h => hpos h.1
    obtain ⟨a, ha⟩ := readFormat_outside (not_le.mp hpos)
    exact hright.inside a ha

/-- The empty argument: the byte in front of it is read.  A lone quotation mark: almost 2^64
bytes are copied from behind it. -/
theorem not_formatRight_empty :
    readFormat [] = .error (.outside ⟨.argument, -1, 1⟩) ∧ ¬ FormatRight [] ∧
      readFormat [quotationMark] = .error (.outside ⟨.argument, 1, 2 ^ 64 - 1⟩) ∧
      ¬ FormatRight [quotationMark] := by
  have hempty : readFormat [] = .error (.outside ⟨.argument, -1, 1⟩) := by decide +kernel
  have hquote : readFormat [quotationMark] =
      .error (.outside ⟨.argument, 1, 2 ^ 64 - 1⟩) := by decide +kernel
  exact ⟨hempty, fun h => h.inside _ hempty, hquote, fun h => h.inside _ hquote⟩

end Trtp.Cli
