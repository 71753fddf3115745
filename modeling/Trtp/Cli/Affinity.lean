import Trtp.Cli.Numbers
import Trtp.Cli.OutputName
import Trtp.Cli.Streams

/-!
# The affinities of the threads

`parse_affinity_file` of `src/cli.c`.  The first line of `affinity.cfg` lists the CPU of each
receiver, the second one that of each handler, separated by commas.

The two loops over the fields of a line differ only in the array that they fill, so they are
one definition with the kind of thread as a parameter.  Allocations are taken to succeed.
`main` does not look at the result of the function: it goes by the two arrays, which are both
set or both `NULL`.
-/

namespace Trtp.Cli

/-- `getline(&line, &len, file)`: the line, with its newline if it has one, and what is left of
the file.  There is no result at the end of the file. -/
def getline (file : List UInt8) : Option (List UInt8 × List UInt8) :=
  if file.isEmpty then none
  else
    match file.dropWhile (· != '\n'.toUInt8) with
    | [] => some (file, [])
    | newline :: rest => some (file.takeWhile (· != '\n'.toUInt8) ++ [newline], rest)

/-- `strsep(&s, delim)` for a delimiter of one character: the field and what `s` points to
afterwards. -/
def strsep (s : Option CString) (delim : UInt8) : Option (CString × Option CString) :=
  s.map fun s =>
    match s.dropWhile (· != delim) with
    | [] => (s, none)
    | _ :: rest => (s.takeWhile (· != delim), some rest)

/-- Why `parse_affinity_file` returns -1, one for each message. -/
inductive AffinityError where
  | noLine (role : Role)
  | tooMany (role : Role)
  | number (role : Role) (token : CString)
  | notEnough (role : Role)
  deriving DecidableEq, Repr

/-- The loop over the fields of a line, when `i` fields have been stored in `cpus` and there is
room for `room` more. -/
def readCpus (role : Role) :
    ℕ → ℕ → Option CString → List ℕ → Except AffinityError (List ℕ)
  | room, i, line, cpus =>
    match strsep line ','.toUInt8 with
    | none => if room ≠ 0 then .error (.notEnough role) else .ok cpus
    | some (token, line) =>
      match room with
      | 0 => .error (.tooMany role)
      | room + 1 =>
        match str2size token with
        | .error _ => .error (.number role token)
        | .ok cpu => readCpus role room (i + 1) line (cpus.set i cpu)

def readLine (config : ConfigRcv) (role : Role) (file : List UInt8) :
    Except AffinityError (List ℕ × List UInt8) :=
  match getline file with
  | none => .error (.noLine role)
  | some (line, rest) =>
    (readCpus role (config.num role) 0 (some (cString line))
      (List.replicate (config.num role) 0)).map fun cpus => (cpus, rest)

def readAffinities (config : ConfigRcv) (file : List UInt8) :
    Except AffinityError (List ℕ × List ℕ) := do
  let (receivers, rest) ← readLine config .receiver file
  let (handlers, _) ← readLine config .handler rest
  return (receivers, handlers)

/-- The result of `parse_affinity_file` and the two arrays, where `none` is `NULL`. -/
structure Affinities where
  result : Except AffinityError Unit
  receiveAffinities : Option (List ℕ)
  handleAffinities : Option (List ℕ)

/-- `parse_affinity_file(config)`, when `affinity.cfg` has these bytes, if it is there. -/
def parseAffinityFile (config : ConfigRcv) (file : Option (List UInt8)) : Affinities :=
  match file with
  | none => ⟨.ok (), none, none⟩
  | some bytes =>
    match readAffinities config bytes with
    | .error e => ⟨.error e, none, none⟩
    | .ok (receivers, handlers) => ⟨.ok (), some receivers, some handlers⟩

/-! ## What is accepted -/

/-- The line lists these CPUs, one for each thread: a number that fits an `int` in each field. -/
structure CpuList (num : ℕ) (line : CString) (cpus : List ℕ) : Prop where
  length : cpus.length = num
  fields : (line.splitOn ','.toUInt8).map str2size = cpus.map .ok

/-- The file has a line for the receivers and one for the handlers. -/
def RightAffinities (config : ConfigRcv) (file : List UInt8) (receivers handlers : List ℕ) :
    Prop :=
  ∃ first rest second rest', getline file = some (first, rest) ∧
    getline rest = some (second, rest') ∧ CpuList config.receiveNum (cString first) receivers ∧
    CpuList config.handleNum (cString second) handlers

variable {config : ConfigRcv} {role : Role}

def fieldsOf (line : Option CString) : List CString := line.elim [] (·.splitOn ','.toUInt8)

theorem strsep_fields (line : Option CString) :
    (strsep line ','.toUInt8 = none ∧ fieldsOf line = []) ∨ ∃ token line',
      strsep line ','.toUInt8 = some (token, line') ∧ fieldsOf line = token :: fieldsOf line' := by
  cases line with
  | none => exact .inl ⟨rfl, rfl⟩
  | some s =>
    right
    have hbefore : ∀ c ∈ s.takeWhile (· != ','.toUInt8), (c == ','.toUInt8) = false := by
      intro c hc
      simpa using List.mem_takeWhile_imp hc
    cases hrest : s.dropWhile (· != ','.toUInt8) with
    | nil =>
      have hall : s.takeWhile (· != ','.toUInt8) = s := by
        conv_rhs => rw [← List.takeWhile_append_dropWhile (p := (· != ','.toUInt8)) (l := s), hrest]
        exact (List.append_nil _).symm
      refine ⟨s, none, by simp [strsep, hrest], ?_⟩
      rw [hall] at hbefore
      exact List.splitOnP_eq_singleton hbefore
    | cons c rest =>
      have hc : (c == ','.toUInt8) = true := by
        have hhead := List.head_dropWhile_not (· != ','.toUInt8) (l := s) (by rw [hrest]; simp)
        simpa [hrest] using hhead
      refine ⟨s.takeWhile (· != ','.toUInt8), some rest, by simp [strsep, hrest], ?_⟩
      have hs : s = s.takeWhile (· != ','.toUInt8) ++ c :: rest := by
        rw [← hrest, List.takeWhile_append_dropWhile]
      conv_lhs => rw [hs]
      exact List.splitOnP_append_cons_of_forall_mem hbefore c hc rest

/-- The loop stores the numbers of all fields, if there are as many as there is room for. -/
theorem readCpus_ok_iff {room i : ℕ} {line : Option CString} {cpus cpus' : List ℕ}
    (hlength : cpus.length = i + room) : readCpus role room i line cpus = .ok cpus' ↔
      ∃ values : List ℕ, values.length = room ∧
        (fieldsOf line).map str2size = values.map .ok ∧ cpus' = cpus.take i ++ values := by
  induction room generalizing i line cpus with
  | zero =>
    rw [readCpus]
    obtain ⟨hsep, hfields⟩ | ⟨token, line', hsep, hfields⟩ := strsep_fields line
    · have htake : cpus.take i = cpus := List.take_of_length_le (Nat.le_of_eq hlength)
      simp [hsep, hfields, htake, eq_comm]
    · simp [hsep, hfields]
  | succ room ih =>
    rw [readCpus]
    obtain ⟨hsep, hfields⟩ | ⟨token, line', hsep, hfields⟩ := strsep_fields line
    · simp [hsep, hfields]
    · simp only [hsep, hfields]
      cases hnumber : str2size token with
      | error e =>
        constructor
        · intro h
          cases h
        · rintro ⟨values, hlen, hmap, -⟩
          cases values with
          | nil => cases hlen
          | cons value values =>
            rw [List.map_cons, List.map_cons, hnumber] at hmap
            cases (List.cons.inj hmap).1
      | ok cpu =>
        have hset : (cpus.set i cpu).take (i + 1) = cpus.take i ++ [cpu] := by
          rw [List.take_add_one, List.take_set_of_le le_rfl, List.getElem?_set_self (by omega)]
          rfl
        dsimp only
        rw [ih (by rw [List.length_set]; omega), hset]
        constructor
        · rintro ⟨values, hlen, hmap, rfl⟩
          exact ⟨cpu :: values, congrArg (· + 1) hlen, by rw [List.map_cons, hnumber, hmap]; rfl,
            by rw [List.append_assoc]; rfl⟩
        · rintro ⟨values, hlen, hmap, rfl⟩
          cases values with
          | nil => cases hlen
          | cons value values =>
            rw [List.map_cons, List.map_cons, hnumber] at hmap
            obtain ⟨hvalue, hrest⟩ := List.cons.inj hmap
            cases hvalue
            exact ⟨values, Nat.succ.inj hlen, hrest, by rw [List.append_assoc]; rfl⟩

theorem readLine_ok_iff {file rest : List UInt8} {cpus : List ℕ} :
    readLine config role file = .ok (cpus, rest) ↔ ∃ line, getline file = some (line, rest) ∧
      CpuList (config.num role) (cString line) cpus := by
  unfold readLine
  cases hline : getline file with
  | none => simp
  | some r =>
    obtain ⟨line, rest'⟩ := r
    have hread : ∀ cpus', readCpus role (config.num role) 0 (some (cString line))
        (List.replicate (config.num role) 0) = .ok cpus' ↔
          CpuList (config.num role) (cString line) cpus' := by
      intro cpus'
      rw [readCpus_ok_iff (by rw [List.length_replicate, Nat.zero_add])]
      constructor
      · rintro ⟨values, hlen, hmap, rfl⟩
        exact ⟨hlen, hmap⟩
      · rintro ⟨hlen, hmap⟩
        exact ⟨cpus', hlen, hmap, rfl⟩
    cases hcpus : readCpus role (config.num role) 0 (some (cString line))
        (List.replicate (config.num role) 0) with
    | error e =>
      refine ⟨fun h => ?_, ?_⟩
      · simp [hcpus, Except.map] at h
      · rintro ⟨line', heq, hlist⟩
        cases heq
        rw [← hread, hcpus] at hlist
        cases hlist
    | ok cpus' =>
      have hlist' := (hread cpus').mp hcpus
      simp only [hcpus, Except.map, Except.ok.injEq, Prod.mk.injEq, Option.some.injEq]
      constructor
      · rintro ⟨rfl, rfl⟩
        exact ⟨line, ⟨rfl, rfl⟩, hlist'⟩
      · rintro ⟨line', ⟨rfl, rfl⟩, hlist⟩
        have := (hread cpus).mpr hlist
        rw [hcpus] at this
        exact ⟨Except.ok.inj this, rfl⟩

theorem readAffinities_ok_iff {file : List UInt8} {receivers handlers : List ℕ} :
    readAffinities config file = .ok (receivers, handlers) ↔
      RightAffinities config file receivers handlers := by
  constructor
  · intro h
    unfold readAffinities at h
    cases hfirst : readLine config .receiver file with
    | error e =>
      rw [hfirst] at h
      cases h
    | ok r =>
      obtain ⟨receivers', rest⟩ := r
      rw [hfirst] at h
      cases hsecond : readLine config .handler rest with
      | error e =>
        simp only [bind, Except.bind, hsecond] at h
        cases h
      | ok r =>
        obtain ⟨handlers', rest'⟩ := r
        simp only [bind, Except.bind, hsecond] at h
        cases h
        obtain ⟨first, hline, hlist⟩ := readLine_ok_iff.mp hfirst
        obtain ⟨second, hline', hlist'⟩ := readLine_ok_iff.mp hsecond
        exact ⟨first, rest, second, rest', hline, hline', hlist, hlist'⟩
  · rintro ⟨first, rest, second, rest', hline, hline', hlist, hlist'⟩
    have hfirst : readLine config .receiver file = .ok (receivers, rest) :=
      readLine_ok_iff.mpr ⟨first, hline, hlist⟩
    have hsecond : readLine config .handler rest = .ok (handlers, rest') :=
      readLine_ok_iff.mpr ⟨second, hline', hlist'⟩
    simp only [readAffinities, bind, Except.bind, hfirst, hsecond]
    rfl

/-- The arrays are set exactly when the file is there and has the CPUs of all receivers in its
first line and those of all handlers in its second one, and then to these CPUs.  Otherwise
both are `NULL`, whatever the function returns: without a file it returns 0. -/
theorem parseAffinityFile_iff (config : ConfigRcv) (file : Option (List UInt8)) :
    (∀ receivers handlers,
      parseAffinityFile config file = ⟨.ok (), some receivers, some handlers⟩ ↔
        RightAffinities config (file.getD []) receivers handlers) ∧
      ((∀ receivers handlers, ¬ RightAffinities config (file.getD []) receivers handlers) →
        (parseAffinityFile config file).receiveAffinities = none ∧
          (parseAffinityFile config file).handleAffinities = none ∧
          ((parseAffinityFile config file).result = .ok () ↔ file = none)) := by
  cases file with
  | none =>
    refine ⟨fun receivers handlers => ⟨fun h => ?_, fun h => ?_⟩, fun _ => ⟨rfl, rfl, ?_⟩⟩
    · simp [parseAffinityFile] at h
    · obtain ⟨first, rest, -, -, hline, -⟩ := h
      cases hline
    · simp [parseAffinityFile]
  | some bytes =>
    simp only [Option.getD_some, parseAffinityFile]
    cases hread : readAffinities config bytes with
    | error e =>
      refine ⟨fun receivers handlers => ⟨fun h => ?_, fun h => ?_⟩, fun _ => ⟨rfl, rfl, ?_⟩⟩
      · simp at h
      · rw [← readAffinities_ok_iff, hread] at h
        cases h
      · simp
    | ok r =>
      obtain ⟨receivers', handlers'⟩ := r
      refine ⟨fun receivers handlers => ?_, fun h => ?_⟩
      · rw [← readAffinities_ok_iff, hread]
        simp
      · exact absurd (readAffinities_ok_iff.mp hread) (h receivers' handlers')

/-! ## What is written -/

def cpuLine : List ℕ → CString
  | [] => []
  | [cpu] => decimalDigits cpu
  | cpu :: cpus => decimalDigits cpu ++ ','.toUInt8 :: cpuLine cpus

/-- The text behind a line: it is the last one, or a newline comes. -/
def LineEnd (tail : List UInt8) : Prop := tail.head?.all (· == '\n'.toUInt8)

theorem cpuLine_mem {cpus : List ℕ} {c : UInt8} (hc : c ∈ cpuLine cpus) :
    isdigit c = true ∨ c = ','.toUInt8 := by
  induction cpus using cpuLine.induct with
  | case1 => cases hc
  | case2 cpu => exact .inl (isdigit_of_mem_decimalDigits hc)
  | case3 cpu cpus hne ih =>
    rw [cpuLine] at hc
    · rcases List.mem_append.mp hc with hc | hc
      · exact .inl (isdigit_of_mem_decimalDigits hc)
      · rcases List.mem_cons.mp hc with hc | hc
        · exact .inr hc
        · exact ih hc
    · exact hne

theorem cpuLine_plain {cpus : List ℕ} {c : UInt8} (hc : c ∈ cpuLine cpus) :
    c ≠ '\n'.toUInt8 ∧ c ≠ 0 := by
  rcases cpuLine_mem hc with hdigit | rfl
  · constructor <;>
    · rintro rfl
      exact absurd hdigit (by decide)
  · exact ⟨by decide, by decide⟩

theorem cpuLine_ne_nil {cpus : List ℕ} (hne : cpus ≠ []) : cpuLine cpus ≠ [] := by
  cases cpus with
  | nil => exact absurd rfl hne
  | cons cpu cpus => cases cpus <;> simp [cpuLine, decimalDigits_ne_nil]

theorem lineEnd_cases {tail : List UInt8} (h : LineEnd tail) :
    tail.take 1 = [] ∨ tail.take 1 = ['\n'.toUInt8] := by
  cases tail with
  | nil => exact .inl rfl
  | cons c tail => exact .inr (by simpa [LineEnd] using h)

theorem str2size_decimalDigits {n : ℕ} (hn : n < 2 ^ 31) {tail : List UInt8}
    (htail : LineEnd tail) : str2size (decimalDigits n ++ tail.take 1) = .ok n := by
  have hdigits : ∀ c ∈ decimalDigits n, isdigit c = true := fun c => isdigit_of_mem_decimalDigits
  obtain ⟨c, cs, hcs⟩ := List.exists_cons_of_ne_nil (decimalDigits_ne_nil n)
  have hc : isdigit c = true := hdigits c (by rw [hcs]; exact List.mem_cons_self)
  have hbounds : 48 ≤ c.toNat ∧ c.toNat ≤ 57 := by
    simp only [isdigit, Bool.and_eq_true, decide_eq_true_eq, UInt8.le_iff_toNat_le] at hc
    exact hc
  have hspace : isspace c = false := by
    have hne : ¬ c.toNat = 32 := by omega
    have hgt : ¬ c.toNat ≤ 13 := by omega
    simp only [isspace, Bool.or_eq_false_iff, beq_eq_false_iff_ne, Bool.and_eq_false_iff,
      decide_eq_false_iff_not, UInt8.le_iff_toNat_le]
    exact ⟨fun h => hne (congrArg UInt8.toNat h), .inr hgt⟩
  have hminus : c ≠ '-'.toUInt8 := by
    rintro rfl
    exact absurd hbounds.1 (by decide)
  have hplus : c ≠ '+'.toUInt8 := by
    rintro rfl
    exact absurd hbounds.1 (by decide)
  have htake : (decimalDigits n ++ tail.take 1).takeWhile isdigit = decimalDigits n := by
    rcases lineEnd_cases htail with h | h <;> rw [h, List.takeWhile_append_of_pos hdigits]
    · exact List.append_nil _
    · exact List.append_nil _
  have hdrop : (decimalDigits n ++ tail.take 1).dropWhile isdigit = tail.take 1 := by
    rcases lineEnd_cases htail with h | h <;> rw [h, List.dropWhile_append_of_pos hdigits] <;> rfl
  have hhead : (decimalDigits n ++ tail.take 1).head? = some c := by rw [hcs]; rfl
  have hstart : (decimalDigits n ++ tail.take 1).dropWhile isspace =
      decimalDigits n ++ tail.take 1 := dropWhile_isspace (by simp [hhead, hspace])
  have hempty : (decimalDigits n).isEmpty = false := by rw [hcs]; rfl
  have hstrtol : strtol (decimalDigits n ++ tail.take 1) =
      { value := n, erange := false, endPtr := tail.take 1 } := by
    have hmax : ¬ (n : ℤ) > longMax := by simp only [longMax]; omega
    have hmin : ¬ (n : ℤ) < longMin := by simp only [longMin]; omega
    simp [strtol, hstart, hhead, hminus, hplus, htake, hdrop, hempty, decimal_decimalDigits, hmax,
      hmin]
  have hmax : ¬ (n : ℤ) > intMax := by simp only [intMax]; omega
  have hend : (tail.take 1).head?.any (· != '\n'.toUInt8) = false := by
    rcases lineEnd_cases htail with h | h <;> rw [h] <;> rfl
  simp [str2size, hhead, hspace, hstrtol, hmax, hend]

theorem cpuList_cpuLine {cpus : List ℕ} (hne : cpus ≠ []) (hcpus : ∀ cpu ∈ cpus, cpu < 2 ^ 31)
    {tail : List UInt8} (htail : LineEnd tail) :
    ((cpuLine cpus ++ tail.take 1).splitOn ','.toUInt8).map str2size = cpus.map .ok := by
  have hdigits : ∀ n, ∀ c ∈ decimalDigits n, (c == ','.toUInt8) = false := by
    intro n c hc
    have hdigit := isdigit_of_mem_decimalDigits hc
    rw [beq_eq_false_iff_ne]
    rintro rfl
    exact absurd hdigit (by decide)
  induction cpus using cpuLine.induct with
  | case1 => exact absurd rfl hne
  | case2 cpu =>
    have hline : ∀ c ∈ decimalDigits cpu ++ tail.take 1, (c == ','.toUInt8) = false := by
      intro c hc
      rcases List.mem_append.mp hc with hc | hc
      · exact hdigits cpu c hc
      · rcases lineEnd_cases htail with h | h <;> rw [h] at hc
        · cases hc
        · rw [List.mem_singleton.mp hc]
          rfl
    rw [cpuLine, List.splitOn_eq_splitOnP, List.splitOnP_eq_singleton hline, List.map_singleton,
      str2size_decimalDigits (hcpus cpu (by simp)) htail]
    rfl
  | case3 cpu cpus hcons ih =>
    rw [cpuLine, List.append_assoc, List.cons_append, List.splitOn_eq_splitOnP,
      List.splitOnP_append_cons_of_forall_mem (hdigits cpu) _ (by rfl), List.map_cons,
      List.map_cons]
    · have hcpu : str2size (decimalDigits cpu) = .ok cpu := by
        have hend : LineEnd [] := rfl
        have := str2size_decimalDigits (hcpus cpu List.mem_cons_self) hend
        rwa [List.take_nil, List.append_nil] at this
      rw [hcpu, ← ih hcons fun cpu hc => hcpus cpu (List.mem_cons_of_mem _ hc)]
      rfl
    · exact hcons

theorem getline_append {line tail : List UInt8} (hne : line ≠ [])
    (hline : ∀ c ∈ line, c ≠ '\n'.toUInt8) (htail : LineEnd tail) :
    getline (line ++ tail) = some (line ++ tail.take 1, tail.drop 1) := by
  have hline' : ∀ c ∈ line, (c != '\n'.toUInt8) = true := fun c hc => by simpa using hline c hc
  have hempty : (line ++ tail).isEmpty = false := by simp [hne]
  rw [getline, hempty, if_neg Bool.false_ne_true, List.dropWhile_append_of_pos hline',
    List.takeWhile_append_of_pos hline']
  cases tail with
  | nil => rfl
  | cons c tail =>
    have hc : c = '\n'.toUInt8 := by simpa [LineEnd] using htail
    subst hc
    simp

theorem cpuList_of_cpuLine {cpus : List ℕ} (hne : cpus ≠ []) (hcpus : ∀ cpu ∈ cpus, cpu < 2 ^ 31)
    {tail : List UInt8} (htail : LineEnd tail) :
    getline (cpuLine cpus ++ tail) = some (cpuLine cpus ++ tail.take 1, tail.drop 1) ∧
      CpuList cpus.length (cString (cpuLine cpus ++ tail.take 1)) cpus := by
  have hstring : cString (cpuLine cpus ++ tail.take 1) = cpuLine cpus ++ tail.take 1 := by
    refine List.takeWhile_eq_self_iff.mpr fun c hc => ?_
    rcases List.mem_append.mp hc with hc | hc
    · simpa using (cpuLine_plain hc).2
    · rcases lineEnd_cases htail with h | h <;> rw [h] at hc
      · cases hc
      · rw [List.mem_singleton.mp hc]
        rfl
  refine ⟨getline_append (cpuLine_ne_nil hne) (fun c hc => (cpuLine_plain hc).1) htail, rfl, ?_⟩
  rw [hstring, cpuList_cpuLine hne hcpus htail]

/-- The file that the usage message describes is read as it is meant: the CPUs of the
receivers, separated by commas, and on the next line those of the handlers. -/
theorem affinities_roundTrip (receivers handlers : List ℕ) (hreceivers : receivers ≠ [])
    (hhandlers : handlers ≠ []) (hcpus : ∀ cpu ∈ receivers ++ handlers, cpu < 2 ^ 31)
    (tail : List UInt8) (htail : tail = [] ∨ tail.head? = some '\n'.toUInt8) :
    parseAffinityFile ⟨receivers.length, handlers.length⟩
        (some (cpuLine receivers ++ '\n'.toUInt8 :: (cpuLine handlers ++ tail))) =
      ⟨.ok (), some receivers, some handlers⟩ := by
  have htail' : LineEnd tail := by
    rcases htail with rfl | h
    · rfl
    · rw [LineEnd, h]
      rfl
  have hend : LineEnd ('\n'.toUInt8 :: (cpuLine handlers ++ tail)) := rfl
  obtain ⟨hline, hlist⟩ := cpuList_of_cpuLine hreceivers
    (fun cpu hc => hcpus cpu (List.mem_append_left _ hc)) hend
  obtain ⟨hline', hlist'⟩ := cpuList_of_cpuLine hhandlers
    (fun cpu hc => hcpus cpu (List.mem_append_right _ hc)) htail'
  have hread : readAffinities ⟨receivers.length, handlers.length⟩
      (cpuLine receivers ++ '\n'.toUInt8 :: (cpuLine handlers ++ tail)) =
        .ok (receivers, handlers) :=
    readAffinities_ok_iff.mpr ⟨_, _, _, _, hline, hline', hlist, hlist'⟩
  rw [parseAffinityFile, hread]

theorem affinities_roundTrip_six :
    parseAffinityFile ⟨2, 4⟩ (some ([0x30, 0x2c, 0x31, 0x0a, 0x32, 0x2c, 0x33, 0x2c, 0x34, 0x2c,
      0x35] : List UInt8)) = ⟨.ok (), some [0, 1], some [2, 3, 4, 5]⟩ :=
  affinities_roundTrip [0, 1] [2, 3, 4, 5] (by decide) (by decide) (by decide) [] (.inl rfl)

end Trtp.Cli
