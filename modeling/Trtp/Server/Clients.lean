import Trtp.Cli.Numbers
import Trtp.Cli.OutputName
import Trtp.Server.Threads

/-!
# The clients of the threaded mode

What holds of the clients in every run of the threads, also where a request outlives its
client: the numbers that they get and the files that these name, the end of their transfer
and the closing of their file, and that the main thread deallocates no client twice.

A client belongs to the receiver that creates it until `ht_put`.  Then it is in one slot of
the table, or it has been overwritten there, until the main thread takes it out.
-/

namespace Trtp

open Lib

/-! ## What a request leaves of its client -/

section

variable (crc : Crc) (cfg : HdCfg)

theorem intake_client (env : Env) (s : Intake) (d : Datagram) :
    ∃ window, (intake crc cfg env s d).client = { s.client with window := window } := by
  unfold intake
  dsimp only
  split
  · exact ⟨_, rfl⟩
  · split_ifs <;> exact ⟨_, rfl⟩

theorem foldl_intake_client (env : Env) (s : Intake) (datagrams : List Datagram) :
    ∃ window, (datagrams.foldl (intake crc cfg env) s).client =
      { s.client with window := window } := by
  refine foldl_invariant
    (I := fun t : Intake => ∃ window, t.client = { s.client with window := window }) ?_ ⟨_, rfl⟩
    datagrams
  rintro t d ⟨window, ht⟩
  obtain ⟨window', hd⟩ := intake_client crc cfg env t d
  exact ⟨window', by rw [hd, ht]⟩

/-- A request ends the transfer or leaves it as it was.  When it ends it, it closes the file
once. -/
theorem handleRequest_ending (env : Env) (client : Client) (decoded : Packet)
    (datagrams : List Datagram) :
    let r := (handleRequest crc cfg env client decoded datagrams).client
    r.id = client.id ∧
      (r.active = client.active ∧ r.endTime = client.endTime ∧
          r.outFile.closes = client.outFile.closes ∨
        client.active = true ∧ r.active = false ∧ r.endTime = some env.now ∧
          r.outFile.closes = client.outFile.closes + 1) := by
  obtain ⟨window, hclient⟩ := foldl_intake_client crc cfg env
    { client := client, decoded := decoded, lastTimestamp := client.lastTimestamp, replies := [] }
    datagrams
  unfold handleRequest
  dsimp only
  split_ifs
  · unfold deliver
    dsimp only
    split_ifs
    · rw [hclient]
      exact ⟨rfl, .inl ⟨rfl, rfl, (File.fseekSet_closes _ _).trans (File.write_closes _ _)⟩⟩
    · unfold advance
      dsimp only
      split_ifs with hend
      · rw [hclient] at hend ⊢
        exact ⟨rfl, .inr ⟨(Bool.and_eq_true_iff.mp hend).2, rfl, rfl,
          congrArg (· + 1) (File.write_closes _ _)⟩⟩
      · rw [hclient]
        exact ⟨rfl, .inl ⟨rfl, rfl, File.write_closes _ _⟩⟩
  · rw [hclient]
    exact ⟨rfl, .inl ⟨rfl, rfl, rfl⟩⟩

end

namespace Threads

variable {ρ η : Type} [DecidableEq ρ] [DecidableEq η] {s s' : State ρ η} {r : ρ} {h : η}
  {t : Thread ρ η} {maxClients : ℕ} {crc : Crc} {cfg : HdCfg}

omit [DecidableEq ρ] [DecidableEq η] in
theorem ClientStep.id {c : ℕ} {client : Client} (h : ClientStep crc cfg s c client) :
    client.id = (s.clients c).id := by
  cases h with
  | same => rfl
  | served env decoded datagrams =>
    exact (handleRequest_ending crc cfg env (s.clients c) decoded datagrams).1
  | late => rfl
  | deallocated =>
    unfold deallocateClient
    split_ifs <;> rfl

theorem Step.created (hstep : Step crc cfg maxClients s t s') :
    s'.idx = s.idx ∧ s'.nextClient = s.nextClient ∨
      s'.idx = s.idx + 1 ∧ s'.nextClient = s.nextClient + 1 ∧
        ∃ address, s'.clients s.nextClient = initializeClient s.idx address := by
  cases hstep with
  | rx h =>
    cases h with
    | @create address => exact .inr ⟨rfl, rfl, address, Function.update_self _ _ _⟩
    | _ => exact .inl ⟨rfl, rfl⟩
  | hd h => cases h <;> exact .inl ⟨rfl, rfl⟩
  | main h => cases h <;> exact .inl ⟨rfl, rfl⟩

/-- What `initialize_client` establishes and the steps of a client keep holds of all clients. -/
theorem Step.clients {P : ℕ → Client → Prop} (hstep : Step crc cfg maxClients s t s')
    (hcreate : ∀ address, P s.nextClient (initializeClient s.idx address))
    (hkeep : ∀ c client, P c (s.clients c) → ClientStep crc cfg s c client → P c client)
    (hs : ∀ c < s.nextClient, P c (s.clients c)) : ∀ c < s'.nextClient, P c (s'.clients c) := by
  have hold : ∀ c < s.nextClient, P c (s'.clients c) := fun c hc =>
    hkeep c _ (hs c hc) (hstep.client hc)
  rcases hstep.created with ⟨-, hnext⟩ | ⟨-, hnext, address, hnew⟩
  · rwa [hnext]
  · intro c hc
    rw [hnext] at hc
    rcases Nat.lt_or_eq_of_le (Nat.le_of_lt_succ hc) with hlt | rfl
    · exact hold c hlt
    · rw [hnew]
      exact hcreate address

/-! ## The numbers of the clients -/

/-- The threads start with `idx` at zero. -/
structure Started (s : State ρ η) : Prop extends Initial s where
  idx : s.idx = 0
  nextClient : s.nextClient = 0

/-- The states of all runs, whatever the main thread reaps. -/
abbrev Runs (crc : Crc) (cfg : HdCfg) (maxClients : ℕ) : State ρ η → Prop :=
  ReachBy Started (Step crc cfg maxClients) fun _ _ => True

structure Numbered (s : State ρ η) : Prop where
  idx : s.idx = UInt32.ofNat s.nextClient
  id : ∀ c < s.nextClient, (s.clients c).id = UInt32.ofNat c

omit [DecidableEq ρ] [DecidableEq η] in
theorem Started.numbered (hs : Started s) : Numbered s := by
  refine ⟨by rw [hs.idx, hs.nextClient]; rfl, fun c hc => ?_⟩
  rw [hs.nextClient] at hc
  exact absurd hc (Nat.not_lt_zero c)

theorem Numbered.step (hs : Numbered s) (hstep : Step crc cfg maxClients s t s') :
    Numbered s' := by
  have hid : ∀ c client, (s.clients c).id = UInt32.ofNat c → ClientStep crc cfg s c client →
      client.id = UInt32.ofNat c := by
    rintro c client h hclient
    rw [hclient.id, h]
  refine ⟨?_, hstep.clients (P := fun c client => client.id = UInt32.ofNat c) (fun _ => hs.idx)
    hid hs.id⟩
  rcases hstep.created with ⟨hidx, hnext⟩ | ⟨hidx, hnext, -⟩
  · rw [hidx, hnext, hs.idx]
  · rw [hidx, hnext, hs.idx, UInt32.ofNat_add]
    rfl

theorem Runs.numbered (hs : Runs crc cfg maxClients s) : Numbered s := by
  refine hs.invariant (fun _ h => h.numbered) ?_
  intro s t s' h _ hstep
  exact h.step hstep

open Cli in
/-- If the format makes names that fit, two clients write to the same file exactly when the
numbers of clients created before them differ by a multiple of 2^32, or `sprintf` fails on the
field width and leaves them all with the text in front of the directive. -/
theorem same_file_iff {α : Type} {getaddrinfo : CString → CString → Option (α × List α)}
    {argv : List CString} {config : Config α} (hparse : parseReceiver getaddrinfo argv = .ok config)
    (hfits : ∀ id, NameFits config.format id) (hs : Runs crc cfg maxClients s) (c c' : ℕ)
    (hc : c < s.nextClient) (hc' : c' < s.nextClient) :
    ∃ d : Directive, config.format = d.text ∧
      (∃ name, fileName config.format (s.clients c).id = some name ∧ name.length < nameSize) ∧
      (fileName config.format (s.clients c).id = fileName config.format (s.clients c').id ↔
        c % 2 ^ 32 = c' % 2 ^ 32 ∨ intMax < d.width) := by
  obtain ⟨o, hread⟩ := parseReceiver_format hparse
  obtain ⟨d, hd⟩ := readFormat_directive hread
  have hid := hs.numbered.id c hc
  have hid' := hs.numbered.id c' hc'
  refine ⟨d, hd, hfits _, ?_⟩
  rw [hd]
  constructor
  · intro heq
    by_cases hwidth : intMax < d.width
    · exact .inr hwidth
    · have hsame := congrArg UInt32.toNat (fileName_text_inj (not_lt.mp hwidth) heq)
      rw [hid, hid', UInt32.toNat_ofNat', UInt32.toNat_ofNat'] at hsame
      exact .inl hsame
  · rintro (hmod | hwidth)
    · have hsame : (s.clients c).id = (s.clients c').id := by
        rw [hid, hid', ← UInt32.toNat_inj, UInt32.toNat_ofNat', UInt32.toNat_ofNat', hmod]
      rw [hsame]
    · rw [fileName_of_width hwidth, fileName_of_width hwidth]

def neighbour : Address := ⟨5556, localhost.ip⟩

/-- A receiver has created a client and enqueued a request for it, and creates another one. -/
theorem twoClients_reached : ∃ s : State Unit Unit, Runs bitwiseCrc ⟨31⟩ 2 s ∧
    s.nextClient = 2 ∧ (s.clients 0).active = true := by
  have hstart : Runs bitwiseCrc ⟨31⟩ 2 started :=
    .start ⟨⟨rfl, fun _ => rfl, rfl, fun _ => rfl, rfl, rfl⟩, rfl, rfl⟩
  have hunknown := ReachBy.step hstart trivial
    (.rx (.unknown (r := ()) rfl (rfl : started.table.get localhost = some none)))
  have hcreated := ReachBy.step hunknown trivial
    (.rx (.create (r := ()) (rfl : _ = RxPc.unknown localhost) (by decide)))
  have hput := ReachBy.step hcreated trivial
    (.rx (.put (r := ()) (rfl : _ = RxPc.creating localhost 0)
      (rfl : allocateHt.put localhost (some 0) = some (none, [], registered))))
  have henqueued := ReachBy.step hput trivial (.rx (.enqueue (r := ()) rfl))
  have hunknown' := ReachBy.step henqueued trivial
    (.rx (.unknown (r := ()) rfl (rfl : registered.get neighbour = some none)))
  have hcreated' := ReachBy.step hunknown' trivial
    (.rx (.create (r := ()) (rfl : _ = RxPc.unknown neighbour) (by decide)))
  exact ⟨_, hcreated', rfl, rfl⟩

open Cli in
theorem same_file_iff_twoClients : ∃ s : State Unit Unit, s.nextClient = 2 ∧
    fileName (localConfig 100).format (s.clients 0).id ≠
      fileName (localConfig 100).format (s.clients 1).id := by
  obtain ⟨s, hs, hnext, -⟩ := twoClients_reached
  have hparse : parseReceiver (fun _ _ => some ((), [])) (localArgv []) = .ok (localConfig 100) :=
    rfl
  have hfits : ∀ id, NameFits (localConfig 100).format id := by
    intro id
    have hle := length_sign_decimalDigits_le id
    refine (nameFits_text defaultDirective id).mpr ?_
    rw [if_neg (by decide)]
    have hwidth : defaultDirective.width = 0 := rfl
    have htext : defaultDirective.before.length + defaultDirective.after.length = 0 := rfl
    rw [hwidth, nameSize]
    omega
  obtain ⟨d, hd, -, hiff⟩ := same_file_iff hparse hfits hs 0 1 (by omega) (by omega)
  have htext : defaultDirective = d := directive_unique hd
  refine ⟨s, hnext, fun heq => ?_⟩
  rcases hiff.mp heq with hmod | hwidth
  · exact absurd hmod (by decide)
  · rw [← htext] at hwidth
    exact absurd hwidth (by decide)

/-! ## The end of a transfer -/

def Ended (client : Client) : Prop := client.active = false ∧ client.endTime.isSome = true

theorem Ended.handleRequest {client : Client} (h : Ended client) (env : Env)
    (decoded : Packet) (datagrams : List Datagram) :
    Ended (handleRequest crc cfg env client decoded datagrams).client := by
  obtain ⟨-, ⟨hactive, htime, -⟩ | ⟨hactive, -⟩⟩ :=
    handleRequest_ending crc cfg env client decoded datagrams
  · rw [Ended, hactive, htime]
    exact h
  · rw [h.1] at hactive
    cases hactive

theorem Step.ended (hstep : Step crc cfg maxClients s t s') {c : ℕ} (hc : c < s.nextClient)
    (hended : Ended (s.clients c)) : Ended (s'.clients c) := by
  have hclient := hstep.client hc
  generalize s'.clients c = client at hclient ⊢
  cases hclient with
  | same => exact hended
  | served env decoded datagrams => exact hended.handleRequest env decoded datagrams
  | late => exact hended
  | deallocated => rwa [deallocateClient_of_inactive hended.1]

theorem ended_of_mem_clientToRemove {expired : ℤ → Bool} {table : Ht ℕ} {clients : ℕ → Client}
    {now c : ℕ} (h : c ∈ clientToRemove expired table clients now) : Ended (clients c) := by
  obtain ⟨i, -, hi⟩ := List.mem_filterMap.mp h
  split_ifs at hi with hused
  have hany := (Option.filter_eq_some_iff.mp hi).2
  unfold Client.timeInactive at hany
  split_ifs at hany with hactive
  · cases hany
  · refine ⟨Bool.eq_false_iff.mpr hactive, ?_⟩
    cases htime : (clients c).endTime with
    | none =>
      rw [htime] at hany
      cases hany
    | some time => rfl

/-! ## Deallocation -/

/-- A client that is being created is known to nobody but its receiver. -/
structure Own (s : State ρ η) (r : ρ) (c : ℕ) : Prop where
  alone : ∀ r' address, s.rx r' = .creating address c → r' = r
  stored : Stored (fun _ c' => c' ≠ c) s
  listed : c ∉ s.main.listed
  out : ¬ s.Out c

/-- What a client goes through: it is created, put into the table, taken out of it once its
transfer has ended, and deallocated. -/
structure Kept (s : State ρ η) : Prop extends Base s where
  own : ∀ r address c, s.rx r = .creating address c → Own s r c
  out_lt : ∀ c, s.Out c → c < s.nextClient
  out : ∀ c, s.Out c → Stored (fun _ c' => c' ≠ c) s
  nodup : s.main.listed.Nodup
  notFreed : ∀ c ∈ s.main.listed, c ∉ s.freed
  freed : s.freed.Nodup
  ended : ∀ c, c ∈ s.main.listed ∨ c ∈ s.freed → Ended (s.clients c)

omit [DecidableEq ρ] [DecidableEq η] in
theorem Initial.kept (hs : Initial s) : Kept s := by
  have hlisted : s.main.listed = [] := by rw [hs.main]; rfl
  refine { hs.base with
    own := fun r address c hr => ?_
    out_lt := fun c hc => absurd hc (hs.not_out c)
    out := fun c hc => absurd hc (hs.not_out c)
    nodup := ?_, notFreed := ?_, freed := ?_, ended := ?_ }
  · rw [hs.rx r] at hr
    cases hr
  · rw [hlisted]
    exact List.nodup_nil
  · rw [hs.freed]
    exact fun c _ => List.not_mem_nil
  · rw [hs.freed]
    exact List.nodup_nil
  · rw [hlisted, hs.freed]
    rintro c (hc | hc) <;> exact absurd hc List.not_mem_nil

omit [DecidableEq ρ] [DecidableEq η] in
/-- No two slots have the same client, so that none is found twice. -/
theorem Base.nodup_filterMap (hs : Base s) (hprobing : s.table.Probing) {f : ℕ → Option ℕ}
    (hf : ∀ i c, f i = some c →
      (s.table.items i).used = true ∧ (s.table.items i).value = some c) (n : ℕ) :
    ((List.range n).filterMap f).Nodup := by
  refine List.Nodup.filterMap ?_ List.nodup_range
  intro i i' c hi hi'
  obtain ⟨hused, hvalue⟩ := hf i c hi
  obtain ⟨hused', hvalue'⟩ := hf i' c hi'
  have hslot : s.table.slots i = some (s.clients c).address := by
    have hkey := Ht.slots_eq_some.mpr ⟨hused, rfl⟩
    rwa [← hs.named.table i _ c hkey hvalue] at hkey
  have hslot' : s.table.slots i' = some (s.clients c).address := by
    have hkey := Ht.slots_eq_some.mpr ⟨hused', rfl⟩
    rwa [← hs.named.table i' _ c hkey hvalue'] at hkey
  exact hprobing.distinct i i' _ hslot hslot'

theorem Step.creating (hstep : Step crc cfg maxClients s t s') {address : Address} {c : ℕ}
    (hr : s'.rx r = .creating address c) :
    c = s.nextClient ∧ t = .rx r ∨ t ≠ .rx r ∧ s.rx r = .creating address c := by
  cases hstep with
  | @rx r' _ h =>
    by_cases hrr : r = r'
    · subst hrr
      cases h with
      | create =>
        simp only [State.rxGoto, Function.update_self, RxPc.creating.injEq] at hr
        exact .inl ⟨hr.2.symm, rfl⟩
      | _ => simp [State.rxGoto] at hr
    · refine .inr ⟨fun heq => hrr (Thread.rx.inj heq).symm, ?_⟩
      cases h <;> simpa [State.rxGoto, Function.update_of_ne hrr] using hr
  | hd h =>
    refine .inr ⟨fun heq => ?_, ?_⟩
    · cases heq
    · cases h <;> exact hr
  | main h =>
    refine .inr ⟨fun heq => ?_, ?_⟩
    · cases heq
    · cases h <;> exact hr

theorem Step.listed (hstep : Step crc cfg maxClients s t s') :
    (∀ c ∈ s'.main.listed, c ∈ s.main.listed) ∨ s.main = .idle ∧
      ∃ now, s'.main.listed = clientToRemove expiredThreaded s.table s.clients now ∧
        s'.freed = s.freed ∧ s'.clients = s.clients := by
  cases hstep with
  | rx h =>
    rw [h.table.1]
    exact .inl fun c hc => hc
  | hd h => cases h <;> exact .inl fun c hc => hc
  | main h =>
    cases h with
    | scan now hpc => exact .inr ⟨hpc, now, listed_next _, rfl, rfl⟩
    | clear hpc => exact .inl fun c hc => by rw [hpc]; exact hc
    | install hpc => exact .inl fun c hc => by rw [hpc]; exact hc
    | move hpc => exact .inl fun c hc => by rw [hpc]; exact hc
    | moved hpc => exact .inl fun c hc => by rw [hpc]; exact hc
    | deallocate hpc =>
      rw [listed_next, hpc]
      exact .inl fun c hc => List.mem_cons_of_mem _ hc

theorem Base.freed_step (hs : Base s) (hstep : Step crc cfg maxClients s t s') :
    s'.freed = s.freed ∧ (s'.main.listed = s.main.listed ∨ s.main = .idle) ∨
      ∃ client, s.main.listed = client :: s'.main.listed ∧ s'.freed = s.freed ++ [client] := by
  cases hstep with
  | rx h =>
    obtain ⟨hmain, ⟨-, hfreed⟩ | ⟨address, client, old, freed, -, hput, hfreed⟩⟩ := h.table
    · exact .inl ⟨hfreed, .inl (by rw [hmain])⟩
    · exact .inl ⟨by rw [hfreed, (hs.tidy.put hput).2, List.append_nil], .inl (by rw [hmain])⟩
  | hd h => cases h <;> exact .inl ⟨rfl, .inl rfl⟩
  | main h =>
    cases h with
    | scan now hpc => exact .inl ⟨rfl, .inr hpc⟩
    | @clear client rest freed del table hpc hput =>
      refine .inl ⟨?_, .inl (by rw [hpc]; rfl)⟩
      rw [(hs.tidy.put hput).2, List.append_nil]
    | install hpc => exact .inl ⟨rfl, .inl (by rw [hpc]; rfl)⟩
    | move hpc => exact .inl ⟨rfl, .inl (by rw [hpc]; rfl)⟩
    | @moved oldValues _ _ _ _ hpc =>
      refine .inl ⟨?_, .inl (by rw [hpc]; rfl)⟩
      rw [(hs.tidy_moving hpc).deallocItems, List.append_nil]
    | deallocate hpc => exact .inr ⟨_, by rw [hpc, listed_next]; rfl, rfl⟩

theorem mem_of_mem_listed {clients : ℕ → Client} {table : Ht ℕ} {now c : ℕ}
    (hc : c ∈ clientToRemove expiredThreaded table clients now) {P : ℕ → Prop}
    (h : table.Each fun _ c => P c) : P c := by
  obtain ⟨i, hused, hvalue⟩ := mem_clientToRemove hc
  exact h i _ c (Ht.slots_eq_some.mpr ⟨hused, rfl⟩) hvalue

theorem Kept.own_step (hs : Kept s) (hstep : Step crc cfg maxClients s t s') {address : Address}
    {c : ℕ} (hr : s'.rx r = .creating address c) : Own s' r c := by
  -- the client has just been created, or it was already known to its receiver only
  have hknown : ∀ r' address', s.rx r' = .creating address' c → c < s.nextClient :=
    fun r' address' h => hs.known.rx r' c (by rw [h]; rfl)
  have hbefore : c = s.nextClient ∧ t = .rx r ∨ t ≠ .rx r ∧ Own s r c := by
    rcases hstep.creating hr with hnew | ⟨hne, hold⟩
    · exact .inl hnew
    · exact .inr ⟨hne, hs.own r address c hold⟩
  have hstored : Stored (fun _ c' => c' ≠ c) s := by
    rcases hbefore with ⟨rfl, -⟩ | ⟨-, hown⟩
    · exact hs.known.toStored.mono fun _ _ hlt => Nat.ne_of_lt hlt
    · exact hown.stored
  have hlisted : c ∉ s.main.listed := by
    rcases hbefore with ⟨rfl, -⟩ | ⟨-, hown⟩
    · exact fun hc => lt_irrefl _ (hs.listed _ hc)
    · exact hown.listed
  have hout : ¬ s.Out c := by
    rcases hbefore with ⟨rfl, -⟩ | ⟨-, hown⟩
    · exact fun hc => lt_irrefl _ (hs.out_lt _ hc)
    · exact hown.out
  refine ⟨?_, ?_, ?_, ?_⟩
  · intro r' address' hr'
    rcases hstep.creating hr' with ⟨hnew, ht⟩ | ⟨-, hold⟩
    · rcases hbefore with ⟨-, ht'⟩ | ⟨-, -⟩
      · rw [ht'] at ht
        exact (Thread.rx.inj ht).symm
      · rcases hstep.creating hr with ⟨-, ht'⟩ | ⟨-, hold⟩
        · rw [ht'] at ht
          exact (Thread.rx.inj ht).symm
        · exact absurd hnew (Nat.ne_of_lt (hknown r address hold))
    · rcases hbefore with ⟨rfl, -⟩ | ⟨-, hown⟩
      · exact absurd (hknown r' address' hold) (lt_irrefl _)
      · exact hown.alone r' address' hold
  · refine hstored.step (fun r' address' c' ht hold => ?_) hstep
    rintro rfl
    rcases hbefore with ⟨rfl, -⟩ | ⟨hne, hown⟩
    · exact absurd (hknown r' address' hold) (lt_irrefl _)
    · exact hne (by rw [ht, hown.alone r' address' hold])
  · intro hc
    rcases hstep.listed with hsub | ⟨-, now, hscan, -⟩
    · exact hlisted (hsub c hc)
    · rw [hscan] at hc
      exact mem_of_mem_listed hc hstored.table rfl
  · intro hc
    rcases hs.out_step hstep hc with hout' | ⟨-, rest, hpc⟩
    · exact hout hout'
    · exact hlisted (by rw [hpc]; exact List.mem_cons_self)

/-- A client that has been taken out of the table does not come back. -/
theorem Kept.out_stored (hs : Kept s) (hstep : Step crc cfg maxClients s t s') {c : ℕ}
    (hc : s'.Out c) : c < s.nextClient ∧ Stored (fun _ c' => c' ≠ c) s' := by
  rcases hs.out_step hstep hc with hout | ⟨rfl, rest, hpc⟩
  · refine ⟨hs.out_lt c hout, (hs.out c hout).step (fun r address c' _ hr => ?_) hstep⟩
    rintro rfl
    exact (hs.own r address _ hr).out hout
  · refine ⟨hs.listed c (by rw [hpc]; exact List.mem_cons_self), ?_⟩
    cases hstep with
    | main h =>
      cases h with
      | @clear client rest' freed del table hpc' hput =>
        rw [hpc] at hpc'
        cases hpc'
        exact stored_of_zero (hs.clear hpc hput) (by cases del <;> rfl)
      | scan now h => rw [hpc] at h; cases h
      | install h => rw [hpc] at h; cases h
      | move h => rw [hpc] at h; cases h
      | moved h => rw [hpc] at h; cases h
      | deallocate h => rw [hpc] at h; cases h

theorem Kept.nodup_step (hs : Kept s) (hstep : Step crc cfg maxClients s t s') :
    s'.main.listed.Nodup ∧ (∀ c ∈ s'.main.listed, c ∉ s'.freed) ∧ s'.freed.Nodup := by
  rcases hs.freed_step hstep with ⟨hfreed, hlisted | hidle⟩ | ⟨client, hlisted, hfreed⟩
  · rw [hlisted, hfreed]
    exact ⟨hs.nodup, hs.notFreed, hs.freed⟩
  · rw [hfreed]
    rcases hstep.listed with hsub | ⟨-, now, hscan, -, -⟩
    · have hnil : s'.main.listed = [] := by
        rw [List.eq_nil_iff_forall_not_mem]
        intro c hc
        have := hsub c hc
        rw [hidle] at this
        exact List.not_mem_nil this
      rw [hnil]
      exact ⟨List.nodup_nil, fun c hc => absurd hc List.not_mem_nil, hs.freed⟩
    · have hprobing : s.table.Probing := hs.probing_of_main hidle (by simp)
      rw [hscan]
      refine ⟨hs.nodup_filterMap hprobing (fun i c hi => ?_) _, fun c hc hcf => ?_, hs.freed⟩
      · split_ifs at hi with hused
        exact ⟨hused, (Option.filter_eq_some_iff.mp hi).1⟩
      · exact mem_of_mem_listed hc (hs.out c (.inl hcf)).table rfl
  · have hnodup := hs.nodup
    rw [hlisted, List.nodup_cons] at hnodup
    have hnot : client ∉ s.freed := hs.notFreed client (by rw [hlisted]; exact List.mem_cons_self)
    rw [hfreed]
    refine ⟨hnodup.2, fun c hc hcf => ?_, ?_⟩
    · rcases List.mem_append.mp hcf with hcf | hcf
      · exact hs.notFreed c (by rw [hlisted]; exact List.mem_cons_of_mem _ hc) hcf
      · rw [List.mem_singleton.mp hcf] at hc
        exact hnodup.1 hc
    · rw [List.nodup_append]
      refine ⟨hs.freed, List.nodup_singleton _, fun c hc c' hc' => ?_⟩
      rw [List.mem_singleton.mp hc']
      rintro rfl
      exact hnot hc

theorem Kept.ended_step (hs : Kept s) (hstep : Step crc cfg maxClients s t s') {c : ℕ}
    (hc : c ∈ s'.main.listed ∨ c ∈ s'.freed) : Ended (s'.clients c) := by
  have hold : c ∈ s.main.listed ∨ c ∈ s.freed → Ended (s'.clients c) := by
    intro h
    have hlt : c < s.nextClient := h.elim (hs.listed c) fun hcf => hs.out_lt c (.inl hcf)
    exact hstep.ended hlt (hs.ended c h)
  rcases hc with hc | hc
  · rcases hstep.listed with hsub | ⟨-, now, hscan, -, hclients⟩
    · exact hold (.inl (hsub c hc))
    · rw [hscan] at hc
      rw [hclients]
      exact ended_of_mem_clientToRemove hc
  · rcases hs.freed_step hstep with ⟨hfreed, -⟩ | ⟨client, hlisted, hfreed⟩
    · exact hold (.inr (hfreed ▸ hc))
    · rw [hfreed] at hc
      rcases List.mem_append.mp hc with hc | hc
      · exact hold (.inr hc)
      · rw [List.mem_singleton.mp hc] at hold ⊢
        exact hold (.inl (by rw [hlisted]; exact List.mem_cons_self))

theorem Kept.step (hs : Kept s) (hstep : Step crc cfg maxClients s t s') : Kept s' := by
  obtain ⟨hnodup, hnotFreed, hfreed⟩ := hs.nodup_step hstep
  exact { hs.toBase.step hstep with
    own := fun r address c hr => hs.own_step hstep hr
    out_lt := fun c hc => lt_of_lt_of_le (hs.out_stored hstep hc).1 hstep.nextClient_le
    out := fun c hc => (hs.out_stored hstep hc).2
    nodup := hnodup, notFreed := hnotFreed, freed := hfreed
    ended := fun c hc => hs.ended_step hstep hc }

theorem kept_of_reachBy {Q : State ρ η → Thread ρ η → Prop}
    (hs : ReachBy Initial (Step crc cfg maxClients) Q s) : Kept s := by
  refine hs.invariant (fun _ h => h.kept) ?_
  intro s t s' h _ hstep
  exact h.step hstep

theorem Runs.kept (hs : Runs crc cfg maxClients s) : Kept s := by
  refine hs.invariant (fun _ h => h.toInitial.kept) ?_
  intro s t s' h _ hstep
  exact h.step hstep

/-! ## The files of the clients -/

/-- `fclose` has been called on the file of a client whose transfer has ended, once, and
`end_time` is set. -/
def FileKept (client : Client) : Prop :=
  client.outFile.closes = (if client.active then 0 else 1) ∧
    client.endTime.isSome = !client.active

theorem FileKept.handleRequest {client : Client} (h : FileKept client) (env : Env)
    (decoded : Packet) (datagrams : List Datagram) :
    FileKept (handleRequest crc cfg env client decoded datagrams).client := by
  obtain ⟨-, ⟨hactive, htime, hcloses⟩ | ⟨hbefore, hactive, htime, hcloses⟩⟩ :=
    handleRequest_ending crc cfg env client decoded datagrams
  · rw [FileKept, hactive, htime, hcloses]
    exact h
  · rw [FileKept, hactive, htime, hcloses, h.1, hbefore]
    exact ⟨rfl, rfl⟩

/-- `deallocate_client` closes the file if this has not been done yet. -/
theorem FileKept.deallocateClient {client : Client} (h : FileKept client) :
    (deallocateClient client).outFile.closes = 1 := by
  unfold Trtp.deallocateClient
  split_ifs with hactive
  · show client.outFile.closes + 1 = 1
    rw [h.1, if_pos hactive]
  · rw [h.1, if_neg hactive]

theorem Kept.fileKept_step (hs : Kept s) (hstep : Step crc cfg maxClients s t s')
    (h : ∀ c < s.nextClient, FileKept (s.clients c)) :
    ∀ c < s'.nextClient, FileKept (s'.clients c) := by
  refine hstep.clients (P := fun _ client => FileKept client) (fun _ => ⟨rfl, rfl⟩) ?_ h
  intro c client hclient hcs
  cases hcs with
  | same => exact hclient
  | served env decoded datagrams => exact hclient.handleRequest env decoded datagrams
  | late outFile hcloses => exact ⟨hcloses.trans hclient.1, hclient.2⟩
  | deallocated hlisted =>
    -- the main thread lists no client whose file is open
    rwa [deallocateClient_of_inactive (hs.ended c (.inl hlisted)).1]

theorem Runs.fileKept (hs : Runs crc cfg maxClients s) :
    ∀ c < s.nextClient, FileKept (s.clients c) := by
  refine (hs.invariant
    (I := fun s => Kept s ∧ ∀ c < s.nextClient, FileKept (s.clients c)) ?_ ?_).2
  · refine fun s h => ⟨h.toInitial.kept, fun c hc => ?_⟩
    rw [h.nextClient] at hc
    exact absurd hc (Nat.not_lt_zero c)
  · intro s t s' h _ hstep
    exact ⟨h.1.step hstep, h.1.fileKept_step hstep h.2⟩

/-- In every run, `fclose` has been called once on the file of a client whose transfer has ended,
and not at all before.  So it is called once by the time the client has been deallocated,
whether by the main thread or with what is left in the table. -/
theorem files_closed_once (crc : Crc) (cfg : HdCfg) (maxClients : ℕ) (s : State ρ η)
    (hs : Runs crc cfg maxClients s) {c : ℕ} (hc : c < s.nextClient) :
    (s.clients c).outFile.closes = (if (s.clients c).active then 0 else 1) ∧
      (s.clients c).endTime.isSome = (!(s.clients c).active) ∧
      (c ∈ s.freed → (s.clients c).outFile.closes = 1) ∧
      (deallocateClient (s.clients c)).outFile.closes = 1 := by
  have hfile := hs.fileKept c hc
  refine ⟨hfile.1, hfile.2, fun hfreed => ?_, hfile.deallocateClient⟩
  rw [hfile.1, (hs.kept.ended c (.inr hfreed)).1]
  rfl

theorem files_closed_once_twoClients : ∃ s : State Unit Unit,
    (s.clients 0).active = true ∧ (s.clients 0).outFile.closes = 0 ∧
      (deallocateClient (s.clients 0)).outFile.closes = 1 := by
  obtain ⟨s, hs, hnext, hactive⟩ := twoClients_reached
  obtain ⟨hcloses, -, -, hdealloc⟩ := files_closed_once bitwiseCrc ⟨31⟩ 2 s hs (c := 0) (by omega)
  rw [hactive] at hcloses
  exact ⟨s, hactive, hcloses, hdealloc⟩

/-! ## No client is deallocated twice -/

/-- `dealloc_ht`: the clients it deallocates. -/
def deallocHt (table : Ht ℕ) : List ℕ := Ht.deallocItems table.size table.items

/-- `ht_remove` rebuilds the table, which it does without the lock. -/
def MainPc.Rebuilding : MainPc → Prop
  | .reaping .cleared _ _ => True
  | .reaping (.moving _ _ _) _ _ => True
  | _ => False

/-- No receiver puts a client into the table while this is being rebuilt. -/
def NoPut (s : State ρ η) (t : Thread ρ η) : Prop :=
  ∀ r address client, t = .rx r → s.rx r = .creating address client → ¬ s.main.Rebuilding

/-- As long as no `ht_put` meets a rebuild, also where a request outlives its client: no client
is deallocated twice, not even when `deallocate_everything` deallocates those that are left in the
table; the main thread deallocates only clients whose transfer has ended; and no slot, used or
not, has a client that has been deallocated, so that `ht_get` cannot return one. -/
theorem clients_deallocated_once (crc : Crc) (cfg : HdCfg) (maxClients : ℕ) (s : State ρ η)
    (hs : ReachBy Initial (Step crc cfg maxClients) NoPut s) :
    s.freed.Nodup ∧ (s.main = .idle → (s.freed ++ deallocHt s.table).Nodup) ∧
      (∀ c ∈ s.freed, (s.clients c).active = false ∧ (s.clients c).endTime.isSome = true) ∧
      ∀ i c, (s.table.items i).value = some c → c ∉ s.freed := by
  have hkept := kept_of_reachBy hs
  have hvalues : ∀ i c, (s.table.items i).value = some c →
      (s.table.items i).used = true ∧ (s.table.items i).value = some c := by
    intro i c hvalue
    refine ⟨?_, hvalue⟩
    rw [hkept.tidy i, hvalue]
    rfl
  have hfreed : ∀ i c, (s.table.items i).value = some c → c ∉ s.freed := by
    intro i c hvalue hc
    have hslot := Ht.slots_eq_some.mpr ⟨(hvalues i c hvalue).1, rfl⟩
    exact (hkept.out c (.inl hc)).table i _ c hslot hvalue rfl
  refine ⟨hkept.freed, fun hidle => ?_, fun c hc => hkept.ended c (.inr hc), hfreed⟩
  have hprobing : s.table.Probing := hkept.probing_of_main hidle (by simp)
  rw [List.nodup_append]
  refine ⟨hkept.freed, hkept.nodup_filterMap hprobing hvalues _, fun c hc c' hc' => ?_⟩
  rintro rfl
  obtain ⟨i, -, hi⟩ := List.mem_filterMap.mp hc'
  exact hfreed i c hi hc

/-- The main thread deallocates a client while a receiver collects datagrams for it. -/
theorem clients_deallocated_once_reaped :
    (reaped (.holding (newRequest 0))).freed = [0] ∧
      ((reaped (.holding (newRequest 0))).clients 0).active = false := by
  refine ⟨rfl, ((clients_deallocated_once bitwiseCrc ⟨31⟩ 1 (reaped (.holding (newRequest 0)))
    ?_).2.2.1 0 (List.mem_singleton_self 0)).1⟩
  have hidle : ∀ s : State Unit Unit, s.main = .idle → NoPut s (.rx ()) := by
    rintro s hmain r address client - -
    rw [hmain]
    exact id
  have hmain : ∀ s : State Unit Unit, NoPut s .main := by
    rintro s r address client h
    cases h
  have hfound : Reached NoPut (transferred (.holding (newRequest 0))) := by
    have := ReachBy.step (transferred_reached hidle fun s r address client h => by cases h)
      (hidle _ rfl) (.rx (.found (r := ()) rfl (rfl : registered.get localhost = some (some 0))))
    rwa [rxGoto_transferred] at this
  exact reaped_reached (fun _ _ => hmain _) rfl (transferred_address _) (transferred_active _) rfl
    (clientToRemove_transferred _) hfound

end Threads

end Trtp
