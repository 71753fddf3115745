import Trtp.HashTable.Removal
import Trtp.Lib.Runs
import Trtp.Lib.Tally

/-!
# Admission by several receivers

`ht_get`, the locked capacity check with the creation of the client, and `ht_put` are
three critical sections of `rx_run_once`.  Between the second and the third a client
exists that is neither counted nor found: another receiver can pass the check that it
should fail, or create a second client for the same address, whose `ht_put` then replaces
the first.

`CheckSafe` is what the check would have to see.  While every check is safe, the table
stays within `max_clients` and no client is replaced.
-/

namespace Trtp.Admission

open Lib

/-- Where a receiver is with the datagram of an address. -/
inductive Pc where
  | idle
  /-- `ht_get` returned NULL. -/
  | unknown (address : Address)
  /-- The client has been initialized and the lock released. -/
  | creating (address : Address) (client : ℕ)
  deriving DecidableEq

def Pc.isCreating : Pc → Bool
  | .creating _ _ => true
  | _ => false

/-- What a call of `ht_put` registered, and what it returned. -/
structure Put where
  address : Address
  client : ℕ
  old : Option ℕ

/-- The client table and the receivers `τ`.  `locked` says that a receiver has left the
lock of the table taken.  `puts` are the calls of `ht_put` made so far; they are not in the
code. -/
structure State (τ : Type) where
  table : Ht ℕ
  locked : Bool
  nextClient : ℕ
  pc : τ → Pc
  puts : List Put

variable {τ : Type} [DecidableEq τ]

def State.goto (s : State τ) (t : τ) (pc : Pc) : State τ :=
  { s with pc := Function.update s.pc t pc }

/-- One critical section of receiver `t`. -/
inductive Step (maxClients : ℕ) (s : State τ) (t : τ) : State τ → Prop
  | known {address : Address} {client : ℕ} (hlock : s.locked = false) (h : s.pc t = .idle)
      (hget : s.table.get address = some (some client)) : Step maxClients s t s
  | unknown {address : Address} (hlock : s.locked = false) (h : s.pc t = .idle)
      (hget : s.table.get address = some none) :
    Step maxClients s t (s.goto t (.unknown address))
  | refuse {address : Address} (hlock : s.locked = false) (h : s.pc t = .unknown address)
      (hfull : s.table.length ≥ maxClients) : Step maxClients s t (s.goto t .idle)
  -- `calloc` or `initialize_client` fails and the lock is not released
  | fail {address : Address} (hlock : s.locked = false) (h : s.pc t = .unknown address)
      (hroom : s.table.length < maxClients) :
    Step maxClients s t { s.goto t .idle with locked := true }
  | create {address : Address} (hlock : s.locked = false) (h : s.pc t = .unknown address)
      (hroom : s.table.length < maxClients) :
    Step maxClients s t
      { s.goto t (.creating address s.nextClient) with nextClient := s.nextClient + 1 }
  | put {address : Address} {client : ℕ} {old : Option ℕ} {freed : List ℕ} {table : Ht ℕ}
      (hlock : s.locked = false) (h : s.pc t = .creating address client)
      (hput : s.table.put address (some client) = some (old, freed, table)) :
    Step maxClients s t
      { s.goto t .idle with table := table, puts := s.puts ++ [⟨address, client, old⟩] }

/-- Every receiver is outside of `rx_run_once` and the table is within the limit. -/
structure Initial (maxClients : ℕ) (s : State τ) : Prop where
  table : ∃ m, Ht.ReachableTable s.table m
  length_le : s.table.length ≤ maxClients
  unlocked : s.locked = false
  idle : ∀ t, s.pc t = .idle
  puts : s.puts = []

structure Safe (maxClients : ℕ) (s : State τ) : Prop where
  length_le : s.table.length ≤ maxClients
  fresh : ∀ p ∈ s.puts, p.old = none

variable [Fintype τ]

/-- The capacity check of receiver `t`, where it passes: there is room also for the clients
that other receivers are creating, and the address is still unknown and none of them is
creating a client for it. -/
def CheckSafe (maxClients : ℕ) (s : State τ) (t : τ) : Prop :=
  ∀ address, s.pc t = .unknown address → s.table.length < maxClients →
    s.table.length + tally Pc.isCreating s.pc < maxClients ∧ s.table.get address = some none ∧
      ∀ u client, s.pc u ≠ .creating address client

/-! ## What the checks keep -/

/-- `m` are the clients of the table. -/
structure Inv (maxClients : ℕ) (s : State τ) (m : Ht.Map ℕ) : Prop where
  loaded : Ht.Loaded s.table m
  room : s.table.length + tally Pc.isCreating s.pc ≤ maxClients
  unknown : ∀ t address client, s.pc t = .creating address client → m.lookup address = none
  distinct : ∀ t u address client client', s.pc t = .creating address client →
    s.pc u = .creating address client' → t = u
  fresh : ∀ p ∈ s.puts, p.old = none

variable {maxClients : ℕ} {s s' : State τ} {t : τ} {m : Ht.Map ℕ}

omit [DecidableEq τ] in
theorem Inv.safe (h : Inv maxClients s m) : Safe maxClients s := by
  have hnonneg := tally_nonneg Pc.isCreating s.pc
  have hroom := h.room
  exact ⟨by omega, h.fresh⟩

omit [DecidableEq τ] in
theorem Initial.inv (h : Initial maxClients s) : ∃ m, Inv maxClients s m := by
  obtain ⟨m, hm⟩ := h.table
  have hzero : tally Pc.isCreating s.pc = 0 :=
    tally_eq_zero fun u => by rw [h.idle u]; rfl
  have hle := h.length_le
  refine ⟨m, hm.loaded.1, by omega, ?_, ?_, ?_⟩
  · intro u address client hu
    rw [h.idle u] at hu
    cases hu
  · intro u _ address client _ hu
    rw [h.idle u] at hu
    cases hu
  · rw [h.puts]
    exact fun p hp => absurd hp List.not_mem_nil

omit [Fintype τ] in
/-- A receiver that creates a client after a step of `t` is `t`, or did so before it. -/
theorem creating_of_goto {u : τ} {pc : Pc} {address : Address} {client : ℕ}
    (hu : (s.goto t pc).pc u = .creating address client) :
    (u = t ∧ pc = .creating address client) ∨ (u ≠ t ∧ s.pc u = .creating address client) := by
  by_cases hut : u = t
  · subst hut
    exact .inl ⟨rfl, by simpa [State.goto] using hu⟩
  · exact .inr ⟨hut, by simpa [State.goto, hut] using hu⟩

theorem Inv.goto (h : Inv maxClients s m) {pc : Pc} (hpc : pc.isCreating = false) :
    Inv maxClients (s.goto t pc) m := by
  have hkept : ∀ u address client, (s.goto t pc).pc u = .creating address client →
      s.pc u = .creating address client := by
    intro u address client hu
    rcases creating_of_goto hu with ⟨-, rfl⟩ | ⟨-, hold⟩
    · cases hpc
    · exact hold
  refine ⟨h.loaded, ?_, fun u address client hu => h.unknown u _ _ (hkept u _ _ hu),
    fun u v address client client' hu hv => h.distinct u v _ _ _ (hkept u _ _ hu) (hkept v _ _ hv),
    h.fresh⟩
  have hroom := h.room
  have htally := tally_update Pc.isCreating s.pc t pc
  have hnonneg := toInt_nonneg (s.pc t).isCreating
  rw [hpc] at htally
  simp only [State.goto, Bool.toInt_false] at htally ⊢
  omega

theorem Inv.create (h : Inv maxClients s m) {address : Address} {client n : ℕ}
    (hpc : s.pc t = .unknown address)
    (hroom : s.table.length + tally Pc.isCreating s.pc < maxClients)
    (hget : s.table.get address = some none)
    (halone : ∀ u client, s.pc u ≠ .creating address client) :
    Inv maxClients { s.goto t (.creating address client) with nextClient := n } m := by
  have hlookup : m.lookup address = none := (h.loaded.lookup_of_get hget).1
  refine ⟨h.loaded, ?_, ?_, ?_, h.fresh⟩
  · have htally := tally_update Pc.isCreating s.pc t (.creating address client)
    rw [hpc] at htally
    simp only [State.goto, Pc.isCreating, Bool.toInt_false, Bool.toInt_true] at htally ⊢
    omega
  · intro u a c hu
    rcases creating_of_goto hu with ⟨-, heq⟩ | ⟨-, hold⟩
    · cases heq
      exact hlookup
    · exact h.unknown u a c hold
  · intro u v a c c' hu hv
    rcases creating_of_goto hu with ⟨rfl, heq⟩ | ⟨-, hold⟩ <;>
      rcases creating_of_goto hv with ⟨rfl, heq'⟩ | ⟨-, hold'⟩
    · rfl
    · cases heq
      exact absurd hold' (halone v c')
    · cases heq'
      exact absurd hold (halone u c)
    · exact h.distinct u v a c c' hold hold'

theorem Inv.put (h : Inv maxClients s m) (hmax : maxClients ≤ 65535) {address : Address}
    {client : ℕ} {old : Option ℕ} {freed : List ℕ} {table : Ht ℕ}
    (hpc : s.pc t = .creating address client)
    (hput : s.table.put address (some client) = some (old, freed, table)) :
    Inv maxClients
      { s.goto t .idle with table := table, puts := s.puts ++ [⟨address, client, old⟩] }
      (m.insert address client) := by
  have hlookup := h.unknown t address client hpc
  have hroom := h.room
  have hpos : 0 < tally Pc.isCreating s.pc := tally_pos (i := t) (by rw [hpc]; rfl)
  have hlength := h.loaded.length_eq
  obtain ⟨table', hput', -, -, -, hloaded⟩ := h.loaded.put (by omega) address (some client)
  rw [hput, Option.some.injEq, Prod.mk.injEq, Prod.mk.injEq] at hput'
  obtain ⟨rfl, -, rfl⟩ := hput'
  have hloaded := hloaded (.inl hlookup)
  have hother : ∀ u a c, (s.goto t .idle).pc u = .creating a c →
      u ≠ t ∧ s.pc u = .creating a c := by
    intro u a c hu
    rcases creating_of_goto hu with ⟨-, heq⟩ | hold
    · cases heq
    · exact hold
  refine ⟨hloaded, ?_, ?_, ?_, ?_⟩
  · have htally := tally_update Pc.isCreating s.pc t .idle
    have hcard := hloaded.length_eq
    have hle := Ht.card_write_le m address (some client)
    rw [hpc] at htally
    simp only [State.goto, Pc.isCreating, Bool.toInt_false, Bool.toInt_true] at htally ⊢
    omega
  · intro u a c hu
    obtain ⟨hut, hold⟩ := hother u a c hu
    have hne : a ≠ address := by
      rintro rfl
      exact hut (h.distinct u t a c client hold hpc)
    rw [Finmap.lookup_insert_of_ne _ hne]
    exact h.unknown u a c hold
  · intro u v a c c' hu hv
    exact h.distinct u v a c c' (hother u a c hu).2 (hother v a c' hv).2
  · intro p hp
    rcases List.mem_append.mp hp with hp | hp
    · exact h.fresh p hp
    · rw [List.mem_singleton.mp hp]
      exact hlookup

theorem Inv.step (h : Inv maxClients s m) (hmax : maxClients ≤ 65535)
    (hsafe : CheckSafe maxClients s t) (hstep : Step maxClients s t s') :
    ∃ m', Inv maxClients s' m' := by
  cases hstep with
  | known => exact ⟨m, h⟩
  | unknown => exact ⟨m, h.goto rfl⟩
  | refuse => exact ⟨m, h.goto rfl⟩
  | fail =>
    have hidle : Inv maxClients (s.goto t .idle) m := h.goto rfl
    exact ⟨m, hidle.loaded, hidle.room, hidle.unknown, hidle.distinct, hidle.fresh⟩
  | create _ hpc hlt =>
    obtain ⟨hroom, hget, halone⟩ := hsafe _ hpc hlt
    exact ⟨m, h.create hpc hroom hget halone⟩
  | put _ hpc hput => exact ⟨_, h.put hmax hpc hput⟩

/-- While every capacity check that passes is safe, the table stays within `max_clients` and
no `ht_put` replaces a client.  `max_clients` is read as a `uint16_t`. -/
theorem admission_safe (maxClients : ℕ) (hmax : maxClients ≤ 65535) (s : State τ)
    (h : ReachBy (Initial maxClients) (Step maxClients) (CheckSafe maxClients) s) :
    Safe maxClients s := by
  obtain ⟨m, hm⟩ : ∃ m, Inv maxClients s m := by
    refine h.invariant (fun _ hs => hs.inv) ?_
    rintro s₁ t s₂ ⟨m, hm⟩ hsafe hstep
    exact hm.step hmax hsafe hstep
  exact hm.safe

/-! ## Two receivers -/

def afterPut (table : Ht ℕ) (address : Address) (client : ℕ) : Ht ℕ :=
  ((table.put address (some client)).map fun r => r.2.2).getD table

def waiting : State Bool :=
  { table := allocateHt, locked := false, nextClient := 0, pc := fun _ => .idle, puts := [] }

theorem waiting_initial (maxClients : ℕ) : Initial maxClients waiting :=
  ⟨⟨∅, [], [], [], Ht.Map.capped_of_length (by decide), rfl, rfl⟩, Nat.zero_le _, rfl,
    fun _ => rfl, rfl⟩

def bothUnknown (a b : Address) : State Bool :=
  (waiting.goto false (.unknown a)).goto true (.unknown b)

def oneCreating (a b : Address) : State Bool :=
  { (bothUnknown a b).goto false (.creating a 0) with nextClient := 1 }

def bothCreating (a b : Address) : State Bool :=
  { waiting with
    nextClient := 2
    pc := Function.update (Function.update (fun _ => .idle) false (.creating a 0)) true
      (.creating b 1) }

/-- The runs whose checks satisfy `Q`. -/
theorem bothCreating_reached {maxClients : ℕ} (hmax : 0 < maxClients) (a b : Address)
    {Q : State Bool → Bool → Prop}
    (hQ : ∀ s t, (∀ address, s.pc t ≠ .unknown address) → Q s t)
    (hfirst : Q (bothUnknown a b) false) (hsecond : Q (oneCreating a b) true) :
    ReachBy (Initial maxClients) (Step maxClients) Q (bothCreating a b) := by
  have hone : ReachBy (Initial maxClients) (Step maxClients) Q
      (waiting.goto false (.unknown a)) :=
    .step (.start (waiting_initial _)) (a := false) (hQ _ _ fun _ => Pc.noConfusion)
      (.unknown rfl rfl rfl)
  have hboth : ReachBy (Initial maxClients) (Step maxClients) Q (bothUnknown a b) :=
    .step hone (a := true) (hQ _ _ fun _ => Pc.noConfusion) (.unknown rfl rfl rfl)
  have hcreate : ReachBy (Initial maxClients) (Step maxClients) Q (oneCreating a b) :=
    .step hboth (a := false) hfirst (.create rfl (rfl : _ = Pc.unknown a) hmax)
  have hlast := ReachBy.step hcreate (a := true) hsecond
    (.create rfl (rfl : _ = Pc.unknown b) hmax)
  convert hlast using 1
  simp only [State.goto, bothCreating, oneCreating, bothUnknown, waiting, State.mk.injEq, true_and,
    and_true]
  funext u
  cases u <;> rfl

def bothPut (a b : Address) (old : Option ℕ) : State Bool :=
  { ((bothCreating a b).goto false .idle).goto true .idle with
    table := afterPut (afterPut allocateHt a 0) b 1
    puts := [⟨a, 0, none⟩, ⟨b, 1, old⟩] }

theorem bothPut_reached {maxClients : ℕ} {a b : Address} {old : Option ℕ}
    {Q : State Bool → Bool → Prop}
    (hQ : ∀ s t, (∀ address, s.pc t ≠ .unknown address) → Q s t)
    (h : ReachBy (Initial maxClients) (Step maxClients) Q (bothCreating a b))
    (ha : allocateHt.put a (some 0) = some (none, [], afterPut allocateHt a 0))
    (hb : (afterPut allocateHt a 0).put b (some 1) =
      some (old, [], afterPut (afterPut allocateHt a 0) b 1)) :
    ReachBy (Initial maxClients) (Step maxClients) Q (bothPut a b old) := by
  have hfirst := ReachBy.step h (a := false) (hQ _ _ fun _ => Pc.noConfusion)
    (.put rfl (rfl : _ = Pc.creating a 0) ha)
  exact .step hfirst (a := true) (hQ _ _ fun _ => Pc.noConfusion)
    (.put rfl (rfl : _ = Pc.creating b 1) hb)

/-- Both receivers look their addresses up, then both create a client, and both put it. -/
theorem admission_safe_both : (bothPut Ht.portOne Ht.portSeventeen none).table.length = 2 ∧
    Safe 2 (bothPut Ht.portOne Ht.portSeventeen none) := by
  refine ⟨by decide +kernel, admission_safe 2 (by decide) _ ?_⟩
  have hQ : ∀ (s : State Bool) t, (∀ address, s.pc t ≠ .unknown address) → CheckSafe 2 s t :=
    fun _ _ h address hpc => absurd hpc (h address)
  refine bothPut_reached hQ (bothCreating_reached Nat.two_pos _ _ hQ ?_ ?_) rfl rfl
  · intro address h _
    cases h
    refine ⟨by decide, rfl, ?_⟩
    intro u client hu
    cases u <;> cases hu
  · intro address h _
    cases h
    refine ⟨by decide, rfl, ?_⟩
    intro u client hu
    cases u with
    | false => exact absurd (Pc.creating.inj hu).1 (by decide)
    | true => cases hu

abbrev Reached (maxClients : ℕ) (s : State Bool) : Prop :=
  ReachBy (Initial maxClients) (Step maxClients) (fun _ _ => True) s

/-- Two addresses pass a check for one client, and two receivers create a client for one
address, the second of which replaces the first. -/
theorem admission_not_safe :
    (∃ s : State Bool, Reached 1 s ∧ s.table.length = 2) ∧
      ∃ s : State Bool, Reached 2 s ∧ ⟨Ht.portOne, 1, some 0⟩ ∈ s.puts := by
  have hboth : ∀ {maxClients : ℕ}, 0 < maxClients → ∀ a b,
      Reached maxClients (bothCreating a b) := fun hmax a b =>
    bothCreating_reached hmax a b (fun _ _ _ => trivial) trivial trivial
  constructor
  · exact ⟨bothPut Ht.portOne Ht.portSeventeen none,
      bothPut_reached (fun _ _ _ => trivial) (hboth Nat.one_pos _ _) rfl rfl, by decide +kernel⟩
  · exact ⟨bothPut Ht.portOne Ht.portOne (some 0),
      bothPut_reached (fun _ _ _ => trivial) (hboth Nat.two_pos _ _) rfl rfl,
      List.mem_cons_of_mem _ (List.mem_singleton_self _)⟩

end Trtp.Admission
