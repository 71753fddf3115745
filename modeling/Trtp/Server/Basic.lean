import Trtp.Handler.Run
import Trtp.HashTable.Basic
import Trtp.Lib.Runs

/-!
# The reaper

The main thread looks for clients whose transfer has ended more than thirty seconds ago,
takes each out of the table with `ht_remove` and deallocates it.  The sequential and the
threaded mode of `src/main.c` have each their own copy of this code.  They compare the time
differently.

Times are nanoseconds of the monotonic clock.
-/

namespace Trtp

open Lib

def reapAfter : ℤ := 30 * 10 ^ 9

/-- `time_inactive`, of a client that has ended. -/
def Client.timeInactive (client : Client) (now : ℕ) : Option ℤ :=
  if client.active then none else client.endTime.map fun t => (now : ℤ) - t

/-- The loop over the slots that fills `client_to_remove`, with the comparison `expired`. -/
def clientToRemove (expired : ℤ → Bool) (table : Ht ℕ) (clients : ℕ → Client) (now : ℕ) : List ℕ :=
  (List.range table.size).filterMap fun i =>
    if (table.items i).used then
      (table.items i).value.filter fun c => ((clients c).timeInactive now).any expired
    else none

def expiredThreaded (timeInactive : ℤ) : Bool := timeInactive ≥ reapAfter

def expiredSequential (timeInactive : ℤ) : Bool := timeInactive > reapAfter

theorem mem_clientToRemove {expired : ℤ → Bool} {table : Ht ℕ} {clients : ℕ → Client} {now c : ℕ}
    (h : c ∈ clientToRemove expired table clients now) :
    ∃ i, (table.items i).used = true ∧ (table.items i).value = some c := by
  obtain ⟨i, -, hi⟩ := List.mem_filterMap.mp h
  split_ifs at hi with hused
  exact ⟨i, hused, (Option.filter_eq_some_iff.mp hi).1⟩

/-! ## The address of a client -/

section

variable {crc : Crc} {cfg : HdCfg}

theorem intake_address (env : Env) (s : Intake) (d : Datagram) :
    (intake crc cfg env s d).client.address = s.client.address := by
  unfold intake
  dsimp only
  split
  · rfl
  · split_ifs <;> rfl

theorem advance_address (env : Env) (client : Client) (outFile : File) (d : Drain) :
    (advance env client outFile d).address = client.address := by
  unfold advance
  dsimp only
  split_ifs <;> rfl

theorem handleRequest_address (env : Env) (client : Client) (decoded : Packet)
    (datagrams : List Datagram) :
    (handleRequest crc cfg env client decoded datagrams).client.address = client.address := by
  have hintake : ∀ s : Intake, (datagrams.foldl (intake crc cfg env) s).client.address =
      s.client.address := by
    intro s
    refine foldl_invariant (I := fun t : Intake => t.client.address = s.client.address) ?_ rfl
      datagrams
    intro t d ht
    rw [intake_address, ht]
  unfold handleRequest
  dsimp only
  split_ifs
  · unfold deliver
    dsimp only
    split_ifs
    · exact hintake _
    · exact (advance_address _ _ _ _).trans (hintake _)
  · exact hintake _

end

end Trtp
