import Trtp.HashTable.Removal

/-!
# The loops of the table end

`ht_get` and `ht_put_nolock` walk through the table until they meet the key or a slot that
is not used, and nothing else bounds them.  What they can meet are the slots below
`reach`: the `uint16_t` index never gets past 65535, so a table of 131072 slots is walked
through as if it had 65536.  With at most 65535 entries one of these slots is free.

This is also so in the middle of `ht_resize`, where the loop runs on the table that is being
filled.
-/

namespace Trtp.Ht

open Lib

variable {α : Type} {table : Ht α} {m : Map α} {key : Address}

/-- The slot that the loop looks at in its round `d`. -/
def visit (table : Ht α) (key : Address) : ℕ → UInt16
  | 0 => table.hash key.port
  | d + 1 => .ofNat (((table.visit key d).toNat + 1) % table.size)

theorem visit_toNat (hsize : 0 < table.size) (key : Address) (d : ℕ) :
    (table.visit key d).toNat = (table.home key + d) % table.reach := by
  induction d with
  | zero =>
    rw [visit, hash_toNat, Nat.add_zero, Nat.mod_eq_of_lt (home_lt hsize key)]
    rfl
  | succ d ih =>
    have hlt : (table.visit key d).toNat < table.reach := by
      rw [ih]
      exact Nat.mod_lt _ (reach_pos hsize)
    rw [visit, next_toNat hlt, ih, Nat.mod_add_mod, Nat.add_assoc]

/-- The loops end on the table, for every key: they come by a slot that is not used, and the
search stops at the same slot however long it may go on. -/
structure LoopsEnd (table : Ht α) : Prop where
  free : ∀ key, ∃ d < table.reach, (table.items (table.visit key d).toNat).used = false
  stops : ∀ key, ∃ index, ∀ fuel, table.reach ≤ fuel →
    table.searchFrom key fuel (table.hash key.port) = some index

theorem Holds.loopsEnd (h : Holds table m) (hcard : m.keys.card < table.reach) :
    LoopsEnd table := by
  obtain ⟨j, hj, hnone⟩ := h.exists_free hcard
  refine ⟨fun key => ?_, fun key => ?_⟩
  · have hhome := home_lt h.size_pos key
    refine ⟨(table.reach + j - table.home key) % table.reach, Nat.mod_lt _ (by omega), ?_⟩
    have hvisit : (table.home key + (table.reach + j - table.home key) % table.reach) %
        table.reach = j := by
      rw [Nat.add_mod_mod, show table.home key + (table.reach + j - table.home key) =
        j + table.reach by omega, Nat.add_mod_right, Nat.mod_eq_of_lt hj]
    rw [visit_toNat h.size_pos, hvisit]
    exact slots_eq_none.mp hnone
  · obtain ⟨d, hd, hstop, hgo⟩ := exists_first_stop ⟨j, hj, hnone⟩ (home_lt h.size_pos key) key
    refine ⟨.ofNat ((table.home key + d) % table.reach), fun fuel hfuel => ?_⟩
    have hprobe := probe_of_stops (home_lt h.size_pos key) (lt_of_lt_of_le hd hfuel) hstop hgo
    have hhash : (table.hash key.port).toNat = table.home key := hash_toNat key.port
    rw [← hhash, ← searchFrom_eq_probe (by rw [hhash]; exact home_lt h.size_pos key)] at hprobe
    obtain ⟨index, hindex, heq⟩ := Option.map_eq_some_iff.mp hprobe
    rw [hindex, ← hhash, ← heq, UInt16.ofNat_toNat]

/-- The table that `ht_resize` is filling when it comes to slot `i` of the old array. -/
def rehashed (table : Ht α) (newSize i : ℕ) : Option (Ht α) :=
  (List.range i).foldlM (rehash table.items) (fresh newSize)

def ResizeEnds (table : Ht α) (newSize : ℕ) : Prop :=
  ∀ i ≤ table.size, ∃ new, table.rehashed newSize i = some new ∧ LoopsEnd new

theorem Holds.resizeEnds (h : Holds table m) {newSize : ℕ}
    (hcard : m.keys.card < min newSize 65536) : ResizeEnds table newSize := by
  intro i _
  obtain ⟨new, moved, hfold, hsize, hrefines, hmoved⟩ := h.rehash_range hcard i
  refine ⟨new, hfold, hrefines.loopsEnd ?_⟩
  rw [reach, hsize]
  exact lt_of_le_of_lt (h.moved_card hmoved) hcard

/-- The loops that the operations on a table run, each on the table it runs on. -/
structure OperationsEnd (table : Ht α) : Prop where
  -- ht_get, and ht_put and ht_remove where the table need not grow
  lookup : LoopsEnd table
  -- the growth in ht_put, which ht_remove calls too, and the insertion after it
  growth : table.length > table.size / 2 → ResizeEnds table (table.size * 2)
  grown : ∃ freed new, table.grow = some (freed, new) ∧ LoopsEnd new
  -- the rebuild in ht_remove
  rebuild : ∀ key, ∃ del freed new, table.put key none = some (del, freed, new) ∧
    ResizeEnds new new.size
  returns : ∀ op, ∃ result freed new, table.call op = some (result, freed, new)

theorem Loaded.operationsEnd (h : Loaded table m) (hcap : m.keys.card ≤ 65535) :
    OperationsEnd table where
  lookup := h.loopsEnd (h.card_lt hcap)
  growth _ := by
    have hlength := h.length_le
    have hsize := h.size_ge
    have hcard := h.length_eq
    exact h.resizeEnds (by omega)
  grown := by
    obtain ⟨new, hgrow, hrefines, hsize, hlength⟩ := h.grow hcap
    refine ⟨[], new, hgrow, hrefines.loopsEnd ?_⟩
    have := hrefines.length_eq
    unfold reach
    omega
  rebuild key := by
    obtain ⟨new, hput, hholds, hsize, hlength, -⟩ := h.put hcap key none
    refine ⟨_, _, new, hput, hholds.resizeEnds ?_⟩
    have hle : (write m key none).keys.card ≤ m.keys.card := card_erase_le m key
    have := hholds.length_eq
    omega
  returns op := by
    obtain ⟨new, hcall, -⟩ := h.call hcap op
    exact ⟨_, _, new, hcall⟩

/-- On every table reached with at most 65535 clients the loops of all operations end. -/
theorem loops_end (table : Ht α) (m : Map α) (h : ReachableTable table m) :
    OperationsEnd table := by
  obtain ⟨hloaded, hcap⟩ := h.loaded
  exact hloaded.operationsEnd hcap

theorem loops_end_collided : ReachableTable collided (Map.calls ∅ twoClients).2 ∧
    OperationsEnd collided :=
  ⟨collided_reachable, loops_end collided _ collided_reachable⟩

end Trtp.Ht
