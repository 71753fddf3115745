import Trtp.HashTable.Refinement

/-!
# Tables written by several threads

What is left of the invariants of the table when receivers put clients into it while the
main thread rebuilds it.  The number of entries is not known then, and neither is which
clients are there.  But a key that is in the table is found (`Probing`), since only the
clearing of a slot breaks this and the rebuild makes it good; and `dealloc_items` never
finds a client to deallocate (`Tidy`).
-/

namespace Trtp.Ht

open Lib

variable {α : Type} {table : Ht α} {key : Address}

/-! ## Searches -/

theorem probing_fresh {size : ℕ} (hsize : 0 < size) : Probing (fresh size : Ht α) :=
  (fresh_refines hsize).probing

theorem Probing.store (h : Probing table) {index : UInt16} (hsearch : table.search key = some index)
    (client : α) (old : Option α) : Probing (table.store index.toNat key (some client) old) := by
  by_cases hkey : ∃ i, table.slots i = some key
  · obtain ⟨i, hi⟩ := hkey
    obtain ⟨index', hsearch', rfl⟩ := h.search_of_slot hi
    rw [hsearch, Option.some.injEq] at hsearch'
    subst hsearch'
    have hslots : (table.store index.toNat key (some client) old).slots = table.slots := by
      rw [slots_store, Option.map_some, Function.update_eq_self_iff.mpr hi.symm]
    exact ⟨h.size_pos, by rw [hslots]; exact h.distinct, by rw [hslots]; exact h.noGap⟩
  · have habsent : ∀ i, table.slots i ≠ some key := fun i hi => hkey ⟨i, hi⟩
    have hnone : table.slots index.toNat = none :=
      (searchFrom_stops hsearch).resolve_right (habsent _)
    have hlt : index.toNat < table.reach := by
      refine searchFrom_lt ?_ hsearch
      rw [hash_toNat]
      exact home_lt h.size_pos key
    obtain ⟨d, hd, hprobe, -, hbetween⟩ := probe_absent ⟨_, hlt, hnone⟩ (Nat.min_le_left _ _)
      (home_lt h.size_pos key) habsent
    rw [← search_eq_probe h.size_pos key, hsearch, Option.map_some, Option.some.injEq] at hprobe
    refine ⟨h.size_pos, ?_, ?_⟩
    · rw [slots_store]
      apply h.distinct.update
      intro j _ k hk
      rw [Option.map_some, Option.some.injEq] at hk
      rw [← hk]
      exact habsent j
    · rw [slots_store, Option.map_some, hprobe]
      exact h.noGap.insert hd hbetween

theorem Probing.clear (h : Probing table) {index : UInt16} (hsearch : table.search key = some index)
    (old : Option α) (i : ℕ) : (table.store index.toNat key none old).slots i ≠ some key := by
  intro hi
  rw [slots_store] at hi
  by_cases hindex : i = index.toNat
  · rw [hindex, Function.update_self] at hi
    cases hi
  · rw [Function.update_of_ne hindex] at hi
    obtain ⟨index', hsearch', rfl⟩ := h.search_of_slot hi
    rw [hsearch, Option.some.injEq] at hsearch'
    exact hindex (congrArg UInt16.toNat hsearch'.symm)

/-! ## Slots that are not in use -/

/-- A slot that is not in use has no client. -/
def Tidy (items : ℕ → Item α) : Prop := ∀ i, (items i).used = (items i).value.isSome

theorem Tidy.store (h : Tidy table.items) (i : ℕ) (item old : Option α) :
    Tidy (table.store i key item old).items := by
  intro j
  by_cases hj : j = i
  · subst hj
    simp [Ht.store]
  · rw [items_store_of_ne _ _ _ _ hj]
    exact h j

theorem Tidy.deallocItems {items : ℕ → Item α} (h : Tidy items) (len : ℕ) :
    deallocItems len (leftOver items) = [] := by
  rw [Ht.deallocItems, List.filterMap_eq_nil_iff]
  intro i _
  have hi := h i
  unfold leftOver
  split_ifs with hused
  · rfl
  · simpa [hused] using hi

/-! ## What `ht_resize` and `ht_put` keep -/

theorem tidy_fresh (size : ℕ) : Tidy (fresh size : Ht α).items := fun _ => rfl

theorem Tidy.rehash {oldValues : ℕ → Item α} {new new' : Ht α} {i : ℕ} (h : Tidy new.items)
    (hstep : rehash oldValues new i = some new') : Tidy new'.items :=
  rehash_induct (I := fun t => Tidy t.items) (fun _ _ _ _ => h.store _ _ _) h hstep

theorem Tidy.grow (h : Tidy table.items) {freed : List α} {new : Ht α}
    (hgrow : table.grow = some (freed, new)) : Tidy new.items ∧ freed = [] := by
  refine ⟨grow_induct (I := fun t => Tidy t.items) h (tidy_fresh _)
    (fun _ _ _ _ hnew _ _ => hnew.store _ _ _) hgrow, ?_⟩
  unfold Ht.grow at hgrow
  split_ifs at hgrow
  · obtain ⟨moved, -, hmoved⟩ := Option.bind_eq_some_iff.mp hgrow
    cases hmoved
    exact h.deallocItems _
  · cases hgrow
    rfl

theorem Tidy.put (h : Tidy table.items) {item old : Option α} {freed : List α} {table' : Ht α}
    (hput : table.put key item = some (old, freed, table')) : Tidy table'.items ∧ freed = [] := by
  obtain ⟨new, index, hgrow, -, -, rfl⟩ := put_cases hput
  exact ⟨(h.grow hgrow).1.store _ _ _, (h.grow hgrow).2⟩

theorem put_size_pos (hsize : 0 < table.size) {item old : Option α} {freed : List α}
    {table' : Ht α} (hput : table.put key item = some (old, freed, table')) : 0 < table'.size := by
  obtain ⟨new, index, hgrow, -, -, rfl⟩ := put_cases hput
  show 0 < new.size
  exact grow_induct (I := fun t => 0 < t.size) hsize (Nat.mul_pos hsize Nat.two_pos)
    (fun _ _ _ _ hnew _ _ => hnew) hgrow

theorem Probing.rehash {oldValues : ℕ → Item α} {new new' : Ht α} {i : ℕ} (h : Probing new)
    (hold : Tidy oldValues) (hstep : rehash oldValues new i = some new') : Probing new' := by
  refine rehash_induct (fun index old hused hsearch => ?_) h hstep
  rw [hold i] at hused
  obtain ⟨client, hvalue⟩ := Option.isSome_iff_exists.mp hused
  rw [hvalue]
  exact h.store hsearch client old

theorem Probing.grow (h : Probing table) (htidy : Tidy table.items) {freed : List α} {new : Ht α}
    (hgrow : table.grow = some (freed, new)) : Probing new := by
  have hsize := h.size_pos
  refine grow_induct h (probing_fresh (by omega)) ?_ hgrow
  intro new i index old hnew hused hsearch
  rw [htidy i] at hused
  obtain ⟨client, hvalue⟩ := Option.isSome_iff_exists.mp hused
  rw [hvalue]
  exact hnew.store hsearch client old

theorem Probing.put (h : Probing table) (htidy : Tidy table.items) {client : α} {old : Option α}
    {freed : List α} {table' : Ht α}
    (hput : table.put key (some client) = some (old, freed, table')) : Probing table' := by
  obtain ⟨new, index, hgrow, hsearch, -, rfl⟩ := put_cases hput
  exact (h.grow htidy hgrow).store hsearch client old

theorem Probing.put_absent (h : Probing table) (htidy : Tidy table.items) {freed : List α}
    {table' : Ht α} (hput : table.put key none = some (none, freed, table')) : Probing table' := by
  obtain ⟨new, index, hgrow, -, hold, rfl⟩ := put_cases hput
  have hnew := h.grow htidy hgrow
  have hnone : new.slots index.toNat = none := by
    have hused := (htidy.grow hgrow).1 index.toNat
    rw [slots_eq_none]
    split_ifs at hold with h
    · rwa [← hold] at hused
    · simpa using h
  have hslots : (new.store index.toNat key none none).slots = new.slots := by
    rw [slots_store, Option.map_none, Function.update_eq_self_iff.mpr hnone.symm]
  exact ⟨hnew.size_pos, by rw [hslots]; exact hnew.distinct, by rw [hslots]; exact hnew.noGap⟩

theorem Probing.put_null (h : Probing table) (htidy : Tidy table.items) {old : Option α}
    {freed : List α} {table' : Ht α} (hput : table.put key none = some (old, freed, table'))
    (i : ℕ) : table'.slots i ≠ some key := by
  obtain ⟨new, index, hgrow, hsearch, -, rfl⟩ := put_cases hput
  exact (h.grow htidy hgrow).clear hsearch old i

end Trtp.Ht
