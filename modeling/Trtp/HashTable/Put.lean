import Mathlib.Data.Finmap
import Trtp.HashTable.Basic
import Trtp.Lib.Probe

/-!
# The table against a finite map

`Holds` says which clients are in a table.  `Refines` adds that no free slot stands
between the home slot of a key and its slot, so that a search ends at the slot of the
key.  `putNolock` keeps both where it adds or replaces a client and only `Holds` where
it removes one.
-/

namespace Trtp.Ht

open Lib

variable {α : Type}

/-- The finite map that the table stands for. -/
abbrev Map (α : Type) : Type := Finmap fun _ : Address => α

/-- The number of slots that a 16 bit index reaches. -/
def reach (table : Ht α) : ℕ := min table.size 65536

def home (table : Ht α) (key : Address) : ℕ := key.port.toNat % table.reach

def slots (table : Ht α) (i : ℕ) : Option Address :=
  if (table.items i).used then some (table.items i).key else none

structure Holds (table : Ht α) (m : Map α) : Prop where
  size_pos : 0 < table.size
  used_iff : ∀ i, (table.items i).used = true ↔ (table.items i).value ≠ none
  used_lt : ∀ i, (table.items i).used = true → i < table.reach
  lookup_iff : ∀ key client, m.lookup key = some client ↔
    ∃ i, table.slots i = some key ∧ (table.items i).value = some client
  distinct : Distinct table.slots
  length_eq : table.length = m.keys.card

structure Refines (table : Ht α) (m : Map α) : Prop extends Holds table m where
  noGap : NoGap table.slots table.reach table.home

variable {table : Ht α} {m : Map α} {key : Address}

theorem slots_eq_some {i : ℕ} :
    table.slots i = some key ↔ (table.items i).used = true ∧ (table.items i).key = key := by
  unfold slots
  split <;> simp_all

theorem slots_eq_none {i : ℕ} : table.slots i = none ↔ (table.items i).used = false := by
  unfold slots
  split <;> simp_all

/-! ## The search -/

theorem hash_toNat (port : UInt16) :
    (table.hash port).toNat = port.toNat % table.reach := by
  have hport : port.toNat < 65536 := port.toNat_lt
  rw [hash, UInt16.toNat_ofNat', reach]
  rcases Nat.le_total table.size 65536 with hle | hge
  · rw [min_eq_left hle]
    rcases Nat.eq_zero_or_pos table.size with h0 | hpos
    · rw [h0, Nat.mod_zero, Nat.mod_eq_of_lt hport]
    · exact Nat.mod_eq_of_lt (lt_of_lt_of_le (Nat.mod_lt _ hpos) hle)
  · rw [min_eq_right hge, Nat.mod_eq_of_lt (lt_of_lt_of_le hport hge)]

theorem next_toNat {index : ℕ} (hindex : index < table.reach) :
    (UInt16.ofNat ((index + 1) % table.size)).toNat = (index + 1) % table.reach := by
  rw [UInt16.toNat_ofNat']
  unfold reach at hindex ⊢
  rcases Nat.le_total table.size 65536 with hle | hge
  · rw [min_eq_left hle] at hindex ⊢
    exact Nat.mod_eq_of_lt (lt_of_lt_of_le (Nat.mod_lt _ (by omega)) hle)
  · rw [min_eq_right hge] at hindex ⊢
    rcases Nat.lt_or_ge (index + 1) table.size with hlt | hwrap
    · rw [Nat.mod_eq_of_lt hlt]
    · have hsize : table.size = 65536 := by omega
      rw [hsize, Nat.mod_mod]

theorem searchFrom_eq_probe {fuel : ℕ} {index : UInt16} (hindex : index.toNat < table.reach) :
    (table.searchFrom key fuel index).map UInt16.toNat =
      probe table.slots table.reach key fuel index.toNat := by
  induction fuel generalizing index with
  | zero => rfl
  | succ fuel ih =>
    have hnext := next_toNat hindex
    unfold searchFrom probe
    by_cases hused : (table.items index.toNat).used = true
    · have hslot : table.slots index.toNat = some (table.items index.toNat).key :=
        slots_eq_some.mpr ⟨hused, rfl⟩
      rw [if_pos hused, hslot]
      by_cases hkey : (table.items index.toNat).key = key
      · have hsame : (table.items index.toNat).port = key.port ∧
            (table.items index.toNat).ip = key.ip := by
          rw [← hkey]
          exact ⟨rfl, rfl⟩
        rw [if_pos hsame]
        simp [hkey]
      · have hother : ¬ ((table.items index.toNat).port = key.port ∧
            (table.items index.toNat).ip = key.ip) := by
          intro h
          apply hkey
          simp [Item.key, h.1, h.2]
        rw [if_neg hother, ih (by rw [hnext]; exact Nat.mod_lt _ (by omega)), hnext]
        simp [hkey]
    · have hslot : table.slots index.toNat = none :=
        slots_eq_none.mpr (by simpa using hused)
      rw [if_neg hused, hslot]
      rfl

theorem reach_pos (hsize : 0 < table.size) : 0 < table.reach :=
  lt_min hsize (by decide)

theorem home_lt (hsize : 0 < table.size) (key : Address) : table.home key < table.reach :=
  Nat.mod_lt _ (reach_pos hsize)

theorem search_eq_probe (hsize : 0 < table.size) (key : Address) :
    (table.search key).map UInt16.toNat =
      probe table.slots table.reach key table.size (table.home key) := by
  have hhash : (table.hash key.port).toNat = table.home key := hash_toNat key.port
  rw [search, searchFrom_eq_probe (by rw [hhash]; exact home_lt hsize key), hhash]

theorem Holds.mem_iff (h : Holds table m) : key ∈ m ↔ ∃ i, table.slots i = some key := by
  constructor
  · intro hmem
    obtain ⟨client, hclient⟩ := Finmap.mem_iff.mp hmem
    obtain ⟨i, hi, -⟩ := (h.lookup_iff key client).mp hclient
    exact ⟨i, hi⟩
  · intro hex
    obtain ⟨i, hi⟩ := hex
    obtain ⟨client, hclient⟩ :=
      Option.ne_none_iff_exists'.mp ((h.used_iff i).mp (slots_eq_some.mp hi).1)
    exact Finmap.mem_of_lookup_eq_some ((h.lookup_iff key client).mpr ⟨i, hi, hclient⟩)

theorem Holds.lookup_of_slot (h : Holds table m) {i : ℕ} (hi : table.slots i = some key) :
    m.lookup key = (table.items i).value := by
  obtain ⟨client, hclient⟩ :=
    Option.ne_none_iff_exists'.mp ((h.used_iff i).mp (slots_eq_some.mp hi).1)
  rw [hclient]
  exact (h.lookup_iff key client).mpr ⟨i, hi, hclient⟩

theorem Holds.exists_free (h : Holds table m) (hcard : m.keys.card < table.reach) :
    ∃ j < table.reach, table.slots j = none := by
  refine Lib.exists_free h.distinct ?_ hcard
  intro i k hi
  exact Finmap.mem_keys.mpr (h.mem_iff.mpr ⟨i, hi⟩)

/-- A search finds every key of the table. -/
structure Probing (table : Ht α) : Prop where
  size_pos : 0 < table.size
  distinct : Distinct table.slots
  noGap : NoGap table.slots table.reach table.home

theorem Refines.probing (h : Refines table m) : Probing table :=
  ⟨h.size_pos, h.distinct, h.noGap⟩

theorem Probing.search_of_slot (h : Probing table) {i : ℕ} (hi : table.slots i = some key) :
    ∃ index, table.search key = some index ∧ index.toNat = i := by
  have hprobe := probe_found h.noGap h.distinct (Nat.min_le_left _ _) (home_lt h.size_pos key) hi
  rw [← search_eq_probe h.size_pos key] at hprobe
  exact Option.map_eq_some_iff.mp hprobe

theorem Refines.search_of_notMem (h : Refines table m) (hcard : m.keys.card < table.reach)
    (hkey : key ∉ m) :
    ∃ index, table.search key = some index ∧ ∃ d < table.reach,
      index.toNat = (table.home key + d) % table.reach ∧ table.slots index.toNat = none ∧
      ∀ e < d, table.slots ((table.home key + e) % table.reach) ≠ none := by
  obtain ⟨d, hd, hprobe, hnone, hbetween⟩ :=
    probe_absent (h.exists_free hcard) (Nat.min_le_left _ _) (home_lt h.size_pos key)
      fun i hi => hkey (h.mem_iff.mpr ⟨i, hi⟩)
  rw [← search_eq_probe h.size_pos key] at hprobe
  obtain ⟨index, hindex, heq⟩ := Option.map_eq_some_iff.mp hprobe
  exact ⟨index, hindex, d, hd, heq, heq ▸ hnone, hbetween⟩

theorem Refines.get_eq (h : Refines table m) (hcard : m.keys.card < table.reach)
    (key : Address) : table.get key = some (m.lookup key) := by
  by_cases hkey : key ∈ m
  · obtain ⟨i, hi⟩ := h.mem_iff.mp hkey
    obtain ⟨index, hsearch, rfl⟩ := h.probing.search_of_slot hi
    rw [h.lookup_of_slot hi]
    simp [get, hsearch, (slots_eq_some.mp hi).1]
  · obtain ⟨index, hsearch, d, -, -, hnone, -⟩ := h.search_of_notMem hcard hkey
    rw [Finmap.lookup_eq_none.mpr hkey]
    simp [get, hsearch, slots_eq_none.mp hnone]

/-! ## Writing to a slot -/

def write (m : Map α) (key : Address) : Option α → Map α
  | some client => m.insert key client
  | none => m.erase key

theorem lookup_write_self (m : Map α) (key : Address) (item : Option α) :
    (write m key item).lookup key = item := by
  cases item with
  | none => exact Finmap.lookup_erase key m
  | some client => exact Finmap.lookup_insert m

theorem lookup_write_of_ne (m : Map α) {key key' : Address} (item : Option α)
    (h : key' ≠ key) : (write m key item).lookup key' = m.lookup key' := by
  cases item with
  | none => exact Finmap.lookup_erase_ne h
  | some client => exact Finmap.lookup_insert_of_ne m h

theorem keys_insert (m : Map α) (key : Address) (client : α) :
    (m.insert key client).keys = insert key m.keys := by
  ext k
  rw [Finmap.mem_keys, Finmap.mem_insert, Finset.mem_insert, Finmap.mem_keys]

theorem card_insert_le (m : Map α) (key : Address) (client : α) :
    (m.insert key client).keys.card ≤ m.keys.card + 1 := by
  rw [keys_insert]
  exact Finset.card_insert_le _ _

theorem card_erase_le (m : Map α) (key : Address) : (m.erase key).keys.card ≤ m.keys.card := by
  rw [Finmap.keys_erase]
  exact Finset.card_erase_le

theorem store_length (table : Ht α) (i : ℕ) (key : Address) (item : Option α) {m : Map α}
    (h : table.length = m.keys.card) :
    (table.store i key item (m.lookup key)).length = (write m key item).keys.card := by
  by_cases hkey : key ∈ m
  · obtain ⟨client, hclient⟩ := Finmap.mem_iff.mp hkey
    have hmem : key ∈ m.keys := Finmap.mem_keys.mpr hkey
    cases item with
    | none => simp [store, write, hclient, h, Finmap.keys_erase, Finset.card_erase_of_mem hmem]
    | some new => simp [store, write, hclient, h, keys_insert, Finset.insert_eq_of_mem hmem]
  · have hnone : m.lookup key = none := Finmap.lookup_eq_none.mpr hkey
    have hmem : key ∉ m.keys := fun hin => hkey (Finmap.mem_keys.mp hin)
    cases item with
    | none => simp [store, write, hnone, h, Finmap.keys_erase, Finset.erase_eq_of_notMem hmem]
    | some new => simp [store, write, hnone, h, keys_insert, Finset.card_insert_of_notMem hmem]

theorem slots_store (table : Ht α) (i : ℕ) (key : Address) (item old : Option α) :
    (table.store i key item old).slots =
      Function.update table.slots i (item.map fun _ => key) := by
  funext j
  by_cases hj : j = i
  · rw [hj, Function.update_self]
    cases item <;> simp [slots, store, Item.key]
  · simp [slots, store, Function.update_of_ne hj]

theorem value_store_self (table : Ht α) (i : ℕ) (key : Address) (item old : Option α) :
    ((table.store i key item old).items i).value = item := by
  simp [store]

theorem items_store_of_ne (table : Ht α) {i j : ℕ} (key : Address) (item old : Option α)
    (hj : j ≠ i) : (table.store i key item old).items j = table.items j :=
  Function.update_of_ne hj _ _

/-- The slot `i` is where `key` may be written: its own slot, or a free one if it has
none. -/
def Fits (table : Ht α) (key : Address) (i : ℕ) : Prop :=
  table.slots i = some key ∨ table.slots i = none ∧ ∀ j, table.slots j ≠ some key

theorem Fits.other {i : ℕ} (hfits : Fits table key i) (hdist : Distinct table.slots) {j : ℕ}
    (hj : j ≠ i) : table.slots j ≠ some key := by
  intro hslot
  rcases hfits with hown | ⟨-, hnone⟩
  · exact hj (hdist j i key hslot hown)
  · exact hnone j hslot

theorem Holds.store_lookup (h : Holds table m) {i : ℕ} (hfits : Fits table key i)
    (item old : Option α) (k : Address) (client : α) :
    (write m key item).lookup k = some client ↔
      ∃ j, (table.store i key item old).slots j = some k ∧
        ((table.store i key item old).items j).value = some client := by
  rw [slots_store]
  by_cases hk : k = key
  · subst hk
    rw [lookup_write_self]
    constructor
    · intro hitem
      exact ⟨i, by rw [Function.update_self, hitem]; rfl, by rw [value_store_self, hitem]⟩
    · intro hex
      obtain ⟨j, hslot, hvalue⟩ := hex
      by_cases hj : j = i
      · rwa [hj, value_store_self] at hvalue
      · rw [Function.update_of_ne hj] at hslot
        exact absurd hslot (hfits.other h.distinct hj)
  · rw [lookup_write_of_ne m item hk, h.lookup_iff]
    constructor
    · intro hex
      obtain ⟨j, hslot, hvalue⟩ := hex
      have hj : j ≠ i := by
        intro hji
        rw [hji] at hslot
        rcases hfits with hown | ⟨hfree, -⟩
        · rw [hown, Option.some.injEq] at hslot
          exact hk hslot.symm
        · rw [hfree] at hslot
          cases hslot
      exact ⟨j, by rwa [Function.update_of_ne hj], by rwa [items_store_of_ne _ _ _ _ hj]⟩
    · intro hex
      obtain ⟨j, hslot, hvalue⟩ := hex
      have hj : j ≠ i := by
        intro hji
        rw [hji, Function.update_self] at hslot
        obtain ⟨-, -, hkey⟩ := Option.map_eq_some_iff.mp hslot
        exact hk hkey.symm
      rw [Function.update_of_ne hj] at hslot
      rw [items_store_of_ne _ _ _ _ hj] at hvalue
      exact ⟨j, hslot, hvalue⟩

theorem Holds.store (h : Holds table m) {i : ℕ} (hi : i < table.reach)
    (hfits : Fits table key i) (item : Option α) :
    Holds (table.store i key item (m.lookup key)) (write m key item) where
  size_pos := h.size_pos
  used_iff j := by
    by_cases hj : j = i
    · rw [hj]
      cases item <;> simp [Ht.store]
    · rw [items_store_of_ne _ _ _ _ hj]
      exact h.used_iff j
  used_lt j hused := by
    by_cases hj : j = i
    · rw [hj]
      exact hi
    · rw [items_store_of_ne _ _ _ _ hj] at hused
      exact h.used_lt j hused
  lookup_iff := h.store_lookup hfits item _
  distinct := by
    rw [slots_store]
    apply h.distinct.update
    intro j hj k hk
    obtain ⟨-, -, rfl⟩ := Option.map_eq_some_iff.mp hk
    exact hfits.other h.distinct hj
  length_eq := store_length table i key item h.length_eq

/-! ## `ht_put_nolock` -/

theorem putNolock_eq {index : UInt16} (hsearch : table.search key = some index)
    (item : Option α) {old : Option α}
    (hold : (if (table.items index.toNat).used then (table.items index.toNat).value else none) =
      old) :
    table.putNolock key item = some (old, table.store index.toNat key item old) := by
  simp [putNolock, hsearch, hold]

/-- The old client is returned and the new one written.  The keys after the slot of a
removed key may be out of reach of a search afterwards. -/
theorem Refines.putNolock (h : Refines table m) (hcard : m.keys.card < table.reach)
    (key : Address) (item : Option α) :
    ∃ table', table.putNolock key item = some (m.lookup key, table') ∧
      table'.size = table.size ∧ Holds table' (write m key item) ∧
      (m.lookup key = none ∨ item ≠ none → Refines table' (write m key item)) := by
  by_cases hkey : key ∈ m
  · obtain ⟨i, hi⟩ := h.mem_iff.mp hkey
    obtain ⟨index, hsearch, rfl⟩ := h.probing.search_of_slot hi
    have hused := (slots_eq_some.mp hi).1
    have hholds := h.toHolds.store (h.used_lt _ hused) (.inl hi) item
    refine ⟨_, putNolock_eq hsearch item ?_, rfl, hholds, fun hkeep => ⟨hholds, ?_⟩⟩
    · rw [if_pos hused, h.lookup_of_slot hi]
    · have hitem : item ≠ none := by
        refine hkeep.resolve_left ?_
        rw [Finmap.lookup_eq_none]
        exact not_not_intro hkey
      obtain ⟨client, rfl⟩ := Option.ne_none_iff_exists'.mp hitem
      rw [slots_store, Option.map_some, Function.update_eq_self_iff.mpr hi.symm]
      exact h.noGap
  · obtain ⟨index, hsearch, d, hd, hindex, hnone, hbetween⟩ := h.search_of_notMem hcard hkey
    have hlt : index.toNat < table.reach := by
      rw [hindex]
      exact Nat.mod_lt _ (reach_pos h.size_pos)
    have hholds := h.toHolds.store hlt
      (.inr ⟨hnone, fun j hj => hkey (h.mem_iff.mpr ⟨j, hj⟩)⟩) item
    refine ⟨_, putNolock_eq hsearch item ?_, rfl, hholds, fun _ => ⟨hholds, ?_⟩⟩
    · rw [if_neg (by rw [slots_eq_none.mp hnone]; decide), Finmap.lookup_eq_none.mpr hkey]
    · rw [slots_store]
      cases item with
      | none =>
        rw [Option.map_none, Function.update_eq_self_iff.mpr hnone.symm]
        exact h.noGap
      | some client =>
        rw [Option.map_some, hindex]
        exact h.noGap.insert hd hbetween

end Trtp.Ht
