import Trtp.HashTable.Put

/-!
# Sequences of calls

`resize` moves the clients of a table to a new array one after the other, and the new
table refines the map again whether or not the old one did: this is how `remove`
mends the gap that it leaves.  A table at rest is `Loaded`: it has at most one entry
more than half of its slots, so that a search always comes to a free slot.
-/

namespace Trtp.Ht

open Lib

variable {α : Type} {table : Ht α} {m : Map α} {key : Address}

/-! ## `ht_resize` -/

def fresh (size : ℕ) : Ht α :=
  { size := size, items := fun _ => .zero, length := 0 }

theorem fresh_refines {size : ℕ} (hsize : 0 < size) : Refines (fresh size) (∅ : Map α) := by
  have hslots : ∀ i k, (fresh size : Ht α).slots i ≠ some k := by
    intro i k
    simp [slots, fresh, Item.zero]
  refine ⟨⟨hsize, ?_, ?_, ?_, ?_, rfl⟩, ?_⟩
  · intro i
    simp [fresh, Item.zero]
  · intro i hused
    simp [fresh, Item.zero] at hused
  · intro k client
    rw [Finmap.lookup_empty]
    constructor
    · intro h
      cases h
    · intro hex
      obtain ⟨i, hi, -⟩ := hex
      exact absurd hi (hslots i k)
  · intro i j k hi
    exact absurd hi (hslots i k)
  · intro i k hi
    exact absurd hi (hslots i k)

/-- The map `moved` holds the clients in the slots below `n`. -/
def Moved (table : Ht α) (n : ℕ) (moved : Map α) : Prop :=
  ∀ key client, moved.lookup key = some client ↔
    ∃ i < n, table.slots i = some key ∧ (table.items i).value = some client

theorem Holds.moved_card (h : Holds table m) {n : ℕ} {moved : Map α}
    (hmoved : Moved table n moved) : moved.keys.card ≤ m.keys.card := by
  apply Finset.card_le_card
  intro k hk
  obtain ⟨client, hclient⟩ := Finmap.mem_iff.mp (Finmap.mem_keys.mp hk)
  obtain ⟨i, -, hi, hvalue⟩ := (hmoved k client).mp hclient
  exact Finmap.mem_keys.mpr
    (Finmap.mem_of_lookup_eq_some ((h.lookup_iff k client).mpr ⟨i, hi, hvalue⟩))

theorem Holds.moved_all (h : Holds table m) {moved : Map α}
    (hmoved : Moved table table.size moved) : moved = m := by
  apply Finmap.ext_lookup
  intro k
  apply Option.ext
  intro client
  rw [hmoved k client, h.lookup_iff k client]
  constructor
  · intro hex
    obtain ⟨i, -, hi⟩ := hex
    exact ⟨i, hi⟩
  · intro hex
    obtain ⟨i, hslot, hvalue⟩ := hex
    have hlt := h.used_lt i (slots_eq_some.mp hslot).1
    exact ⟨i, lt_of_lt_of_le hlt (Nat.min_le_left _ _), hslot, hvalue⟩

theorem Moved.skip {n : ℕ} {moved : Map α} (hmoved : Moved table n moved)
    (hfree : table.slots n = none) : Moved table (n + 1) moved := by
  intro k client
  rw [hmoved k client]
  constructor
  · intro hex
    obtain ⟨i, hi, hslot⟩ := hex
    exact ⟨i, Nat.lt_succ_of_lt hi, hslot⟩
  · intro hex
    obtain ⟨i, hi, hslot, hvalue⟩ := hex
    have hne : i ≠ n := by
      intro heq
      rw [heq, hfree] at hslot
      cases hslot
    exact ⟨i, by omega, hslot, hvalue⟩

theorem Moved.insert {n : ℕ} {moved : Map α} {client : α} (hmoved : Moved table n moved)
    (hdist : Distinct table.slots) (hslot : table.slots n = some key)
    (hvalue : (table.items n).value = some client) :
    Moved table (n + 1) (moved.insert key client) := by
  intro k c
  by_cases hk : k = key
  · subst hk
    rw [Finmap.lookup_insert]
    constructor
    · intro hc
      exact ⟨n, Nat.lt_succ_self n, hslot, hvalue.trans hc⟩
    · intro hex
      obtain ⟨i, -, hi, hc⟩ := hex
      rw [hdist i n k hi hslot, hvalue] at hc
      exact hc
  · rw [Finmap.lookup_insert_of_ne moved hk, hmoved k c]
    constructor
    · intro hex
      obtain ⟨i, hi, hrest⟩ := hex
      exact ⟨i, Nat.lt_succ_of_lt hi, hrest⟩
    · intro hex
      obtain ⟨i, hi, hk', hc⟩ := hex
      have hne : i ≠ n := by
        intro heq
        rw [heq, hslot, Option.some.injEq] at hk'
        exact hk hk'.symm
      exact ⟨i, by omega, hk', hc⟩

theorem Holds.rehash_spec (h : Holds table m) {new : Ht α} {n : ℕ} {moved : Map α}
    (hmoved : Moved table n moved) (hnew : Refines new moved)
    (hcard : m.keys.card < new.reach) :
    ∃ new' moved', rehash table.items new n = some new' ∧ new'.size = new.size ∧
      Refines new' moved' ∧ Moved table (n + 1) moved' := by
  by_cases hused : (table.items n).used = true
  · have hslot : table.slots n = some (table.items n).key := slots_eq_some.mpr ⟨hused, rfl⟩
    obtain ⟨client, hvalue⟩ := Option.ne_none_iff_exists'.mp ((h.used_iff n).mp hused)
    obtain ⟨new', hput, hsize, -, hrefines⟩ :=
      hnew.putNolock (lt_of_le_of_lt (h.moved_card hmoved) hcard) (table.items n).key
        (some client)
    refine ⟨new', moved.insert (table.items n).key client, ?_, hsize,
      hrefines (.inr (Option.some_ne_none client)), hmoved.insert h.distinct hslot hvalue⟩
    rw [rehash, if_pos hused, hvalue, hput]
    rfl
  · refine ⟨new, moved, if_neg hused, rfl, hnew, hmoved.skip ?_⟩
    exact slots_eq_none.mpr (by simpa using hused)

/-- The loop of `ht_resize`, up to slot `n`. -/
theorem Holds.rehash_range (h : Holds table m) {newSize : ℕ}
    (hcard : m.keys.card < min newSize 65536) (n : ℕ) :
    ∃ new moved, (List.range n).foldlM (rehash table.items) (fresh newSize) = some new ∧
      new.size = newSize ∧ Refines new moved ∧ Moved table n moved := by
  induction n with
  | zero =>
    refine ⟨fresh newSize, ∅, rfl, rfl, fresh_refines (by omega), ?_⟩
    intro k client
    rw [Finmap.lookup_empty]
    simp
  | succ n ih =>
    obtain ⟨new, moved, hfold, hsize, hrefines, hmoved⟩ := ih
    have hreach : m.keys.card < new.reach := by rwa [reach, hsize]
    obtain ⟨new', moved', hstep, hsize', hrefines', hmoved'⟩ :=
      h.rehash_spec hmoved hrefines hreach
    refine ⟨new', moved', ?_, hsize'.trans hsize, hrefines', hmoved'⟩
    rw [List.range_succ, List.foldlM_append, hfold]
    show (List.foldlM (rehash table.items) new [n]) = some new'
    rw [List.foldlM_cons, hstep]
    rfl

/-- A rehash loses no client and deallocates none. -/
theorem Holds.resize (h : Holds table m) (newSize : ℕ)
    (hcard : m.keys.card < min newSize 65536) :
    ∃ new, table.resize newSize = some ([], new) ∧ new.size = newSize ∧ Refines new m := by
  obtain ⟨new, moved, hfold, hsize, hrefines, hmoved⟩ := h.rehash_range hcard table.size
  rw [h.moved_all hmoved] at hrefines
  refine ⟨new, ?_, hsize, hrefines⟩
  have hnone : deallocItems table.size (leftOver table.items) = [] := by
    rw [deallocItems, List.filterMap_eq_nil_iff]
    intro i _
    unfold leftOver
    by_cases hused : (table.items i).used = true
    · rw [if_pos hused]
    · rw [if_neg hused]
      by_contra hvalue
      exact hused ((h.used_iff i).mpr hvalue)
  unfold Ht.resize
  change ((List.range table.size).foldlM (rehash table.items) (fresh newSize)).bind _ = _
  rw [hfold, Option.bind_some, hnone]

/-! ## The operations -/

/-- A table between two calls. -/
structure Loaded (table : Ht α) (m : Map α) : Prop extends Refines table m where
  size_ge : 16 ≤ table.size
  length_le : table.length ≤ table.size / 2 + 1

theorem allocateHt_loaded : Loaded (allocateHt : Ht α) ∅ :=
  ⟨fresh_refines (Nat.succ_pos 15), le_refl 16, Nat.zero_le _⟩

theorem Loaded.card_lt (h : Loaded table m) (hcap : m.keys.card ≤ 65535) :
    m.keys.card < table.reach := by
  have hsize := h.size_ge
  have hlength := h.length_le
  have hcard := h.length_eq
  unfold reach
  omega

/-- The growth at the head of `ht_put` leaves room for one more entry. -/
theorem Loaded.grow (h : Loaded table m) (hcap : m.keys.card ≤ 65535) :
    ∃ new, table.grow = some ([], new) ∧ Refines new m ∧
      16 ≤ new.size ∧ new.length ≤ new.size / 2 := by
  have hsize := h.size_ge
  have hlength := h.length_le
  have hcard := h.length_eq
  by_cases hfull : table.length > table.size / 2
  · obtain ⟨new, hresize, hnew, hrefines⟩ :=
      h.toHolds.resize (table.size * 2) (by omega)
    refine ⟨new, by rw [Ht.grow, if_pos hfull, hresize], hrefines, by omega, ?_⟩
    rw [hrefines.length_eq]
    omega
  · exact ⟨table, if_neg hfull, h.toRefines, hsize, by omega⟩

theorem card_write_le (m : Map α) (key : Address) (item : Option α) :
    (write m key item).keys.card ≤ m.keys.card + 1 := by
  cases item with
  | none => exact Nat.le_succ_of_le (card_erase_le m key)
  | some client => exact card_insert_le m key client

theorem Loaded.put (h : Loaded table m) (hcap : m.keys.card ≤ 65535) (key : Address)
    (item : Option α) :
    ∃ table', table.put key item = some (m.lookup key, [], table') ∧
      Holds table' (write m key item) ∧ 16 ≤ table'.size ∧
      table'.length ≤ table'.size / 2 + 1 ∧
      (m.lookup key = none ∨ item ≠ none → Loaded table' (write m key item)) := by
  obtain ⟨new, hgrow, hrefines, hsize, hlength⟩ := h.grow hcap
  have hcard : m.keys.card < new.reach := by
    have := hrefines.length_eq
    unfold reach
    omega
  obtain ⟨table', hput, hsize', hholds, hrefines'⟩ := hrefines.putNolock hcard key item
  have hlength' : table'.length ≤ table'.size / 2 + 1 := by
    have hle := card_write_le m key item
    rw [← hholds.length_eq, ← hrefines.length_eq] at hle
    omega
  refine ⟨table', ?_, hholds, by omega, hlength', fun hkeep =>
    ⟨hrefines' hkeep, by omega, hlength'⟩⟩
  simp [Ht.put, hgrow, hput]

theorem Loaded.remove (h : Loaded table m) (hcap : m.keys.card ≤ 65535) (key : Address) :
    ∃ table', table.remove key = some (m.lookup key, [], table') ∧
      Loaded table' (m.erase key) := by
  obtain ⟨table', hput, hholds, hsize, hlength, hloaded⟩ := h.put hcap key none
  unfold Ht.remove
  rw [hput]
  cases hdel : m.lookup key with
  | none => exact ⟨table', rfl, hloaded (.inl hdel)⟩
  | some client =>
    have hcard : (m.erase key).keys.card < min table'.size 65536 := by
      have hle := card_erase_le m key
      have heq : table'.length = (m.erase key).keys.card := hholds.length_eq
      omega
    obtain ⟨new, hresize, hnew, hrefines⟩ := hholds.resize table'.size hcard
    refine ⟨new, ?_, hrefines, by omega, ?_⟩
    · show ((table'.resize table'.size).bind _) = _
      rw [hresize]
      rfl
    · rw [hrefines.length_eq, ← hholds.length_eq, hnew]
      exact hlength

/-! ## Calls that return

The table may be full here.  What is found is there, and where a search has found nothing
there is room for one more. -/

theorem searchFrom_stops {fuel : ℕ} {start index : UInt16}
    (hsearch : table.searchFrom key fuel start = some index) :
    Stops table.slots key index.toNat := by
  induction fuel generalizing start with
  | zero => cases hsearch
  | succ fuel ih =>
    unfold searchFrom at hsearch
    split_ifs at hsearch with hused hkey
    · cases hsearch
      refine .inr (slots_eq_some.mpr ⟨hused, ?_⟩)
      rw [Item.key, hkey.1, hkey.2]
    · exact ih hsearch
    · cases hsearch
      exact .inl (slots_eq_none.mpr (by simpa using hused))

theorem searchFrom_lt {fuel : ℕ} {start index : UInt16} (hstart : start.toNat < table.reach)
    (hsearch : table.searchFrom key fuel start = some index) : index.toNat < table.reach := by
  induction fuel generalizing start with
  | zero => cases hsearch
  | succ fuel ih =>
    unfold searchFrom at hsearch
    split_ifs at hsearch
    · cases hsearch
      exact hstart
    · refine ih ?_ hsearch
      rw [next_toNat hstart]
      exact Nat.mod_lt _ (by omega)
    · cases hsearch
      exact hstart

theorem Refines.get_of_lookup (h : Refines table m) {client : α}
    (hlookup : m.lookup key = some client) : table.get key = some (some client) := by
  obtain ⟨i, hi, hvalue⟩ := (h.lookup_iff key client).mp hlookup
  obtain ⟨index, hsearch, rfl⟩ := h.probing.search_of_slot hi
  simp [get, hsearch, (slots_eq_some.mp hi).1, hvalue]

theorem Holds.card_lt_of_free (h : Holds table m) {j : ℕ} (hj : j < table.reach)
    (hfree : table.slots j = none) : m.keys.card < table.reach := by
  have hsub : m.keys ⊆ ((Finset.range table.reach).erase j).image fun i => (table.items i).key := by
    intro k hk
    obtain ⟨i, hi⟩ := h.mem_iff.mp (Finmap.mem_keys.mp hk)
    obtain ⟨hused, hkey⟩ := slots_eq_some.mp hi
    refine Finset.mem_image.mpr ⟨i, Finset.mem_erase.mpr ⟨?_, ?_⟩, hkey⟩
    · rintro rfl
      rw [hfree] at hi
      cases hi
    · exact Finset.mem_range.mpr (h.used_lt i hused)
  have hle := (Finset.card_le_card hsub).trans Finset.card_image_le
  rw [Finset.card_erase_of_mem (Finset.mem_range.mpr hj), Finset.card_range] at hle
  omega

theorem Refines.lookup_of_get (h : Refines table m) {value : Option α}
    (hget : table.get key = some value) :
    m.lookup key = value ∧ (value = none → m.keys.card < table.reach) := by
  by_cases hkey : key ∈ m
  · obtain ⟨client, hclient⟩ := Finmap.mem_iff.mp hkey
    rw [h.get_of_lookup hclient, Option.some.injEq] at hget
    rw [← hget]
    exact ⟨hclient, fun hn => absurd hn (Option.some_ne_none client)⟩
  · cases hsearch : table.search key with
    | none => simp [get, hsearch] at hget
    | some index =>
      have hnone : table.slots index.toNat = none := by
        rcases searchFrom_stops hsearch with hn | hs
        · exact hn
        · exact absurd (h.mem_iff.mpr ⟨_, hs⟩) hkey
      have hvalue : value = none := by
        simp [get, hsearch, slots_eq_none.mp hnone] at hget
        exact hget.symm
      rw [hvalue]
      refine ⟨Finmap.lookup_eq_none.mpr hkey, fun _ => h.card_lt_of_free ?_ hnone⟩
      refine searchFrom_lt ?_ hsearch
      rw [hash_toNat]
      exact home_lt h.size_pos key

theorem searchFrom_store {fuel : ℕ} {start index : UInt16}
    (hsearch : table.searchFrom key fuel start = some index) (client : α) (old : Option α) :
    (table.store index.toNat key (some client) old).searchFrom key fuel start = some index := by
  induction fuel generalizing start with
  | zero => cases hsearch
  | succ fuel ih =>
    unfold searchFrom at hsearch ⊢
    by_cases hi : start = index
    · subst hi
      simp [store]
    · have hne : start.toNat ≠ index.toNat := fun h => hi (UInt16.toNat_inj.mp h)
      rw [items_store_of_ne table key (some client) old hne]
      split_ifs at hsearch ⊢
      · exact hsearch
      · exact ih hsearch
      · exact hsearch

theorem putNolock_cases {item old : Option α} {table' : Ht α}
    (hput : table.putNolock key item = some (old, table')) :
    ∃ index, table.search key = some index ∧
      old = (if (table.items index.toNat).used then (table.items index.toNat).value else none) ∧
      table' = table.store index.toNat key item old := by
  unfold Ht.putNolock at hput
  obtain ⟨index, hsearch, hstore⟩ := Option.bind_eq_some_iff.mp hput
  rw [Option.some.injEq, Prod.mk.injEq] at hstore
  obtain ⟨rfl, rfl⟩ := hstore
  exact ⟨index, hsearch, rfl, rfl⟩

theorem put_cases {item old : Option α} {freed : List α} {table' : Ht α}
    (hput : table.put key item = some (old, freed, table')) :
    ∃ new index, table.grow = some (freed, new) ∧ new.search key = some index ∧
      old = (if (new.items index.toNat).used then (new.items index.toNat).value else none) ∧
      table' = new.store index.toNat key item old := by
  unfold Ht.put at hput
  obtain ⟨⟨freed', new⟩, hgrow, hrest⟩ := Option.bind_eq_some_iff.mp hput
  obtain ⟨⟨old', stored⟩, hnolock, hresult⟩ := Option.bind_eq_some_iff.mp hrest
  rw [Option.some.injEq, Prod.mk.injEq, Prod.mk.injEq] at hresult
  obtain ⟨rfl, rfl, rfl⟩ := hresult
  obtain ⟨index, hsearch, hold, rfl⟩ := putNolock_cases hnolock
  exact ⟨new, index, hgrow, hsearch, hold, rfl⟩

/-- What one round of the loop of `ht_resize` keeps: an entry is written where the search
for its key stops. -/
theorem rehash_induct {I : Ht α → Prop} {oldValues : ℕ → Item α} {new new' : Ht α} {i : ℕ}
    (hstore : ∀ index old, (oldValues i).used = true → new.search (oldValues i).key = some index →
      I (new.store index.toNat (oldValues i).key (oldValues i).value old))
    (hnew : I new) (hstep : rehash oldValues new i = some new') : I new' := by
  unfold Ht.rehash at hstep
  split_ifs at hstep with hused
  · obtain ⟨⟨old, stored⟩, hput, hresult⟩ := Option.bind_eq_some_iff.mp hstep
    obtain ⟨index, hsearch, -, rfl⟩ := putNolock_cases hput
    rw [← Option.some.inj hresult]
    exact hstore index old hused hsearch
  · rw [← Option.some.inj hstep]
    exact hnew

theorem resize_induct {I : Ht α → Prop} {newSize : ℕ} {freed : List α} {new : Ht α}
    (hfresh : I (fresh newSize))
    (hstore : ∀ new i index old, I new → (table.items i).used = true →
      new.search (table.items i).key = some index →
      I (new.store index.toNat (table.items i).key (table.items i).value old))
    (hresize : table.resize newSize = some (freed, new)) : I new := by
  obtain ⟨moved, hfold, hmoved⟩ := Option.bind_eq_some_iff.mp hresize
  cases hmoved
  have hrounds : ∀ (l : List ℕ) (start : Ht α), I start →
      l.foldlM (rehash table.items) start = some new → I new := by
    intro l
    induction l with
    | nil =>
      intro start hstart hfold
      rw [← Option.some.inj hfold]
      exact hstart
    | cons i l ih =>
      intro start hstart hfold
      rw [List.foldlM_cons] at hfold
      obtain ⟨next, hstep, hrest⟩ := Option.bind_eq_some_iff.mp hfold
      exact ih next (rehash_induct (fun index old => hstore start i index old hstart) hstart hstep)
        hrest
  exact hrounds _ _ hfresh hfold

/-- The induction for the growth at the head of `ht_put`. -/
theorem grow_induct {I : Ht α → Prop} {freed : List α} {new : Ht α} (htable : I table)
    (hfresh : I (fresh (table.size * 2)))
    (hstore : ∀ new i index old, I new → (table.items i).used = true →
      new.search (table.items i).key = some index →
      I (new.store index.toNat (table.items i).key (table.items i).value old))
    (hgrow : table.grow = some (freed, new)) : I new := by
  unfold Ht.grow at hgrow
  split_ifs at hgrow
  · exact resize_induct hfresh hstore hgrow
  · cases hgrow
    exact htable

/-- A client that has been put is found, whatever the table. -/
theorem get_of_put {client : α} {old : Option α} {freed : List α} {table' : Ht α}
    (hput : table.put key (some client) = some (old, freed, table')) :
    table'.get key = some (some client) := by
  obtain ⟨new, index, -, hsearch, -, rfl⟩ := put_cases hput
  have hfound : (new.store index.toNat key (some client) old).search key = some index :=
    searchFrom_store hsearch client old
  rw [get, hfound]
  simp [store]

/-! ## What holds of every entry -/

def Each (P : Address → α → Prop) (table : Ht α) : Prop :=
  ∀ i key client, table.slots i = some key → (table.items i).value = some client → P key client

section Each

variable {P : Address → α → Prop}

theorem Each.mono {Q : Address → α → Prop} (h : Each P table) (hPQ : ∀ k c, P k c → Q k c) :
    Each Q table :=
  fun i k c hslot hvalue => hPQ k c (h i k c hslot hvalue)

theorem each_fresh (size : ℕ) : Each P (fresh size) := by
  intro i k c hslot
  simp [slots, fresh, Item.zero] at hslot

theorem Each.store (h : Each P table) {item : Option α} (hitem : ∀ c, item = some c → P key c)
    (i : ℕ) (old : Option α) : Each P (table.store i key item old) := by
  intro j k c hslot hvalue
  rw [slots_store] at hslot
  by_cases hj : j = i
  · subst hj
    rw [value_store_self] at hvalue
    rw [Function.update_self, hvalue, Option.map_some, Option.some.injEq] at hslot
    rw [← hslot]
    exact hitem c hvalue
  · rw [Function.update_of_ne hj] at hslot
    rw [items_store_of_ne table key _ old hj] at hvalue
    exact h j k c hslot hvalue

theorem Each.rehash {oldValues : ℕ → Item α} {new new' : Ht α} {i : ℕ} (hnew : Each P new)
    (hi : (oldValues i).used = true → ∀ c, (oldValues i).value = some c → P (oldValues i).key c)
    (hstep : rehash oldValues new i = some new') : Each P new' :=
  rehash_induct (fun _ _ hused _ => hnew.store (hi hused) _ _) hnew hstep

theorem Each.grow (h : Each P table) {freed : List α} {new : Ht α}
    (hgrow : table.grow = some (freed, new)) : Each P new := by
  refine grow_induct h (each_fresh _) ?_ hgrow
  intro new i index old hnew hused _
  refine hnew.store (fun c hc => ?_) _ _
  exact h i _ c (slots_eq_some.mpr ⟨hused, rfl⟩) hc

theorem Each.put (h : Each P table) {item old : Option α} (hitem : ∀ c, item = some c → P key c)
    {freed : List α} {table' : Ht α} (hput : table.put key item = some (old, freed, table')) :
    Each P table' := by
  obtain ⟨new, index, hgrow, -, -, rfl⟩ := put_cases hput
  exact (h.grow hgrow).store hitem _ _

theorem Each.get (h : Each P table) {client : α} (hget : table.get key = some (some client)) :
    P key client := by
  cases hsearch : table.search key with
  | none => simp [Ht.get, hsearch] at hget
  | some index =>
    by_cases hused : (table.items index.toNat).used = true
    · simp only [Ht.get, hsearch, Option.bind_eq_bind, Option.bind_some, if_pos hused,
        Option.some.injEq] at hget
      refine h index.toNat key client ?_ hget
      refine (searchFrom_stops hsearch).resolve_left fun hnone => ?_
      rw [slots_eq_none.mp hnone] at hused
      cases hused
    · simp [Ht.get, hsearch, hused] at hget

end Each

/-! ## Sequences of calls -/

def Map.call (m : Map α) : Op α → Result α × Map α
  | .put key client => (.client (m.lookup key), m.insert key client)
  | .remove key => (.client (m.lookup key), m.erase key)
  | .get key => (.client (m.lookup key), m)
  | .contains key => (.bool (m.lookup key).isSome, m)

def Map.calls (m : Map α) : List (Op α) → List (Result α) × Map α
  | [] => ([], m)
  | op :: ops => ((m.call op).1 :: (Map.calls (m.call op).2 ops).1, (Map.calls (m.call op).2 ops).2)

theorem Loaded.call (h : Loaded table m) (hcap : m.keys.card ≤ 65535) (op : Op α) :
    ∃ table', table.call op = some ((m.call op).1, [], table') ∧
      Loaded table' (m.call op).2 := by
  have hget := h.get_eq (h.card_lt hcap)
  cases op with
  | put key client =>
    obtain ⟨table', hput, -, -, -, hloaded⟩ := h.put hcap key (some client)
    refine ⟨table', ?_, hloaded (.inr (Option.some_ne_none client))⟩
    simp [Ht.call, Map.call, hput]
  | remove key =>
    obtain ⟨table', hremove, hloaded⟩ := h.remove hcap key
    refine ⟨table', ?_, hloaded⟩
    simp [Ht.call, Map.call, hremove]
  | get key =>
    refine ⟨table, ?_, h⟩
    simp [Ht.call, Map.call, hget]
  | contains key =>
    refine ⟨table, ?_, h⟩
    simp [Ht.call, Map.call, Ht.contains, hget]

/-- Never more than 65535 entries at once. -/
def Map.Capped (m : Map α) (ops : List (Op α)) : Prop :=
  ∀ before, before <+: ops → (m.calls before).2.keys.card ≤ 65535

theorem Map.calls_card (m : Map α) (ops : List (Op α)) :
    (m.calls ops).2.keys.card ≤ m.keys.card + ops.length := by
  induction ops generalizing m with
  | nil => exact le_refl _
  | cons op ops ih =>
    have hop : (m.call op).2.keys.card ≤ m.keys.card + 1 := by
      cases op with
      | put key client => exact card_insert_le m key client
      | remove key => exact Nat.le_succ_of_le (card_erase_le m key)
      | get key => exact Nat.le_succ _
      | contains key => exact Nat.le_succ _
    have hrest := ih (m.call op).2
    rw [List.length_cons]
    show (Map.calls (m.call op).2 ops).2.keys.card ≤ _
    omega

theorem Map.capped_of_length {ops : List (Op α)} (h : ops.length ≤ 65535) :
    Map.Capped ∅ ops := by
  intro before hbefore
  have hcard := Map.calls_card (∅ : Map α) before
  rw [Finmap.keys_empty, Finset.card_empty] at hcard
  have hlength := hbefore.length_le
  omega

theorem Loaded.calls (h : Loaded table m) {ops : List (Op α)} (hcap : m.Capped ops) :
    ∃ table', table.calls ops = some ((m.calls ops).1, [], table') ∧
      Loaded table' (m.calls ops).2 := by
  induction ops generalizing table m with
  | nil => exact ⟨table, rfl, h⟩
  | cons op ops ih =>
    obtain ⟨next, hcall, hnext⟩ := h.call (hcap [] List.nil_prefix) op
    have hcap' : Map.Capped (m.call op).2 ops := by
      intro before hbefore
      exact hcap (op :: before) ((List.prefix_cons_inj op).mpr hbefore)
    obtain ⟨table', hcalls, htable'⟩ := ih hnext hcap'
    refine ⟨table', ?_, htable'⟩
    simp [Ht.calls, Map.calls, hcall, hcalls]

/-- From `allocate_ht` on, every call returns what it returns on the finite map, and
no client is deallocated. -/
theorem calls_refine_map (ops : List (Op α)) (hcap : Map.Capped ∅ ops) :
    ∃ table : Ht α, allocateHt.calls ops = some ((Map.calls ∅ ops).1, [], table) ∧
      table.length = (Map.calls ∅ ops).2.keys.card ∧
      (∀ key, table.get key = some ((Map.calls ∅ ops).2.lookup key)) ∧
      (∀ i j, i < table.size → j < table.size → (table.items i).used = true →
        (table.items j).used = true → (table.items i).key = (table.items j).key → i = j) ∧
      ∀ i, i < table.size →
        ((table.items i).used = true ↔ (table.items i).value ≠ none) := by
  obtain ⟨table, hcalls, h⟩ := allocateHt_loaded.calls hcap
  have hcard := h.card_lt (hcap ops (List.prefix_refl ops))
  refine ⟨table, hcalls, h.length_eq, h.get_eq hcard, ?_, fun i _ => h.used_iff i⟩
  intro i j _ _ hi hj hkey
  exact h.distinct i j _ (slots_eq_some.mpr ⟨hi, hkey⟩) (slots_eq_some.mpr ⟨hj, rfl⟩)

/-- Two keys with the same home slot, the first of which is removed. -/
def collision : List (Op ℕ) :=
  let first : Address := { port := 1, ip := Vector.replicate 16 0 }
  let second : Address := { port := 17, ip := Vector.replicate 16 0 }
  [.put first 5, .put second 7, .remove first, .get second, .contains first]

theorem calls_refine_map_collision :
    ∃ table : Ht ℕ, allocateHt.calls collision =
        some ([.client none, .client none, .client (some 5), .client (some 7), .bool false],
          [], table) ∧
      table.length = 1 := by
  obtain ⟨table, hcalls, hlength, -⟩ :=
    calls_refine_map collision (Map.capped_of_length (by decide))
  exact ⟨table, hcalls, hlength⟩

end Trtp.Ht
