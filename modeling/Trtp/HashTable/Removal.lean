import Trtp.HashTable.Refinement

/-!
# Lookups during a removal

`ht_remove` holds the lock of the table while it clears the slot, and no longer while
`ht_resize` rebuilds the table: the new array is installed empty and then filled entry
by entry.  A receiver that looks a key up in between can be told that the client is
unknown although it is not the one being removed.

`ht_get` returns `table->items[index].value` after it has unlocked the table, so that the
array can be another one than the one that has been searched.

`Removal` is the table with the place the main thread has come to in `ht_remove`.
`Visible` says when a search for another key finds it, `Points` that the slot that has
been found still has its client, and `lookups_during_removal` that a lookup is safe
exactly then.
-/

namespace Trtp.Ht

open Lib

variable {α : Type}

/-- Where the main thread is in `ht_remove`. -/
inductive Phase (α : Type) where
  | start
  /-- After `ht_put`, before `ht_resize`. -/
  | cleared
  /-- In the loop of `ht_resize`, at slot `i` of the old array. -/
  | moving (oldValues : ℕ → Item α) (oldSize i : ℕ)
  | done

structure Removal (α : Type) where
  table : Ht α
  phase : Phase α

namespace Removal

/-- The next step of `ht_remove`: the section that holds the lock, the head of
`ht_resize`, one round of its loop. -/
def advance (s : Removal α) (key : Address) : Option (Removal α) :=
  match s.phase with
  | .start => do
    let (del, _, table) ← s.table.put key none
    some { table := table, phase := if del.isNone then .done else .cleared }
  | .cleared =>
    some { table := { size := s.table.size, items := fun _ => .zero, length := 0 }
           phase := .moving s.table.items s.table.size 0 }
  | .moving oldValues oldSize i =>
    if i < oldSize then do
      let table ← rehash oldValues s.table i
      some { table := table, phase := .moving oldValues oldSize (i + 1) }
    else
      some { s with phase := .done }
  | .done => some s

end Removal

/-- The removal with the receivers `ρ` that are in `ht_get`: the key, and the slot in which the
search has found it and from which the client has still to be read. -/
structure Lookups (ρ α : Type) where
  removal : Removal α
  reading : ρ → Option (Address × UInt16)

/-- A step of the main thread, the section of `ht_get` that holds the lock, or the read of the
client after it. -/
inductive Act (ρ : Type) where
  | main
  | search (r : ρ) (key : Address)
  | read (r : ρ)

section

variable {ρ : Type} [DecidableEq ρ] (key : Address)

/-- A step of an interleaving of `ht_remove` of `key` with lookups, and what a lookup returns in
it.  A receiver makes one lookup at a time. -/
def Lookups.step (s : Lookups ρ α) :
    Act ρ → Option (Lookups ρ α × Option (Address × Option α))
  | .main => do
    let removal ← s.removal.advance key
    some ({ s with removal := removal }, none)
  | .search r key' =>
    match s.reading r with
    | some _ => some (s, none)
    | none => do
      let index ← s.removal.table.search key'
      if (s.removal.table.items index.toNat).used then
        some ({ s with reading := Function.update s.reading r (some (key', index)) }, none)
      else
        some (s, some (key', none))
  | .read r =>
    match s.reading r with
    | some (key', index) =>
      some ({ s with reading := Function.update s.reading r none },
        some (key', (s.removal.table.items index.toNat).value))
    | none => some (s, none)

def lookups : Lookups ρ α → List (Act ρ) → Option (List (Address × Option α))
  | _, [] => some []
  | s, act :: acts => do
    let (s, returned) ← s.step key act
    let values ← lookups s acts
    some (returned.toList ++ values)

/-- Every step of the interleaving satisfies `P` in the state in which it is made. -/
def EachAct (P : Lookups ρ α → Act ρ → Prop) : Lookups ρ α → List (Act ρ) → Prop
  | _, [] => True
  | s, act :: acts =>
    P s act ∧ ∀ s' returned, s.step key act = some (s', returned) → EachAct P s' acts

end

def Lookups.start {ρ : Type} (table : Ht α) : Lookups ρ α :=
  { removal := ⟨table, .start⟩, reading := fun _ => none }

/-- The slots from the home slot of `key` to its own are all in use. -/
def Chained (table : Ht α) (key : Address) : Prop :=
  ∃ d < table.reach, table.slots ((table.home key + d) % table.reach) = some key ∧
    ∀ e < d, table.slots ((table.home key + e) % table.reach) ≠ none

/-- A search for `key'` in the table is not disturbed: `ht_remove` has not begun or has
ended, or it has cleared a slot that is not on the chain of `key'`, or it has moved
`key'` to the new array. -/
def Removal.Visible (s : Removal α) (key' : Address) : Prop :=
  match s.phase with
  | .start => True
  | .cleared => s.table.Chained key'
  | .moving oldValues _ i => ∃ j < i, (oldValues j).used = true ∧ (oldValues j).key = key'
  | .done => True

/-- The slot is the one of `key'`, or of another key that has been put with the same client. -/
def Removal.Points (s : Removal α) (m : Map α) (index : UInt16) (key' : Address) : Prop :=
  ∃ k, s.table.slots index.toNat = some k ∧ m.lookup k = m.lookup key'

/-- A lookup of another client of the table is not disturbed in this step: it searches while its
key is visible, and reads while the slot that it has found points to its client. -/
def Lookups.Undisturbed {ρ : Type} (key : Address) (m : Map α) (s : Lookups ρ α) : Act ρ → Prop
  | .main => True
  | .search r key' => s.reading r = none → key' ≠ key → key' ∈ m → s.removal.Visible key'
  | .read r => ∀ key' index, s.reading r = some (key', index) → key' ≠ key → key' ∈ m →
    s.removal.Points m index key'

/-- A table that calls from `allocate_ht` on have led to, within the cap of the
receiver, and the clients in it. -/
def ReachableTable (table : Ht α) (m : Map α) : Prop :=
  ∃ ops results freed, Map.Capped ∅ ops ∧ allocateHt.calls ops = some (results, freed, table) ∧
    m = (Map.calls ∅ ops).2

variable {table : Ht α} {m : Map α} {key key' : Address} {s : Removal α}

theorem ReachableTable.loaded (h : ReachableTable table m) :
    Loaded table m ∧ m.keys.card ≤ 65535 := by
  obtain ⟨ops, results, freed, hcap, hcalls, rfl⟩ := h
  obtain ⟨table', hcalls', hloaded⟩ := allocateHt_loaded.calls hcap
  rw [hcalls, Option.some.injEq, Prod.mk.injEq, Prod.mk.injEq] at hcalls'
  rw [hcalls'.2.2]
  exact ⟨hloaded, hcap ops (List.prefix_refl ops)⟩

/-! ## A lookup -/

theorem Holds.get_at_stop (h : Holds table m) {d : ℕ} (hd : d < table.reach)
    (hstop : Stops table.slots key ((table.home key + d) % table.reach))
    (hgo : ∀ e < d, ¬ Stops table.slots key ((table.home key + e) % table.reach)) :
    table.get key = some (if table.slots ((table.home key + d) % table.reach) = none then none
      else m.lookup key) := by
  have hprobe := probe_of_stops (home_lt h.size_pos key)
    (lt_of_lt_of_le hd (Nat.min_le_left table.size 65536)) hstop hgo
  rw [← search_eq_probe h.size_pos key] at hprobe
  obtain ⟨index, hsearch, hindex⟩ := Option.map_eq_some_iff.mp hprobe
  rw [← hindex] at hstop ⊢
  rcases hstop with hnone | hsome
  · rw [if_pos hnone]
    simp [get, hsearch, slots_eq_none.mp hnone]
  · rw [if_neg (by rw [hsome]; exact Option.some_ne_none key), h.lookup_of_slot hsome]
    simp [get, hsearch, (slots_eq_some.mp hsome).1]

theorem Holds.get_returns (h : Holds table m) (hcard : m.keys.card < table.reach)
    (key : Address) : ∃ value, table.get key = some value := by
  obtain ⟨d, hd, hstop, hgo⟩ :=
    exists_first_stop (h.exists_free hcard) (home_lt h.size_pos key) key
  exact ⟨_, h.get_at_stop hd hstop hgo⟩

theorem Holds.get_iff (h : Holds table m) (hcard : m.keys.card < table.reach)
    (hkey : key ∈ m) : table.get key = some (m.lookup key) ↔ table.Chained key := by
  obtain ⟨d, hd, hstop, hgo⟩ :=
    exists_first_stop (h.exists_free hcard) (home_lt h.size_pos key) key
  obtain ⟨client, hclient⟩ := Finmap.mem_iff.mp hkey
  rw [h.get_at_stop hd hstop hgo, hclient]
  constructor
  · intro heq
    have hne : table.slots ((table.home key + d) % table.reach) ≠ none := by
      intro hnone
      rw [if_pos hnone] at heq
      cases heq
    exact ⟨d, hd, hstop.resolve_left hne, fun e he hn => hgo e he (.inl hn)⟩
  · intro hex
    obtain ⟨d', hd', hslot, hbetween⟩ := hex
    have hle : d ≤ d' := by
      by_contra hlt
      exact hgo d' (not_le.mp hlt) (.inr hslot)
    have hne : table.slots ((table.home key + d) % table.reach) ≠ none := by
      rcases Nat.lt_or_eq_of_le hle with hlt | rfl
      · exact hbetween d hlt
      · rw [hslot]
        exact Option.some_ne_none key
    rw [if_neg hne]

/-! ## The steps of the main thread -/

/-- What holds of the table in each phase of the removal of `key`.  `m` are the clients
before it. -/
def Removal.Inv (key : Address) (m : Map α) (s : Removal α) : Prop :=
  match s.phase with
  | .start => Loaded s.table m ∧ m.keys.card ≤ 65535
  | .cleared => Holds s.table (m.erase key) ∧ (m.erase key).keys.card < s.table.reach
  | .moving oldValues oldSize i => ∃ (old : Ht α) (moved : Map α),
      old.items = oldValues ∧ old.size = oldSize ∧ i ≤ old.size ∧ Holds old (m.erase key) ∧
        Refines s.table moved ∧ Moved old i moved ∧ (m.erase key).keys.card < s.table.reach
  | .done => Refines s.table (m.erase key) ∧ (m.erase key).keys.card < s.table.reach

theorem moved_zero (table : Ht α) : Moved table 0 ∅ := by
  intro k client
  rw [Finmap.lookup_empty]
  simp

theorem Removal.Inv.advance (h : s.Inv key m) :
    ∃ s', s.advance key = some s' ∧ s'.Inv key m := by
  obtain ⟨table, phase⟩ := s
  cases phase with
  | start =>
    obtain ⟨hloaded, hcap⟩ := h
    obtain ⟨table', hput, hholds, hsize, hlength, hkeep⟩ := hloaded.put hcap key none
    have hcard : (m.erase key).keys.card < table'.reach := by
      have heq : table'.length = (m.erase key).keys.card := hholds.length_eq
      have hle := card_erase_le m key
      unfold reach
      omega
    refine ⟨_, by rw [Removal.advance, hput]; rfl, ?_⟩
    cases hdel : m.lookup key with
    | none => exact ⟨(hkeep (.inl hdel)).toRefines, hcard⟩
    | some client => exact ⟨hholds, hcard⟩
  | cleared =>
    obtain ⟨hholds, hcard⟩ := h
    exact ⟨_, rfl, table, ∅, rfl, rfl, Nat.zero_le _, hholds, fresh_refines hholds.size_pos,
      moved_zero table, hcard⟩
  | moving oldValues oldSize i =>
    obtain ⟨old, moved, rfl, rfl, hle, hholds, hrefines, hmoved, hcard⟩ := h
    by_cases hi : i < old.size
    · obtain ⟨new, moved', hstep, hsize, hrefines', hmoved'⟩ :=
        hholds.rehash_spec hmoved hrefines hcard
      have hadvance : Removal.advance ⟨table, .moving old.items old.size i⟩ key =
          some ⟨new, .moving old.items old.size (i + 1)⟩ := by
        simp [Removal.advance, hi, hstep]
      refine ⟨_, hadvance, old, moved', rfl, rfl, hi, hholds, hrefines', hmoved', ?_⟩
      rwa [reach, hsize]
    · have hadvance : Removal.advance ⟨table, .moving old.items old.size i⟩ key =
          some ⟨table, .done⟩ := by
        simp [Removal.advance, hi]
      have hall : i = old.size := by omega
      subst hall
      rw [hholds.moved_all hmoved] at hrefines
      exact ⟨_, hadvance, hrefines, hcard⟩
  | done => exact ⟨_, rfl, h⟩

theorem Removal.Inv.holds (h : s.Inv key m) :
    ∃ m', Holds s.table m' ∧ m'.keys.card < s.table.reach ∧
      ∀ k client, m'.lookup k = some client → m.lookup k = some client := by
  have herase : ∀ k client, (m.erase key).lookup k = some client → m.lookup k = some client := by
    intro k client hk
    rwa [Finmap.lookup_erase_ne (Finmap.mem_erase.mp (Finmap.mem_of_lookup_eq_some hk)).1] at hk
  obtain ⟨table, phase⟩ := s
  cases phase with
  | start => exact ⟨m, h.1.toHolds, h.1.card_lt h.2, fun _ _ => id⟩
  | cleared => exact ⟨m.erase key, h.1, h.2, herase⟩
  | moving oldValues oldSize i =>
    obtain ⟨old, moved, -, -, -, hholds, hrefines, hmoved, hcard⟩ := h
    refine ⟨moved, hrefines.toHolds, lt_of_le_of_lt (hholds.moved_card hmoved) hcard, ?_⟩
    intro k client hk
    obtain ⟨j, -, hslot, hvalue⟩ := (hmoved k client).mp hk
    exact herase k client ((hholds.lookup_iff k client).mpr ⟨j, hslot, hvalue⟩)
  | done => exact ⟨m.erase key, h.1.toHolds, h.2, herase⟩

/-! ## The two steps of a lookup -/

/-- In one step, a lookup of another client of the table returns it exactly when it is visible. -/
theorem Removal.Inv.get_iff (h : s.Inv key m) (hne : key' ≠ key) (hkey : key' ∈ m) :
    s.table.get key' = some (m.lookup key') ↔ s.Visible key' := by
  have herase : (m.erase key).lookup key' = m.lookup key' := Finmap.lookup_erase_ne hne
  have hkey' : key' ∈ m.erase key := Finmap.mem_erase.mpr ⟨hne, hkey⟩
  obtain ⟨table, phase⟩ := s
  cases phase with
  | start => exact iff_of_true (h.1.get_eq (h.1.card_lt h.2) key') trivial
  | cleared =>
    rw [← herase]
    exact h.1.get_iff h.2 hkey'
  | moving oldValues oldSize i =>
    obtain ⟨old, moved, rfl, -, -, hholds, hrefines, hmoved, hcard⟩ := h
    obtain ⟨client, hclient⟩ := Finmap.mem_iff.mp hkey'
    show table.get key' = _ ↔ _
    rw [hrefines.get_eq (lt_of_le_of_lt (hholds.moved_card hmoved) hcard) key', ← herase, hclient,
      Option.some.injEq, hmoved key' client]
    constructor
    · intro hex
      obtain ⟨j, hj, hslot, -⟩ := hex
      exact ⟨j, hj, slots_eq_some.mp hslot⟩
    · intro hex
      obtain ⟨j, hj, hslot⟩ := hex
      have hslot := slots_eq_some.mpr hslot
      exact ⟨j, hj, hslot, (hholds.lookup_of_slot hslot).symm.trans hclient⟩
  | done =>
    rw [← herase]
    exact iff_of_true (h.1.get_eq h.2 key') trivial

/-- The search returns, and what it has stopped at is what `get` is told. -/
theorem Removal.Inv.search_returns (h : s.Inv key m) (key' : Address) :
    ∃ index, s.table.search key' = some index ∧ s.table.get key' =
      some (if (s.table.items index.toNat).used then (s.table.items index.toNat).value
        else none) := by
  obtain ⟨m', hholds, hcard, -⟩ := h.holds
  obtain ⟨value, hvalue⟩ := hholds.get_returns hcard key'
  cases hsearch : s.table.search key' with
  | none => simp [get, hsearch] at hvalue
  | some index =>
    refine ⟨index, rfl, ?_⟩
    simp only [get, hsearch, Option.bind_eq_bind, Option.bind_some]
    split <;> rfl

theorem Removal.Inv.search_iff (h : s.Inv key m) (hne : key' ≠ key) (hkey : key' ∈ m)
    {index : UInt16} (hsearch : s.table.search key' = some index) :
    (s.table.items index.toNat).used = true ↔ s.Visible key' := by
  obtain ⟨client, hclient⟩ := Finmap.mem_iff.mp hkey
  obtain ⟨index', hsearch', hget⟩ := h.search_returns key'
  rw [hsearch, Option.some.injEq] at hsearch'
  subst hsearch'
  rw [← h.get_iff hne hkey, hget, hclient, Option.some.injEq]
  constructor
  · intro hused
    -- the slot has the key, since the search has stopped there
    obtain ⟨m', hholds, -, hsub⟩ := h.holds
    have hslot : s.table.slots index.toNat = some key' := by
      refine (searchFrom_stops hsearch).resolve_left fun hnone => ?_
      rw [slots_eq_none.mp hnone] at hused
      cases hused
    obtain ⟨client', hvalue⟩ := Option.ne_none_iff_exists'.mp ((hholds.used_iff _).mp hused)
    have hlookup := hsub key' client' ((hholds.lookup_iff _ _).mpr ⟨_, hslot, hvalue⟩)
    rw [if_pos hused, hvalue, ← hlookup, hclient]
  · intro hvalue
    split_ifs at hvalue with hused
    exact hused

/-- The value of a slot is the client of a key exactly when the slot points to it. -/
theorem Removal.Inv.points_iff (h : s.Inv key m) (hkey : key' ∈ m) (index : UInt16) :
    (s.table.items index.toNat).value = m.lookup key' ↔ s.Points m index key' := by
  obtain ⟨client, hclient⟩ := Finmap.mem_iff.mp hkey
  obtain ⟨m', hholds, -, hsub⟩ := h.holds
  rw [Removal.Points, hclient]
  constructor
  · intro hvalue
    have hused := (hholds.used_iff index.toNat).mpr (by rw [hvalue]; exact Option.some_ne_none _)
    have hslot := slots_eq_some.mpr ⟨hused, rfl⟩
    exact ⟨_, hslot, hsub _ client ((hholds.lookup_iff _ _).mpr ⟨_, hslot, hvalue⟩)⟩
  · rintro ⟨k, hslot, hk⟩
    obtain ⟨client', hvalue⟩ :=
      Option.ne_none_iff_exists'.mp ((hholds.used_iff _).mp (slots_eq_some.mp hslot).1)
    rw [hvalue, ← hk, hsub k client' ((hholds.lookup_iff _ _).mpr ⟨_, hslot, hvalue⟩)]

/-! ## Interleavings -/

/-- What a step returns is right: it is not for another client of the table, or it is its
client. -/
def Right (key : Address) (m : Map α) (returned : Address × Option α) : Prop :=
  returned.1 ≠ key → returned.1 ∈ m → returned.2 = m.lookup returned.1

section

variable {ρ : Type} [DecidableEq ρ] {t : Lookups ρ α}

/-- A step of the main thread and a search that finds its key return nothing yet. -/
theorem right_of_none {P : Prop} (hP : P) :
    (∀ r ∈ (none : Option (Address × Option α)).toList, Right key m r) ↔ P :=
  iff_of_true (fun _ hr => absurd hr List.not_mem_nil) hP

theorem right_of_some {returned : Address × Option α} :
    (∀ r ∈ (some returned).toList, Right key m r) ↔ Right key m returned :=
  List.forall_mem_singleton

/-- A receiver that has found nothing gives the wrong answer exactly when it should have found
its key. -/
theorem Removal.Inv.not_found_iff (h : s.Inv key m) {index : UInt16}
    (hsearch : s.table.search key' = some index)
    (hused : (s.table.items index.toNat).used = false) :
    Right key m (key', none) ↔ (key' ≠ key → key' ∈ m → s.Visible key') := by
  constructor
  · intro hright hne hkey
    exact absurd (hright hne hkey).symm (fun hnone => Finmap.lookup_eq_none.mp hnone hkey)
  · intro hvisible hne hkey
    have hfound := (h.search_iff hne hkey hsearch).mpr (hvisible hne hkey)
    rw [hused] at hfound
    cases hfound

theorem Removal.Inv.search_step (h : t.removal.Inv key m) (r : ρ) (key' : Address) :
    ∃ t' returned, t.step key (.search r key') = some (t', returned) ∧
      t'.removal.Inv key m ∧
        ((∀ r ∈ returned.toList, Right key m r) ↔ t.Undisturbed key m (.search r key')) := by
  cases hreading : t.reading r with
  | some found =>
    refine ⟨t, none, by simp [Lookups.step, hreading], h, right_of_none fun hnone => ?_⟩
    rw [hreading] at hnone
    cases hnone
  | none =>
    obtain ⟨index, hsearch, -⟩ := h.search_returns key'
    cases hused : (t.removal.table.items index.toNat).used with
    | true =>
      refine ⟨{ t with reading := Function.update t.reading r (some (key', index)) }, none,
        by simp [Lookups.step, hreading, hsearch, hused], h, right_of_none fun _ hne hkey => ?_⟩
      exact (h.search_iff hne hkey hsearch).mp hused
    | false =>
      refine ⟨t, some (key', none), by simp [Lookups.step, hreading, hsearch, hused], h, ?_⟩
      rw [right_of_some, h.not_found_iff hsearch hused]
      exact ⟨fun hvisible _ => hvisible, fun hundisturbed => hundisturbed hreading⟩

theorem Removal.Inv.read_step (h : t.removal.Inv key m) (r : ρ) :
    ∃ t' returned, t.step key (.read r) = some (t', returned) ∧ t'.removal.Inv key m ∧
      ((∀ r ∈ returned.toList, Right key m r) ↔ t.Undisturbed key m (.read r)) := by
  cases hreading : t.reading r with
  | none =>
    refine ⟨t, none, by simp [Lookups.step, hreading], h, right_of_none fun key' index hsome => ?_⟩
    rw [hreading] at hsome
    cases hsome
  | some found =>
    obtain ⟨key', index⟩ := found
    refine ⟨{ t with reading := Function.update t.reading r none },
      some (key', (t.removal.table.items index.toNat).value), by simp [Lookups.step, hreading],
      h, ?_⟩
    rw [right_of_some]
    constructor
    · intro hright key'' index' hsome hne hkey
      rw [hreading] at hsome
      cases hsome
      exact (h.points_iff hkey index).mp (hright hne hkey)
    · intro hundisturbed hne hkey
      exact (h.points_iff hkey index).mpr (hundisturbed _ _ hreading hne hkey)

/-- A step of an interleaving: it returns nothing wrong exactly when it is not disturbed. -/
theorem Removal.Inv.step (h : t.removal.Inv key m) (act : Act ρ) :
    ∃ t' returned, t.step key act = some (t', returned) ∧ t'.removal.Inv key m ∧
      ((∀ r ∈ returned.toList, Right key m r) ↔ t.Undisturbed key m act) := by
  cases act with
  | main =>
    obtain ⟨s', hs', hinv⟩ := h.advance
    exact ⟨{ t with removal := s' }, none, by simp [Lookups.step, hs'], hinv,
      right_of_none trivial⟩
  | search r key' => exact h.search_step r key'
  | read r => exact h.read_step r

theorem Removal.Inv.lookups (h : t.removal.Inv key m) (acts : List (Act ρ)) :
    ∃ values, lookups key t acts = some values ∧
      ((∀ r ∈ values, Right key m r) ↔ EachAct key (Lookups.Undisturbed key m) t acts) := by
  induction acts generalizing t with
  | nil => exact ⟨[], rfl, by simp [EachAct]⟩
  | cons act acts ih =>
    obtain ⟨t', returned, hstep, hinv, hright⟩ := h.step act
    obtain ⟨values, hvalues, hiff⟩ := ih hinv
    refine ⟨returned.toList ++ values, by simp [Ht.lookups, hstep, hvalues], ?_⟩
    rw [EachAct, ← hright]
    simp only [List.forall_mem_append, hstep, Option.some.injEq, Prod.mk.injEq, and_imp,
      forall_eq', forall_apply_eq_imp_iff, hiff]

end

/-- Two ports with the same home slot. -/
def portOne : Address := { port := 1, ip := Vector.replicate 16 0 }

def portSeventeen : Address := { port := 17, ip := Vector.replicate 16 0 }

def twoClients : List (Op ℕ) := [.put portOne 5, .put portSeventeen 7]

def collided : Ht ℕ := ((allocateHt.calls twoClients).map fun r => r.2.2).getD allocateHt

theorem collided_reachable : ReachableTable collided (Map.calls ∅ twoClients).2 :=
  ⟨twoClients, _, _, Map.capped_of_length (by decide), rfl, rfl⟩

end Trtp.Ht
