import Trtp.HashTable.Removal

/-!
# A `calloc` that fails

`ht_resize` sets `size`, `length` and `items` before it looks at what `calloc` returned,
and does not restore them.  The old array is then out of reach.  Of its two callers,
`ht_put` returns without unlocking the table, and `ht_remove` returns as if nothing had
happened.

The operations are those of `Ht` with the lock of the table and with an `items` that may
be `NULL`.  An operation that waits for a lock nobody will release, or that reads through
`NULL`, has no result.
-/

namespace Trtp

variable {α : Type}

structure LockedHt (α : Type) where
  size : ℕ
  items : Option (ℕ → Item α)
  length : ℕ
  locked : Bool

namespace LockedHt

def ofHt (table : Ht α) (locked : Bool) : LockedHt α :=
  { size := table.size, items := some table.items, length := table.length, locked := locked }

def lock (table : LockedHt α) : LockedHt α := { table with locked := true }

/-- The table behind `items`. -/
def deref (table : LockedHt α) : Option (Ht α) := do
  let items ← table.items
  some { size := table.size, items := items, length := table.length }

def get (table : LockedHt α) (key : Address) : Option (Option α) :=
  if table.locked then none
  else do
    let table ← table.deref
    table.get key

/-- `ht_resize`, where `calloc` tells whether the allocation succeeds.  The first component
is `none` when the function returns -1. -/
def resize (table : LockedHt α) (newSize : ℕ) (calloc : Bool) :
    Option (Option (List α) × LockedHt α) :=
  if calloc then do
    let old ← table.deref
    let (freed, new) ← old.resize newSize
    some (some freed, ofHt new table.locked)
  else
    some (none, { table with size := newSize, length := 0, items := none })

/-- What an operation returns and leaves behind.  `failed` is not in the code: a `calloc`
of `ht_resize` has returned `NULL`. -/
structure Outcome (α : Type) where
  ret : Option α
  freed : List α
  table : LockedHt α
  failed : Bool

/-- The end of `ht_put`, from `ht_put_nolock` on. -/
def putUnlock (table : LockedHt α) (key : Address) (item : Option α) (freed : List α) :
    Option (Outcome α) := do
  let table ← table.deref
  let (old, table) ← table.putNolock key item
  some { ret := old, freed := freed, table := ofHt table false, failed := false }

def put (table : LockedHt α) (key : Address) (item : Option α) (calloc : Bool) :
    Option (Outcome α) :=
  if table.locked then none
  else if table.length > table.size / 2 then do
    let (freed, table) ← table.lock.resize (table.size * 2) calloc
    match freed with
    -- The early return: `pthread_mutex_unlock` is not reached.
    | none => some { ret := none, freed := [], table := table, failed := true }
    | some freed => table.putUnlock key item freed
  else table.lock.putUnlock key item []

/-- `calloc 0` is for the growth in `ht_put` and `calloc 1` for the rebuild. -/
def remove (table : LockedHt α) (key : Address) (calloc : ℕ → Bool) : Option (Outcome α) := do
  let out ← table.put key none (calloc 0)
  if out.ret.isNone then some out
  else do
    let (freed, table) ← out.table.resize out.table.size (calloc 1)
    match freed with
    | none => some { out with table := table, failed := true }
    | some freed => some { out with table := table, freed := out.freed ++ freed }

/-- An operation that may resize the table. -/
inductive Change (α : Type) where
  | put (key : Address) (client : α)
  | remove (key : Address)

def change (table : LockedHt α) (calloc : ℕ → Bool) : Change α → Option (Outcome α)
  | .put key client => table.put key (some client) (calloc 0)
  | .remove key => table.remove key calloc

def Change.removed : Change α → Option Address
  | .put _ _ => none
  | .remove key => some key

/-- What is asked of an operation that fails on `before`: the lock is free, the fields fit
each other, and the clients are found as before. -/
structure Intact (before : Ht α) (removed : Option Address) (after : LockedHt α) : Prop where
  unlocked : after.locked = false
  consistent : ∃ table, after.deref = some table ∧
    table.length = ((List.range table.size).filter fun i => (table.items i).used).length
  kept : ∀ key, removed ≠ some key → after.get key = before.get key

/-! ## Allocations that succeed -/

variable {table : Ht α} {key : Address} {item : Option α}

@[simp] theorem deref_ofHt (table : Ht α) (locked : Bool) :
    (ofHt table locked).deref = some table := rfl

@[simp] theorem lock_ofHt (table : Ht α) (locked : Bool) :
    (ofHt table locked).lock = ofHt table true := rfl

@[simp] theorem resize_ofHt (table : Ht α) (locked : Bool) (newSize : ℕ) :
    (ofHt table locked).resize newSize true =
      (table.resize newSize).map fun r => (some r.1, ofHt r.2 locked) := by
  show (table.resize newSize).bind _ = _
  cases table.resize newSize <;> rfl

@[simp] theorem putUnlock_ofHt (table : Ht α) (locked : Bool) (freed : List α) :
    (ofHt table locked).putUnlock key item freed =
      (table.putNolock key item).map fun r => ⟨r.1, freed, ofHt r.2 false, false⟩ := by
  show (table.putNolock key item).bind _ = _
  cases table.putNolock key item <;> rfl

/-- As long as no `calloc` fails, the operations are those of `Ht`. -/
theorem put_ofHt {calloc : Bool} (h : calloc = true ∨ ¬ table.length > table.size / 2) :
    (ofHt table false).put key item calloc =
      (table.put key item).map fun r => ⟨r.1, r.2.1, ofHt r.2.2 false, false⟩ := by
  have hput : (ofHt table false).put key item calloc =
      if table.length > table.size / 2 then
        ((ofHt table true).resize (table.size * 2) calloc).bind fun r =>
          match r.1 with
          | none => some ⟨none, [], r.2, true⟩
          | some freed => r.2.putUnlock key item freed
      else (ofHt table true).putUnlock key item [] := rfl
  rw [hput, Ht.put, Ht.grow]
  by_cases hgrow : table.length > table.size / 2
  · obtain rfl : calloc = true := h.resolve_right (not_not.mpr hgrow)
    rw [if_pos hgrow, if_pos hgrow, resize_ofHt]
    cases table.resize (table.size * 2) with
    | none => rfl
    | some r =>
      simp only [Option.map_some, Option.bind_some, putUnlock_ofHt, Option.bind_eq_bind]
      cases r.2.putNolock key item <;> rfl
  · rw [if_neg hgrow, if_neg hgrow, putUnlock_ofHt]
    simp only [Option.bind_eq_bind, Option.bind_some]
    cases table.putNolock key item <;> rfl

/-- A growth that fails: the table is locked for good and has lost its array. -/
theorem put_failed (hgrow : table.length > table.size / 2) :
    (ofHt table false).put key item false =
      some ⟨none, [], ⟨table.size * 2, none, 0, true⟩, true⟩ := by
  simp [put, ofHt, hgrow, resize, lock]

theorem remove_ofHt {calloc : ℕ → Bool}
    (h : calloc 0 = true ∨ ¬ table.length > table.size / 2) :
    (ofHt table false).remove key calloc = (table.put key none).bind fun r =>
      if r.1.isNone then some ⟨r.1, r.2.1, ofHt r.2.2 false, false⟩
      else if calloc 1 then
        (r.2.2.resize r.2.2.size).map fun r' => ⟨r.1, r.2.1 ++ r'.1, ofHt r'.2 false, false⟩
      else some ⟨r.1, r.2.1, ⟨r.2.2.size, none, 0, false⟩, true⟩ := by
  unfold remove
  rw [put_ofHt h]
  cases hput : table.put key none with
  | none => rfl
  | some r =>
    obtain ⟨del, freed, new⟩ := r
    simp only [Option.map_some, Option.bind_eq_bind, Option.bind_some]
    split
    · rfl
    · cases hcalloc : calloc 1 with
      | false => rfl
      | true =>
        rw [resize_ofHt, if_pos rfl]
        show ((new.resize new.size).map _).bind _ = _
        cases new.resize new.size <;> rfl

/-! ## Allocations that fail -/

theorem not_intact {before : Ht α} {removed : Option Address} {after : LockedHt α}
    (h : after.locked = true ∨ after.items = none) : ¬ Intact before removed after := by
  rintro ⟨hunlocked, ⟨table, hderef, -⟩, -⟩
  rcases h with h | h
  · rw [h] at hunlocked
    cases hunlocked
  · simp [deref, h] at hderef

theorem change_failed {calloc : ℕ → Bool} {op : Change α} {out : Outcome α}
    (hout : (ofHt table false).change calloc op = some out) (hfailed : out.failed = true) :
    out.table.locked = true ∨ out.table.items = none := by
  by_cases hgrow : calloc 0 = true ∨ ¬ table.length > table.size / 2
  · cases op with
    | put key client =>
      rw [change, put_ofHt hgrow, Option.map_eq_some_iff] at hout
      obtain ⟨r, -, rfl⟩ := hout
      cases hfailed
    | remove key =>
      rw [change, remove_ofHt hgrow, Option.bind_eq_some_iff] at hout
      obtain ⟨r, -, hout⟩ := hout
      split_ifs at hout
      · cases hout
        cases hfailed
      · obtain ⟨r', -, rfl⟩ := Option.map_eq_some_iff.mp hout
        cases hfailed
      · cases hout
        exact .inr rfl
  · rw [not_or, not_not, Bool.not_eq_true] at hgrow
    left
    cases op with
    | put key client =>
      rw [change, hgrow.1, put_failed hgrow.2] at hout
      cases hout
      rfl
    | remove key =>
      rw [change, remove, hgrow.1, put_failed hgrow.2] at hout
      cases hout
      rfl

theorem change_returns {m : Ht.Map α} (h : Ht.ReachableTable table m) (calloc : ℕ → Bool)
    (op : Change α) : ∃ out, (ofHt table false).change calloc op = some out := by
  obtain ⟨hloaded, hcap⟩ := h.loaded
  by_cases hgrow : calloc 0 = true ∨ ¬ table.length > table.size / 2
  · cases op with
    | put key client =>
      obtain ⟨table', hput, -⟩ := hloaded.put hcap key (some client)
      exact ⟨_, by rw [change, put_ofHt hgrow, hput]; rfl⟩
    | remove key =>
      obtain ⟨table', hput, -⟩ := hloaded.put hcap key none
      obtain ⟨new, hremove, -⟩ := hloaded.remove hcap key
      rw [change, remove_ofHt hgrow, hput, Option.bind_some]
      simp only [Ht.remove, hput, Option.bind_eq_bind, Option.bind_some] at hremove
      split_ifs at hremove ⊢
      · exact ⟨_, rfl⟩
      · obtain ⟨r, hr, -⟩ := Option.bind_eq_some_iff.mp hremove
        exact ⟨_, by rw [hr]; rfl⟩
      · exact ⟨_, rfl⟩
  · rw [not_or, not_not, Bool.not_eq_true] at hgrow
    cases op with
    | put key client => exact ⟨_, by rw [change, hgrow.1, put_failed hgrow.2]⟩
    | remove key => exact ⟨_, by rw [change, remove, hgrow.1, put_failed hgrow.2]; rfl⟩

/-- Whenever a `calloc` of `ht_resize` fails, the table that is left is locked or has no
array, and no lookup on it returns. -/
theorem never_intact (table : Ht α) (m : Ht.Map α) (h : Ht.ReachableTable table m)
    (calloc : ℕ → Bool) (op : Change α) :
    ∃ out, (ofHt table false).change calloc op = some out ∧
      (out.failed = true →
        ¬ Intact table op.removed out.table ∧ ∀ key, out.table.get key = none) := by
  obtain ⟨out, hout⟩ := change_returns h calloc op
  refine ⟨out, hout, fun hfailed => ?_⟩
  have hlost := change_failed hout hfailed
  refine ⟨not_intact hlost, fun key => ?_⟩
  rcases hlost with hlocked | hnull
  · simp [get, hlocked]
  · simp [get, deref, hnull]

/-- The removal of port 1 when the rebuild finds no memory. -/
theorem never_intact_collided :
    ∃ out, (ofHt Ht.collided false).change (fun _ => false) (.remove Ht.portOne) = some out ∧
      out.failed = true ∧ ¬ Intact Ht.collided (some Ht.portOne) out.table := by
  obtain ⟨out, hout, hlost⟩ := never_intact Ht.collided _ Ht.collided_reachable (fun _ => false)
    (.remove Ht.portOne)
  have hrebuild : (ofHt Ht.collided false).change (fun _ => false) (.remove Ht.portOne) =
      some ⟨some 5, [], ⟨16, none, 0, false⟩, true⟩ := rfl
  have hfailed : out.failed = true := by
    rw [hout, Option.some.injEq] at hrebuild
    rw [hrebuild]
  exact ⟨out, hout, hfailed, (hlost hfailed).1⟩

/-- The removal of port 1 returns its client and frees the lock, but port 17 has gone with
the array. -/
theorem not_intact_rebuild :
    ∃ out, (ofHt Ht.collided false).change (fun _ => false) (.remove Ht.portOne) = some out ∧
      out.ret = some 5 ∧ out.failed = true ∧ Ht.collided.get Ht.portSeventeen = some (some 7) ∧
      out.table.get Ht.portSeventeen = none ∧
      ¬ Intact Ht.collided (some Ht.portOne) out.table :=
  ⟨⟨some 5, [], ⟨16, none, 0, false⟩, true⟩, rfl, rfl, rfl, rfl, rfl, not_intact (.inr rfl)⟩

end LockedHt

end Trtp
