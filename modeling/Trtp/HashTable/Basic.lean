import Trtp.Handler.Client

/-!
# The hash table of clients

`src/hash_table.c`.  A table of `size` slots with linear probing: the search for a
key starts at the slot `port % size`, and the index is a `uint16_t`, so that a table
of more than 65536 slots is used up to slot 65535 only.

An operation returns `none` where the search of the code does not end, which is when
it has gone around the table.  Deallocated clients are returned beside the result.
Every allocation succeeds, and `ht_put_nolock` is always called with `resize` false.
-/

namespace Trtp

structure Item (α : Type) where
  used : Bool
  value : Option α
  port : UInt16
  ip : Vector UInt8 16

namespace Item

variable {α : Type}

/-- A slot as `calloc` leaves it. -/
def zero : Item α :=
  { used := false, value := none, port := 0, ip := Vector.replicate 16 0 }

def key (item : Item α) : Address :=
  { port := item.port, ip := item.ip }

end Item

/-- `ht_t`, without its lock. -/
structure Ht (α : Type) where
  size : ℕ
  items : ℕ → Item α
  length : ℕ

def initialSize : ℕ := 16

variable {α : Type}

def allocateHt : Ht α :=
  { size := initialSize, items := fun _ => .zero, length := 0 }

namespace Ht

def hash (table : Ht α) (port : UInt16) : UInt16 :=
  .ofNat (port.toNat % table.size)

/-- The loop of `ht_get` and `ht_put_nolock`: the first slot from `index` on that is
free or holds the key. -/
def searchFrom (table : Ht α) (key : Address) : ℕ → UInt16 → Option UInt16
  | 0, _ => none
  | fuel + 1, index =>
    if (table.items index.toNat).used then
      if (table.items index.toNat).port = key.port ∧ (table.items index.toNat).ip = key.ip then
        some index
      else
        table.searchFrom key fuel (.ofNat ((index.toNat + 1) % table.size))
    else
      some index

def search (table : Ht α) (key : Address) : Option UInt16 :=
  table.searchFrom key table.size (table.hash key.port)

def get (table : Ht α) (key : Address) : Option (Option α) := do
  let index ← table.search key
  if (table.items index.toNat).used then
    some (table.items index.toNat).value
  else
    some none

def contains (table : Ht α) (key : Address) : Option Bool := do
  let value ← table.get key
  some value.isSome

/-- The slot `index` is given to `key`, or freed where `item` is `NULL`; `old` is the
client that was there. -/
def store (table : Ht α) (index : ℕ) (key : Address) (item old : Option α) : Ht α :=
  { table with
    items := Function.update table.items index
      { used := item.isSome, value := item, port := key.port, ip := key.ip }
    length :=
      if old.isNone ∧ item.isSome then
        table.length + 1
      else if old.isSome ∧ item.isNone then
        table.length - 1
      else
        table.length }

def putNolock (table : Ht α) (key : Address) (item : Option α) :
    Option (Option α × Ht α) := do
  let index ← table.search key
  let old :=
    if (table.items index.toNat).used then (table.items index.toNat).value else none
  some (old, table.store index.toNat key item old)

/-- `dealloc_items`: the clients it deallocates. -/
def deallocItems (len : ℕ) (items : ℕ → Item α) : List α :=
  (List.range len).filterMap fun i => (items i).value

def rehash (oldValues : ℕ → Item α) (table : Ht α) (i : ℕ) : Option (Ht α) :=
  if (oldValues i).used then do
    let (_, table) ← table.putNolock (oldValues i).key (oldValues i).value
    some table
  else
    some table

/-- The old array of `ht_resize` after its loop: a value that was moved is `NULL`. -/
def leftOver (oldValues : ℕ → Item α) (i : ℕ) : Item α :=
  if (oldValues i).used then { oldValues i with value := none } else oldValues i

def resize (table : Ht α) (newSize : ℕ) : Option (List α × Ht α) := do
  let moved ← (List.range table.size).foldlM (rehash table.items)
    { size := newSize, items := fun _ => .zero, length := 0 }
  some (deallocItems table.size (leftOver table.items), moved)

def grow (table : Ht α) : Option (List α × Ht α) :=
  if table.length > table.size / 2 then
    table.resize (table.size * 2)
  else
    some ([], table)

def put (table : Ht α) (key : Address) (item : Option α) :
    Option (Option α × List α × Ht α) := do
  let (freed, table) ← table.grow
  let (old, table) ← table.putNolock key item
  some (old, freed, table)

def remove (table : Ht α) (key : Address) : Option (Option α × List α × Ht α) := do
  let (del, freed, table) ← table.put key none
  if del.isNone then
    some (del, freed, table)
  else do
    let (freed', table) ← table.resize table.size
    some (del, freed ++ freed', table)

inductive Op (α : Type) where
  | put (key : Address) (client : α)
  | remove (key : Address)
  | get (key : Address)
  | contains (key : Address)

inductive Result (α : Type) where
  | client (value : Option α)
  | bool (value : Bool)

def call (table : Ht α) : Op α → Option (Result α × List α × Ht α)
  | .put key client => do
    let (old, freed, table) ← table.put key (some client)
    some (.client old, freed, table)
  | .remove key => do
    let (del, freed, table) ← table.remove key
    some (.client del, freed, table)
  | .get key => do
    let value ← table.get key
    some (.client value, [], table)
  | .contains key => do
    let found ← table.contains key
    some (.bool found, [], table)

/-- The results of a sequence of calls, the clients deallocated by it and the table
it leaves. -/
def calls (table : Ht α) : List (Op α) → Option (List (Result α) × List α × Ht α)
  | [] => some ([], [], table)
  | op :: ops => do
    let (result, freed, table) ← table.call op
    let (results, freed', table) ← table.calls ops
    some (result :: results, freed ++ freed', table)

end Ht

end Trtp
