import Trtp.Handler.Buffer

/-!
# Clients

`client_t` of `headers/client.h` and the stdio calls made on its output file.
The lock, the printable address and the connection time are left out: the first
makes a request one atomic step and the others are only printed.
-/

namespace Trtp

/-- A stdio stream opened with `fopen(name, "wb")`: the contents of its file, the position and
the number of times that `fclose` has been called on it.

`fclose` frees the `FILE`, but `client->out_file` still points to it.  `late` are the bytes that
have been given to `fwrite` through this pointer: they do not get into the file of the client,
and what becomes of them is up to who has the memory now (`passOn`). -/
structure File where
  bytes : List UInt8
  pos : Nat
  closes : Nat
  late : List UInt8
  pos_le : pos ≤ bytes.length
  deriving DecidableEq

namespace File

def fopen : File := { bytes := [], pos := 0, closes := 0, late := [], pos_le := Nat.le_refl 0 }

def closed (f : File) : Bool := f.closes != 0

def put (f : File) (data : List UInt8) : File :=
  { f with
    bytes := f.bytes.take f.pos ++ data ++ f.bytes.drop (f.pos + data.length)
    pos := f.pos + data.length
    pos_le := by
      have := f.pos_le
      simp only [List.length_append, List.length_take, List.length_drop]
      omega }

/-- The bytes go to the file, or are late. -/
def write (f : File) (data : List UInt8) : File :=
  if f.closed then { f with late := f.late ++ data } else f.put data

/-- `fwrite(buffer, 1, n, f)` where the device takes at most `accepted` bytes.  What it returns
for a stream that has been closed is undefined: `accepted` can be anything. -/
def fwrite (f : File) (accepted : Nat) (buffer : List UInt8) : Nat × File :=
  let result := min accepted buffer.length
  (result, f.write (buffer.take result))

/-- `fseek(f, -result, SEEK_SET)`.  A negative target fails with `EINVAL` and
leaves the position alone; `-0` moves to the start of the file.  Through the pointer to a
closed stream nothing is moved: that only a failing write leads to. -/
def fseekSet (f : File) (result : Nat) : File :=
  if result = 0 ∧ f.closed = false then { f with pos := 0, pos_le := Nat.zero_le _ } else f

def fclose (f : File) : File := { f with closes := f.closes + 1 }

theorem write_of_open {f : File} (h : f.closed = false) (data : List UInt8) :
    f.write data = f.put data := by
  rw [write, h]
  rfl

@[simp] theorem write_closes (f : File) (data : List UInt8) : (f.write data).closes = f.closes := by
  unfold write
  split_ifs <;> rfl

@[simp] theorem fseekSet_closes (f : File) (result : Nat) :
    (f.fseekSet result).closes = f.closes := by
  unfold fseekSet
  split_ifs <;> rfl

@[simp] theorem fclose_closed (f : File) : f.fclose.closed = true := rfl

@[simp] theorem write_closed (f : File) (data : List UInt8) :
    (f.write data).closed = f.closed := by
  rw [closed, write_closes, closed]

@[simp] theorem fseekSet_closed (f : File) (result : Nat) :
    (f.fseekSet result).closed = f.closed := by
  rw [closed, fseekSet_closes, closed]

theorem put_nil (f : File) : f.put [] = f := by
  have hbytes : f.bytes.take f.pos ++ [] ++ f.bytes.drop (f.pos + ([] : List UInt8).length) =
      f.bytes := by
    rw [List.append_nil]
    exact List.take_append_drop _ _
  simp only [put, hbytes]
  rfl

theorem put_put (f : File) (a b : List UInt8) : (f.put a).put b = f.put (a ++ b) := by
  have hp := f.pos_le
  have h1 : (f.bytes.take f.pos ++ a).length = f.pos + a.length := by
    rw [List.length_append, List.length_take]
    omega
  have h2 : (f.bytes.take f.pos ++ a ++ f.bytes.drop (f.pos + a.length)).take (f.pos + a.length) =
      f.bytes.take f.pos ++ a := by
    rw [← h1, List.take_left]
  have h3 : (f.bytes.take f.pos ++ a ++ f.bytes.drop (f.pos + a.length)).drop
      (f.pos + a.length + b.length) = f.bytes.drop (f.pos + (a.length + b.length)) := by
    rw [← h1, List.drop_append, List.drop_eq_nil_of_le (Nat.le_add_right _ _), List.nil_append,
      List.drop_drop]
    congr 1
    omega
  simp only [put, File.mk.injEq, and_true]
  rw [h2, h3, List.length_append]
  exact ⟨by simp only [List.append_assoc], by omega⟩

theorem write_write (f : File) (a b : List UInt8) : (f.write a).write b = f.write (a ++ b) := by
  cases hclosed : f.closed with
  | true =>
    have hlate : ∀ data, f.write data = { f with late := f.late ++ data } := fun data =>
      if_pos hclosed
    rw [hlate, hlate, write, if_pos (by exact hclosed), List.append_assoc]
  | false =>
    rw [write_of_open hclosed, write_of_open hclosed, write_of_open (by exact hclosed), put_put]

theorem put_bytes_of_pos {f : File} (h : f.pos = f.bytes.length) (data : List UInt8) :
    (f.put data).bytes = f.bytes ++ data := by
  simp [put, h]

theorem put_pos {f : File} (h : f.pos = f.bytes.length) (data : List UInt8) :
    (f.put data).pos = (f.put data).bytes.length := by
  rw [put_bytes_of_pos h, List.length_append, ← h]
  rfl

theorem fwrite_of_result {f : File} {accepted : Nat} {buffer : List UInt8}
    (h : (f.fwrite accepted buffer).1 = buffer.length) :
    f.fwrite accepted buffer = (buffer.length, f.write buffer) := by
  have hm : min accepted buffer.length = buffer.length := h
  rw [fwrite, hm, List.take_length]

end File

/-- The part of `struct sockaddr_in6` that identifies a client. -/
structure Address where
  port : UInt16
  ip : Vector UInt8 16
  deriving DecidableEq

structure Client where
  active : Bool
  outFile : File
  address : Address
  window : Buf
  id : UInt32
  lastTimestamp : UInt32
  endTime : Option Nat
  transferred : UInt64

/-- `initialize_client`, every allocation and `fopen` succeeding. -/
def initializeClient (id : UInt32) (address : Address) : Client :=
  { active := true, outFile := .fopen, address := address, window := initializeBuffer, id := id,
    lastTimestamp := 0, endTime := none, transferred := 0 }

/-- `deallocate_client`: what it does to a client before it frees it. -/
def deallocateClient (client : Client) : Client :=
  if client.active then { client with outFile := client.outFile.fclose } else client

@[simp] theorem deallocateClient_address (client : Client) :
    (deallocateClient client).address = client.address := by
  unfold deallocateClient
  split_ifs <;> rfl

theorem deallocateClient_of_inactive {client : Client} (h : client.active = false) :
    deallocateClient client = client := by
  rw [deallocateClient, h]
  rfl

/-! ## Streams that are used again -/

section

variable {κ : Type} [DecidableEq κ]

/-- What becomes of bytes that the client `c` writes through the pointer to its stream when this
has been closed: `fopen` may have given the `FILE` to another client since, and then they go to
the file of this one.  `reuses` are the clients that have been given it. -/
def passOn (reuses : κ → Bool) (late : List UInt8) (clients : κ → Client) (c : κ) : κ → Client :=
  fun c' =>
    if c' ≠ c ∧ reuses c' = true ∧ (clients c').outFile.closed = false then
      { clients c' with outFile := (clients c').outFile.put late }
    else clients c'

/-- The clients when a request has made `client` of the client `c`. -/
def writeBack (reuses : κ → Bool) (clients : κ → Client) (c : κ) (client : Client) : κ → Client :=
  passOn reuses (client.outFile.late.drop (clients c).outFile.late.length)
    (Function.update clients c client) c

variable (reuses : κ → Bool) (clients : κ → Client) (c : κ) (client : Client)

theorem writeBack_self : writeBack reuses clients c client c = client := by
  unfold writeBack passOn
  rw [if_neg fun h => h.1 rfl, Function.update_self]

/-- Bytes may get into the files of the other clients.  Nothing else happens to them. -/
theorem writeBack_of_ne {c' : κ} (h : c' ≠ c) : ∃ outFile : File,
    outFile.closes = (clients c').outFile.closes ∧
      writeBack reuses clients c client c' = { clients c' with outFile := outFile } := by
  unfold writeBack passOn
  rw [Function.update_of_ne h]
  split_ifs
  · exact ⟨File.put (clients c').outFile _, rfl, rfl⟩
  · exact ⟨(clients c').outFile, rfl, rfl⟩

/-- If the `FILE` has been given to nobody the other clients stay as they are. -/
theorem writeBack_unshared :
    writeBack (fun _ => false) clients c client = Function.update clients c client :=
  funext fun _ => if_neg fun h => Bool.false_ne_true h.2.1

/-- As long as no byte is late the other clients stay as they are. -/
theorem writeBack_of_late (h : client.outFile.late = (clients c).outFile.late) :
    writeBack reuses clients c client = Function.update clients c client := by
  funext c'
  unfold writeBack passOn
  rw [h, List.drop_length]
  split_ifs
  · rw [File.put_nil]
  · rfl

end

end Trtp
