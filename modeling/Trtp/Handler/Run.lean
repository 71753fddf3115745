import Trtp.Handler.Client

/-!
# The handler

`hd_run_once` of `src/handler.c`.  A request carries the datagrams of one
client.  The handler decodes them one by one into its scratch packet, buffers or
answers each, then writes the packets at the low end of the window to the file,
moves the window and acknowledges them all at once.

`handleRequest` is the part of the function that runs under the client's lock,
with the `sendmmsg` after it; `hdRunOnce` adds what happens around it.
-/

namespace Trtp

/-- One of the pairs `req->buffer[i]`, `req->lengths[i]`. -/
structure Datagram where
  buffer : List UInt8
  length : UInt16

/-- `hd_req_t`, for client references of type `κ`. -/
structure HdReq (κ : Type) where
  stop : Bool
  client : κ
  datagrams : List Datagram
  num_le : datagrams.length ≤ maxWindowSize

/-- The field of `hd_cfg_t` that the handler reads. -/
structure HdCfg where
  maxWindowSize : Int

/-- What one call of `hd_run_once` takes from its surroundings: the number of
bytes `fwrite` manages to write, the contents of the uninitialised locals
`to_send` and `remove`, and the time. -/
structure Env where
  accepted : Nat
  toSend : Packet
  remove : Bool
  now : Nat

/-- An entry of `packets_to_send` with its `msg_name`, and the packet it was
packed from. -/
structure Reply where
  toSend : Packet
  bytes : List UInt8
  msgName : Address

def minWindow (max free : Int) : Int := if max > free then free else max

section

variable (crc : Crc) (cfg : HdCfg)

/-- Fill in a reply and pack it.  An entry that cannot be packed is dropped. -/
def emit (client : Client) (toSend : Packet) (type : PType) (window : Int) (seqnum : UInt8)
    (timestamp : UInt32) (replies : List Reply) : List Reply :=
  let toSend := { toSend with
    type := type, truncated := false, longLength := false, length := 0
    window := UInt8.ofNat (window % 256).toNat, seqnum := seqnum, timestamp := timestamp }
  match pack crc (some toSend) false with
  | .ok bytes => replies ++ [{ toSend := toSend, bytes := bytes, msgName := client.address }]
  | .error _ => replies

/-- `min(cfg->max_window_size, MAX_WINDOW_SIZE - window->length)`. -/
def freeWindow (window : Buf) : Int :=
  minWindow cfg.maxWindowSize ((Trtp.maxWindowSize : Int) - window.length.toNat)

def emitAck (client : Client) (toSend : Packet) (timestamp : UInt32) (replies : List Reply) :
    List Reply :=
  emit crc client toSend .ack (freeWindow cfg client.window) client.window.windowLow timestamp
    replies

/-- The NACK of a truncated packet.  Its window is computed from `window_low`
where the ACKs use `length`. -/
def emitNack (client : Client) (toSend decoded : Packet) (replies : List Reply) : List Reply :=
  emit crc client toSend .nack
    (minWindow cfg.maxWindowSize ((Trtp.maxWindowSize : Int) - client.window.windowLow.toNat))
    decoded.seqnum decoded.timestamp replies

structure Intake where
  client : Client
  decoded : Packet
  lastTimestamp : UInt32
  replies : List Reply

/-- Put the scratch packet into the slot of its sequence number and take over
the packet that was there. -/
def Intake.store (s : Intake) : Intake :=
  let (window, spot) := next s.client.window s.decoded.seqnum
  let temp := (window.nodes spot).value
  let nodes := Function.update window.nodes spot { window.nodes spot with value := s.decoded }
  { s with client := { s.client with window := { window with nodes := nodes } }, decoded := temp }

/-- The body of the loop over the datagrams. -/
def intake (env : Env) (s : Intake) (d : Datagram) : Intake :=
  let r := unpack crc d.buffer d.length.toNat s.decoded
  let s := { s with decoded := r.out }
  match r.ret with
  | .error _ =>
    { s with replies := emitAck crc cfg s.client env.toSend s.client.lastTimestamp s.replies }
  | .ok _ =>
    let s := { s with lastTimestamp := s.decoded.timestamp }
    if !s.client.active then
      { s with replies := emitAck crc cfg s.client env.toSend s.decoded.timestamp s.replies }
    else if s.decoded.type = .data then
      if s.decoded.truncated then
        { s with replies := emitNack crc cfg s.client env.toSend s.decoded s.replies }
      else if !sequences s.client.window.windowLow s.decoded.seqnum then
        { s with replies := emitAck crc cfg s.client env.toSend s.decoded.timestamp s.replies }
      else if isUsed s.client.window s.decoded.seqnum then
        { s with replies := emitAck crc cfg s.client env.toSend s.decoded.timestamp s.replies }
      else s.store
    else s

end

/-- The variables of the delivery loop.  `fileBuffer` is the part of
`file_buffer` below `offset`; `delivered` records the packets taken and is not in
the code. -/
structure Drain where
  window : Buf
  fileBuffer : List UInt8
  lastTimestamp : UInt32
  cnt : Nat
  i : Nat
  remove : Bool
  delivered : List Packet

/-- The body of the delivery loop.  The second component is `node != NULL`. -/
def drainStep (d : Drain) : Drain × Bool :=
  match get d.window (UInt8.ofNat (d.i % 256)) false with
  | (_, none) => (d, false)
  | (window, some pak) =>
    ({ window := window
       fileBuffer := if pak.length > 0 then d.fileBuffer ++ pak.data else d.fileBuffer
       remove :=
         if pak.length > 0 then false else if pak.length = 0 ∧ !d.remove then true else d.remove
       lastTimestamp := pak.timestamp
       cnt := d.cnt + 1
       i := d.i + 1
       delivered := d.delivered ++ [pak] }, true)

/-- The delivery loop.  `cnt < MAX_WINDOW_SIZE` bounds it by 31 rounds, which is
the fuel it is started with. -/
def drain : Nat → Drain → Drain
  | 0, d => d
  | fuel + 1, d =>
    let (d', found) := drainStep d
    if sequences d'.window.windowLow (UInt8.ofNat (d'.i % 256)) && found &&
        d'.cnt < maxWindowSize && !d'.remove then
      drain fuel d'
    else d'

/-- What a request leaves behind.  `replies` are the messages given to
`sendmmsg`, `delivered` the packets appended to the file, in order, and
`writeFailed` tells that `fwrite` wrote less than it was given. -/
structure Outcome where
  client : Client
  decoded : Packet
  replies : List Reply
  delivered : List Packet
  writeFailed : Bool

section

variable (crc : Crc) (cfg : HdCfg)

/-- The client once its file has taken the packets of the delivery loop: the
window moves past them, and a client whose transfer has ended is closed. -/
def advance (env : Env) (client : Client) (outFile : File) (d : Drain) : Client :=
  let client := { client with
    outFile := outFile
    transferred := client.transferred + UInt64.ofNat d.fileBuffer.length
    window := { d.window with
      length := d.window.length - UInt8.ofNat d.cnt
      windowLow := d.window.windowLow + UInt8.ofNat d.cnt }
    lastTimestamp := d.lastTimestamp }
  if d.remove && client.active then
    { client with active := false, outFile := client.outFile.fclose, endTime := some env.now }
  else client

def deliver (env : Env) (s : Intake) (d : Drain) : Outcome :=
  let (result, outFile) := s.client.outFile.fwrite env.accepted d.fileBuffer
  if result ≠ d.fileBuffer.length then
    -- The slots taken by the loop stay released and `length` still counts them.
    { client := { s.client with window := d.window, outFile := outFile.fseekSet result }
      decoded := s.decoded, replies := [], delivered := [], writeFailed := true }
  else
    let client := advance env s.client outFile d
    { client := client
      decoded := s.decoded
      replies := emitAck crc cfg client env.toSend d.lastTimestamp s.replies
      delivered := d.delivered
      writeFailed := false }

/-- The part of `hd_run_once` between the lock of the client and `sendmmsg`. -/
def handleRequest (env : Env) (client : Client) (decoded : Packet) (datagrams : List Datagram) :
    Outcome :=
  let s := datagrams.foldl (intake crc cfg env)
    { client := client, decoded := decoded, lastTimestamp := client.lastTimestamp, replies := [] }
  let d := drain maxWindowSize
    { window := s.client.window, fileBuffer := [], lastTimestamp := s.lastTimestamp, cnt := 0
      i := s.client.window.windowLow.toNat, remove := env.remove, delivered := [] }
  if d.cnt > 0 then deliver crc cfg env s d
  else
    { client := { s.client with window := d.window }, decoded := s.decoded
      replies := s.replies, delivered := [], writeFailed := false }

/-- The state `hd_run_once` works on: the clients, the scratch packet of the
handler and the flag `exit`. -/
structure HdState (κ : Type) where
  clients : κ → Client
  decoded : Packet
  exit : Bool

/-- What becomes of the node popped from the stream. -/
inductive NodeFate where
  | none
  | freed
  | recycled
  deriving DecidableEq, Repr

/-- What a call of `hd_run_once` meets when there are other clients: also those whose `fopen`
has been given the `FILE` of the client that is served, since this was closed. -/
structure HdEnv (κ : Type) extends Env where
  reuses : κ → Bool

/-- The `FILE` has been given to no other client. -/
def Env.unshared {κ : Type} (env : Env) : HdEnv κ := { env with reuses := fun _ => false }

/-- `hd_run_once`.  `popped` is the node from `cfg->rx`, if any, and the request
in it, if any.  The result is the new state, the messages sent and the fate of
the node. -/
def hdRunOnce {κ : Type} [DecidableEq κ] (env : HdEnv κ) (popped : Option (Option (HdReq κ)))
    (s : HdState κ) : HdState κ × List Reply × NodeFate :=
  match popped with
  | none => (s, [], .none)
  | some none => (s, [], .freed)
  | some (some req) =>
    if req.stop then ({ s with exit := true }, [], .freed)
    else
      let r := handleRequest crc cfg env.toEnv (s.clients req.client) s.decoded req.datagrams
      ({ s with
          clients := writeBack env.reuses s.clients req.client r.client, decoded := r.decoded },
        r.replies, .recycled)

end

end Trtp
