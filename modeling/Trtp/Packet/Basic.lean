import Trtp.Packet.Bytes

/-!
# Packets

`packet_t`, `init_packet`, `pack` and `unpack` of `src/packet.c`.

The CRC routines of `lib/` are a parameter, `Crc`: the code uses them as
functions of the bytes and of the running value, and nothing here depends on
which functions they are.
-/

namespace Trtp

def maxPayloadSize : Nat := 512

inductive Errors where
  | nullArgument
  | packetTooShort
  | packetTooLong
  | packetIncorrectLength
  | typeIsWrong
  | nonDataTruncated
  | crcValidationFailed
  | payloadValidationFailed
  | payloadTooLong
  deriving DecidableEq, Repr

inductive PType where
  | ignore
  | data
  | ack
  | nack
  deriving DecidableEq, Repr

/-- The two bits of a type on the wire. -/
def PType.code : PType → UInt8
  | .ignore => 0
  | .data => 1
  | .ack => 2
  | .nack => 3

/-- The type stored by `out->type = (header & 0xC0) >> 6`. -/
def PType.ofCode (c : UInt8) : PType :=
  if c = 0 then .ignore else if c = 1 then .data else if c = 2 then .ack else .nack

/-- The array `payload[MAX_PAYLOAD_SIZE]`. -/
structure Payload where
  bytes : List UInt8
  size : bytes.length = maxPayloadSize
  deriving DecidableEq

namespace Payload

def zero : Payload := ⟨List.replicate maxPayloadSize 0, by simp⟩

/-- `memcpy(payload, src, n)` for the `n` bytes of `src`.  Bytes past the end of
the array are dropped; the code never copies more than `MAX_PAYLOAD_SIZE`. -/
def copy (p : Payload) (src : List UInt8) : Payload :=
  ⟨src.take maxPayloadSize ++ p.bytes.drop src.length, by
    have := p.size
    simp only [List.length_append, List.length_take, List.length_drop]
    omega⟩

theorem take_copy (p : Payload) {src : List UInt8} (h : src.length ≤ maxPayloadSize) :
    (p.copy src).bytes.take src.length = src := by
  show (src.take maxPayloadSize ++ p.bytes.drop src.length).take src.length = src
  rw [List.take_of_length_le h, List.take_left]

end Payload

structure Packet where
  type : PType
  truncated : Bool
  window : UInt8
  longLength : Bool
  length : UInt16
  seqnum : UInt8
  timestamp : UInt32
  crc1 : UInt32
  crc2 : UInt32
  payload : Payload
  deriving DecidableEq

namespace Packet

def data (p : Packet) : List UInt8 := p.payload.bytes.take p.length.toNat

/-- The test `type == DATA && !truncated && length != 0`: the packet is followed
by a payload and its CRC. -/
def hasPayload (p : Packet) : Bool := p.type = .data ∧ p.truncated = false ∧ p.length ≠ 0

end Packet

def initPacket : Packet :=
  { type := .ignore, truncated := false, window := 0, longLength := false, length := 0,
    seqnum := 0, timestamp := 0, crc1 := 0, crc2 := 0, payload := .zero }

/-- The two routines of `lib/Crc32.cpp` in use, each on the bytes and the
previous value. -/
structure Crc where
  crc32_8bytes : List UInt8 → UInt32 → UInt32
  crc32_16bytes : List UInt8 → UInt32 → UInt32

/-- The macro `CRC32H`, used on headers. -/
def crc32H (crc : Crc) (old : UInt32) (value : List UInt8) : UInt32 := crc.crc32_8bytes value old

/-- The macro `CRC32P`, used on payloads. -/
def crc32P (crc : Crc) (old : UInt32) (value : List UInt8) : UInt32 := crc.crc32_16bytes value old

section Pack

variable (crc : Crc)

/-- The length field of `pack`: two bytes when `long_length` is set, one
otherwise.  The second of the two is `len >> 7` of the swapped length. -/
def packLength (inp : Packet) : List UInt8 :=
  if inp.longLength then
    let len := htons inp.length
    [(0x80 ||| (len &&& 0x7F)).toUInt8, (len >>> 7).toUInt8]
  else
    [(inp.length &&& 0x7F).toUInt8]

/-- The header byte before the TR bit is set. -/
def packHeader (inp : Packet) : UInt8 := (inp.type.code <<< 6) ||| (inp.window &&& 0x1F)

/-- The bytes between the header byte and `crc1`. -/
def packFields (inp : Packet) : List UInt8 :=
  packLength inp ++ inp.seqnum :: bytesOfU32 (htonl inp.timestamp)

def packPayload (inp : Packet) (recomputeCrc2 : Bool) : List UInt8 :=
  if !inp.truncated && inp.type = .data && inp.length > 0 then
    let crc2 := if recomputeCrc2 then htonl (crc32P crc 0 inp.data) else ntohl inp.crc2
    inp.data ++ bytesOfU32 crc2
  else
    []

/-- `pack`: the bytes written to the buffer, in order.  `crc1` covers the header
before the TR bit is set. -/
def pack (inp : Option Packet) (recomputeCrc2 : Bool) : Except Errors (List UInt8) :=
  match inp with
  | none => .error .nullArgument
  | some inp =>
    let crc1 := htonl (crc32H crc 0 (packHeader inp :: packFields inp))
    let truncated : UInt8 := if inp.truncated then 1 else 0
    let header := packHeader inp ||| (truncated <<< 5)
    .ok (header :: packFields inp ++ bytesOfU32 crc1 ++ packPayload crc inp recomputeCrc2)

end Pack

/-- What a call of `unpack` leaves behind: the return value, with `errno` when
it is not zero, and the output packet, which is partly written on failure. -/
structure Unpacked where
  ret : Except Errors Unit
  out : Packet

section Unpack

variable (crc : Crc) (packet : List UInt8)

def byteAt (i : Nat) : UInt8 := packet.getD i 0

def bytesAt (i n : Nat) : List UInt8 := (List.range n).map fun k => byteAt packet (i + k)

/-- `ntohl(U32_FROM_BUFFER(buffer))` with `buffer` at offset `i`. -/
def wordAt (i : Nat) : UInt32 :=
  ntohl (u32FromBytes (byteAt packet i) (byteAt packet (i + 1)) (byteAt packet (i + 2))
    (byteAt packet (i + 3)))

/-- The checks of `unpack` after the payload has been read. -/
def unpackChecks (lengthRest : Int) (out : Packet) : Unpacked :=
  if lengthRest > 0 then ⟨.error .packetTooLong, out⟩
  else if out.type = .ignore then ⟨.error .typeIsWrong, out⟩
  else if out.type ≠ .data ∧ out.truncated then ⟨.error .nonDataTruncated, out⟩
  else if out.length.toNat > maxPayloadSize then ⟨.error .payloadTooLong, out⟩
  -- The type is not tested here: an ACK with a length is checked against the
  -- payload and `crc2` that `out` held before the call.
  else if out.length > 0 ∧ !out.truncated ∧ out.crc2 ≠ crc32P crc 0 out.data then
    ⟨.error .payloadValidationFailed, out⟩
  else ⟨.ok (), out⟩

/-- `unpack` from the CRC validation of the header on.  `buffer` is the offset
of the payload. -/
def unpackPayload (buffer : Nat) (lengthRest : Int) (out : Packet) : Unpacked :=
  if lengthRest = 0 ∧ out.hasPayload then ⟨.error .packetTooShort, out⟩
  else if out.length.toNat > maxPayloadSize then ⟨.error .packetIncorrectLength, out⟩
  else if out.hasPayload then
    let lengthRest := lengthRest - out.length.toNat
    if lengthRest < 4 then ⟨.error .packetTooShort, out⟩
    else
      let out := { out with payload := out.payload.copy (bytesAt packet buffer out.length.toNat) }
      let lengthRest := lengthRest - 4
      if lengthRest < 0 then ⟨.error .packetTooShort, out⟩
      else
        let out := { out with crc2 := wordAt packet (buffer + out.length.toNat) }
        unpackChecks crc lengthRest out
  else unpackChecks crc lengthRest out

/-- `unpack` from the sequence number on.  `buffer` is the offset reached and
`isLong` the L bit.  The header CRC is computed with the TR bit of the first
byte cleared; `unpack` clears it in the caller's buffer, which nobody reads
again. -/
def unpackFields (isLong : Bool) (buffer : Nat) (lengthRest : Int) (out : Packet) : Unpacked :=
  let lengthRest := lengthRest - 1
  if lengthRest ≤ 0 then ⟨.error .packetTooShort, out⟩
  else
    let out := { out with seqnum := byteAt packet buffer }
    let buffer := buffer + 1
    let lengthRest := lengthRest - 4
    if lengthRest ≤ 0 then ⟨.error .packetTooShort, out⟩
    else
      let out := { out with timestamp := wordAt packet buffer }
      let buffer := buffer + 4
      let lengthRest := lengthRest - 4
      if lengthRest < 0 then ⟨.error .packetTooShort, out⟩
      else
        let out := { out with crc1 := wordAt packet buffer }
        let buffer := buffer + 4
        let len := 7 + (if isLong then 1 else 0)
        let raw := (byteAt packet 0 &&& 0xDF) :: bytesAt packet 1 (len - 1)
        if out.crc1 ≠ crc32H crc 0 raw then ⟨.error .crcValidationFailed, out⟩
        else unpackPayload crc packet buffer lengthRest out

def unpack (length : Int) (out : Packet) : Unpacked :=
  let lengthRest := length - 1
  if lengthRest ≤ 0 then ⟨.error .packetTooShort, out⟩
  else
    let header := byteAt packet 0
    let out := { out with
      type := .ofCode ((header &&& 0xC0) >>> 6)
      truncated := (header &&& 0x20) >>> 5 ≠ 0
      window := header &&& 0x1F }
    let lengthRest := lengthRest - 1
    if lengthRest ≤ 0 then ⟨.error .packetTooShort, out⟩
    else
      let size := byteAt packet 1
      let isLong : Bool := (size &&& 0x80) >>> 7 ≠ 0
      if isLong then
        let lengthRest := lengthRest - 1
        if lengthRest ≤ 0 then ⟨.error .packetTooShort, out⟩
        else
          let word := (size &&& 0x7F).toUInt16 ||| ((byteAt packet 2).toUInt16 <<< 8)
          unpackFields crc packet isLong 3 lengthRest
            { out with longLength := isLong, length := ntohs word }
      else
        unpackFields crc packet isLong 2 lengthRest
          { out with length := (size &&& 0x7F).toUInt16, longLength := false }

end Unpack

end Trtp
