import HyperMuduo.Buffer.Model
import HyperMuduo.Lib.Bytes

/-!
# The protobuf codec as the code computes it

Model of `net/protobuf/Codec`, `net/protobuf/Dispatcher` and `ProtobufHandler::OnMessage`. A frame is

    total_len | name_len | name | payload | checksum

with the three numbers as big-endian `int32_t`; `total_len` counts what follows it. `Encode` writes
behind the write cursor and then moves it, `Decode` reads at the read cursor and consumes at the end;
both are on `Buffer` with its faults. Signed and unsigned conversions are where the code makes them:
`int32_t` values are `Int`, `toInt32` is the cast to it, `ofInt64` the conversion to `size_t`.

Protobuf and zlib are parameters (`Protobuf`). A `std::function` is empty or user code, which returns
or raises (`Callback`).
-/

namespace HyperMuduo.Net

open HyperMuduo.Lib

variable {M : Type}

/-- What the codec uses of protobuf and zlib; `M` are the messages. -/
structure Protobuf (M : Type) where
  getTypeName : M → List Byte
  byteSizeLong : M → Nat
  /-- `SerializeToArray(data, size)`: the bytes it writes at `data`, `none` when it returns `false`. -/
  serializeToArray : M → Int → Option (List Byte)
  /-- Whether the generated pool has a message type of this name. -/
  hasMessageType : List Byte → Bool
  /-- `ParseFromArray` on a new message of the named type. -/
  parseFromArray : List Byte → List Byte → Option M
  /-- `adler32(1L, ...)`. -/
  adler32 : List Byte → Nat

namespace Codec

def int32Size : Nat := 4

def headerLen : Nat := int32Size

def nameLenSize : Nat := int32Size

def checksumLen : Nat := int32Size

def minLen : Nat := 9

@[irreducible] def maxLen : Nat := 64 * 1024 * 1024

inductive DecodeState where
  | success
  | incomplete
  | checksumError
  | invalidName
  | decodeError
  deriving DecidableEq, Repr

def calculateAdler32 (P : Protobuf M) (bytes : List Byte) : Int := toInt32 (P.adler32 bytes)

/-- The `int32_t` copied from `peek() + off` and brought to host order. -/
def peekInt32 (b : Buffer) (off : Nat) : Except Fault Int := do
  let bytes ← b.peek off int32Size
  return toInt32 (ofBe32 bytes)

/-- `Decode` on a complete frame: what follows the test for completeness. -/
def decodeFrame (P : Protobuf M) (b : Buffer) (totalLen : Int) :
    Except Fault (DecodeState × Option M × Buffer) := do
  let frameLen := wadd headerLen (ofInt64 totalLen)
  let expectedChecksum ← peekInt32 b (wsub frameLen checksumLen)
  let checked ← b.peek headerLen (wsub (ofInt64 totalLen) checksumLen)
  if calculateAdler32 P checked ≠ expectedChecksum then
    return (.checksumError, none, b.retrieve frameLen)
  else do
    let nameLen ← peekInt32 b headerLen
    if nameLen ≤ 0 ∨ toInt32 (wsub (wsub (ofInt64 totalLen) nameLenSize) checksumLen) < nameLen then
      return (.decodeError, none, b.retrieve frameLen)
    else do
      let name ← b.peek (headerLen + nameLenSize) (ofInt64 nameLen)
      if !P.hasMessageType name then return (.invalidName, none, b.retrieve frameLen)
      else do
        let serializedDataOffset := wadd (headerLen + nameLenSize) (ofInt64 nameLen)
        let serializedDataLen :=
          wsub (wsub (wsub (ofInt64 totalLen) nameLenSize) (ofInt64 nameLen)) checksumLen
        let data ← b.peek serializedDataOffset serializedDataLen
        match P.parseFromArray name data with
        | none => return (.decodeError, none, b.retrieve frameLen)
        | some m => return (.success, some m, b.retrieve frameLen)

/-- `Decode`: the state, the message, and the buffer after the call. -/
def decode (P : Protobuf M) (b : Buffer) : Except Fault (DecodeState × Option M × Buffer) :=
  if b.readableBytes < headerLen then .ok (.incomplete, none, b)
  else do
    let totalLen ← peekInt32 b 0
    if totalLen < minLen ∨ maxLen < totalLen then return (.decodeError, none, b.retrieveAll)
    else if b.readableBytes < wadd headerLen (ofInt64 totalLen) then return (.incomplete, none, b)
    else decodeFrame P b totalLen

/-- Copy `data` to `beginWrite() + pos`, for an `int` position. -/
def writeTo (b : Buffer) (pos : Int) (data : List Byte) : Except Fault Buffer :=
  if 0 ≤ pos then b.writeAt pos.toNat data
  else if 0 ≤ (b.writeIndex : Int) + pos then do
    let buffer ← vecWrite b.buffer ((b.writeIndex : Int) + pos).toNat data
    return { b with buffer := buffer }
  else .error .outOfBounds

/-- `Encode`. -/
def encode (P : Protobuf M) (msg : M) (out : Buffer) : Except Fault Buffer := do
  let typeName := P.getTypeName msg
  let payloadSize := toInt32 (P.byteSizeLong msg)
  let nameLen := toInt32 typeName.length
  let totalSize := toInt32
    (wadd (wadd (wadd nameLenSize (ofInt64 nameLen)) (ofInt64 payloadSize)) checksumLen)
  let out ← out.ensureWritableBytes (wadd (ofInt64 totalSize) headerLen)
  let out ← writeTo out 0 (be32 (ofInt32 totalSize))
  let out ← writeTo out headerLen (be32 (ofInt32 nameLen))
  let out ← writeTo out (headerLen + nameLenSize : Nat) typeName
  let pos : Int := (headerLen + nameLenSize : Nat) + nameLen
  match P.serializeToArray msg payloadSize with
  | none => return out
  | some payload => do
    let out ← writeTo out pos payload
    let checked ← vecRead out.buffer (out.writeIndex + headerLen)
      (wsub (ofInt64 totalSize) checksumLen % 2 ^ 32)
    let secret := calculateAdler32 P checked
    let out ← writeTo out (pos + payloadSize) (be32 (ofInt32 secret))
    return out.hasWritten (wadd (ofInt64 totalSize) headerLen)

end Codec

/-! ## `Dispatcher` and `ProtobufHandler` -/

/-- A `std::function` on messages: empty, or user code. -/
abbrev Callback (M : Type) := Option (M → Except Fault Unit)

/-- Calling an empty `std::function` raises. -/
def Callback.call (cb : Callback M) (msg : M) : Except Fault Unit :=
  match cb with
  | none => .error .badFunctionCall
  | some f => f msg

/-- `dispatcher_map_`, by type name, and `default_cb_`. -/
structure Dispatcher (M : Type) where
  dispatcherMap : List Byte → Option (Callback M)
  defaultCb : Callback M

def Dispatcher.dispatch (P : Protobuf M) (d : Dispatcher M) (msg : M) : Except Fault Unit :=
  match d.dispatcherMap (P.getTypeName msg) with
  | some cb => cb.call msg
  | none => d.defaultCb.call msg

namespace ProtobufHandler

open Codec

/-- The loop of `OnMessage`: the buffer after it, and the messages dispatched in it. -/
def onMessageLoop (P : Protobuf M) (d : Dispatcher M) : Nat → Buffer → Except Fault (Buffer × List M)
  | 0, buffer => .ok (buffer, [])
  | fuel + 1, buffer =>
    if headerLen ≤ buffer.readableBytes then do
      let (state, msg, buffer) ← decode P buffer
      match state, msg with
      | .incomplete, _ => return (buffer, [])
      | .success, some msg => do
        d.dispatch P msg
        let (buffer, msgs) ← onMessageLoop P d fuel buffer
        return (buffer, msg :: msgs)
      -- `Dispatch` would follow a null `MessagePtr`
      | .success, none => .error .invalidPointer
      | _, _ => return (buffer, [])
    else .ok (buffer, [])

/-- `OnMessage`. An iteration that goes on has consumed a frame, so the readable bytes bound their
number (`onMessageLoop_fuel`). -/
def onMessage (P : Protobuf M) (d : Dispatcher M) (buffer : Buffer) :
    Except Fault (Buffer × List M) :=
  onMessageLoop P d buffer.readableBytes buffer

/-- A chunk arrives: it is appended to the buffer, and `OnMessage` is called. -/
def receive (P : Protobuf M) (d : Dispatcher M) (buffer : Buffer) (chunk : List Byte) :
    Except Fault (Buffer × List M) := do
  let buffer ← buffer.append chunk
  onMessage P d buffer

/-- The chunks arrive one after another. -/
def receiveAll (P : Protobuf M) (d : Dispatcher M) :
    Buffer → List (List Byte) → Except Fault (Buffer × List M)
  | buffer, [] => .ok (buffer, [])
  | buffer, chunk :: chunks => do
    let (buffer, msgs) ← receive P d buffer chunk
    let (buffer, msgs') ← receiveAll P d buffer chunks
    return (buffer, msgs ++ msgs')

end ProtobufHandler

end HyperMuduo.Net
