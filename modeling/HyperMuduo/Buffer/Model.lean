import HyperMuduo.Lib.Vector
import HyperMuduo.Lib.Word

/-!
# `Buffer` as the code computes it

Model of `net/Buffer.hpp` and `net/Buffer.cpp`: a byte vector with a read and a write cursor.
`size_t` values are `Nat` and every `size_t` operation is the wrapped one (`wadd`, `wsub`), in the
order the code performs it; in particular `makeSpace` computes `read_index_ - CHEAP_PREPEND`
modulo `2 ^ 64`. The vector is a list of bytes, `std::copy`, `std::move` and the kernel's `readv`
write through `vecWrite`, and reads through `peek()` are `vecRead`, so an access outside the vector
is the fault `outOfBounds`.

The kernel's answers are arguments: `readFd` takes what `readv` delivered (`none` for `-1`), and
`writeFd` what `write` returned (`-1` or the number of bytes taken).
-/

namespace HyperMuduo.Net

open HyperMuduo.Lib

/-- A `char` of a buffer. -/
abbrev Byte := UInt8

structure Buffer where
  buffer : List Byte
  writeIndex : Nat
  readIndex : Nat
  deriving DecidableEq, Repr

namespace Buffer

def cheapPrepend : Nat := 8

def initializeSize : Nat := 1024

/-- `Buffer(size_t initialize_size)`. -/
def construct (initializeSize : Nat) : Except Fault Buffer := do
  let buffer ← vecResize 0 [] (wadd cheapPrepend initializeSize)
  return ⟨buffer, cheapPrepend, cheapPrepend⟩

/-- `Buffer()`: the constructor at its default argument. -/
def fresh : Buffer :=
  ⟨List.replicate (cheapPrepend + initializeSize) 0, cheapPrepend, cheapPrepend⟩

def size (b : Buffer) : Nat := b.buffer.length

def readableBytes (b : Buffer) : Nat := wsub b.writeIndex b.readIndex

def writableBytes (b : Buffer) : Nat := wsub b.size b.writeIndex

def prependableBytes (b : Buffer) : Nat := b.readIndex

/-- The `len` bytes at `peek() + off`. -/
def peek (b : Buffer) (off len : Nat) : Except Fault (List Byte) :=
  vecRead b.buffer (b.readIndex + off) len

def retrieveAll (b : Buffer) : Buffer :=
  { b with writeIndex := cheapPrepend, readIndex := cheapPrepend }

def retrieve (b : Buffer) (len : Nat) : Buffer :=
  if b.readableBytes ≤ len then b.retrieveAll
  else { b with readIndex := wadd b.readIndex len }

def retrieveAsString (b : Buffer) (len : Nat) : Except Fault (List Byte × Buffer) := do
  let msg ← b.peek 0 len
  return (msg, b.retrieve len)

def retrieveAllAsString (b : Buffer) : Except Fault (List Byte × Buffer) := do
  let msg ← b.peek 0 b.readableBytes
  return (msg, b.retrieveAll)

/-- `makeSpace`: slide the readable bytes down to `CHEAP_PREPEND` when that frees enough room, else
grow the vector. -/
def makeSpace (b : Buffer) (len : Nat) : Except Fault Buffer :=
  let spaceLeft := wadd b.writableBytes (wsub b.readIndex cheapPrepend)
  if len ≤ spaceLeft then do
    let lenData := b.readableBytes
    let data ← vecRead b.buffer b.readIndex lenData
    let buffer ← vecWrite b.buffer cheapPrepend data
    return ⟨buffer, wadd cheapPrepend lenData, cheapPrepend⟩
  else do
    let buffer ← vecResize 0 b.buffer (wadd b.writeIndex len)
    return { b with buffer := buffer }

def ensureWritableBytes (b : Buffer) (len : Nat) : Except Fault Buffer :=
  if len ≤ b.writableBytes then .ok b else b.makeSpace len

/-- Copy `data` to `beginWrite() + off`, leaving the cursors alone. -/
def writeAt (b : Buffer) (off : Nat) (data : List Byte) : Except Fault Buffer := do
  let buffer ← vecWrite b.buffer (b.writeIndex + off) data
  return { b with buffer := buffer }

def hasWritten (b : Buffer) (len : Nat) : Buffer :=
  { b with writeIndex := wadd b.writeIndex len }

def append (b : Buffer) (data : List Byte) : Except Fault Buffer := do
  let b ← b.ensureWritableBytes data.length
  let b ← b.writeAt 0 data
  return b.hasWritten data.length

def prepend (b : Buffer) (data : List Byte) : Except Fault Buffer :=
  if b.prependableBytes < data.length then .ok b
  else do
    let readIndex := wsub b.readIndex data.length
    let buffer ← vecWrite b.buffer readIndex data
    return { b with buffer := buffer, readIndex := readIndex }

/-- `swap`: the two buffers after the call. -/
def swap (b other : Buffer) : Buffer × Buffer := (other, b)

/-- `readFd`. The kernel fills the writable range first and the 65536 bytes of `extra_arr` after
it; what landed in `extra_arr` is appended. -/
def readFd (b : Buffer) (delivered : Option (List Byte)) : Except Fault Buffer :=
  match delivered with
  | none => .ok b
  | some data => do
    let writable := b.writableBytes
    let b ← b.writeAt 0 (data.take writable)
    if data.length ≤ writable then
      return { b with writeIndex := wadd b.writeIndex data.length }
    else
      append { b with writeIndex := b.size } (data.drop writable)

/-- The capacity of `extra_arr`. -/
def extraSize : Nat := 65536

/-- `writeFd`, for the value `n` that `write` returned. -/
def writeFd (b : Buffer) (n : Int) : Buffer :=
  if n < 0 then b else b.retrieve n.toNat

/-- The bytes between the cursors. -/
def readable (b : Buffer) : List Byte :=
  (b.buffer.drop b.readIndex).take (b.writeIndex - b.readIndex)

end Buffer

end HyperMuduo.Net
