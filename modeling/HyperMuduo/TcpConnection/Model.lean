import HyperMuduo.Buffer.Model
import HyperMuduo.EventLoop.Channel

/-!
# `TcpConnection` as the code computes it

Model of `net/TcpConnection.hpp`, `net/TcpConnection.cpp` and of `Socket::shutdownWrite`. A member
function takes the connection, the calling thread and the kernel's answers, and returns the
connection after the call together with what it asked of the outside, in order (`Effect`): the
poller, the loop's task queue, the socket and the callbacks. Nothing of the connection is written
after a callback returns, so the caller may interpret the effects one by one; a callback may then
re-enter the connection.

* `::write` is given as its return value `w`, `-1` or the number of bytes taken from the front.
* A callback slot that only holds user code is a `Bool` (set or empty). The close callback is the
  library's own: `CloseCallback` says which closure it is, and what it captures.
* A closure queued on the loop captures `self`; `Task` says which function it calls. The
  `const char*` overload captures the pointer, and its task reads the memory when it runs.
* `send_buffer_` and `receive_buffer_` are `Buffer`s, with `Buffer`'s faults.
-/

namespace HyperMuduo.Net

open HyperMuduo.Lib

/-- The caller's memory. -/
abbrev Memory := Nat → Byte

/-- The `len` bytes at `addr`. -/
def Memory.read (m : Memory) (addr len : Nat) : List Byte := (List.range len).map fun i => m (addr + i)

/-- A `Socket`: its descriptor, and which directions are still open. -/
structure Socket where
  fd : Int
  readOpen : Bool
  writeOpen : Bool
  deriving DecidableEq, Repr

/-- `shutdownWrite`: `::shutdown(fd, SHUT_RDWR)`. -/
def Socket.shutdownWrite (s : Socket) : Socket := { s with readOpen := false, writeOpen := false }

namespace TcpConnection

inductive State where
  | connecting
  | connected
  | disconnected
  | disconnecting
  deriving DecidableEq, Repr

/-- The member functions a closure in a slot of `channel_` can call. -/
inductive Handler where
  | handleReadable
  | handleWritable
  deriving DecidableEq, Repr

/-- The closures the library stores in `close_callback_`. -/
inductive CloseCallback where
  /-- `TcpServer`: `[this, conn]`, with `conn` a `shared_ptr`. -/
  | serverRemoveConnection (conn : Nat)
  /-- `TcpClient::onConnection`: `[this]`. -/
  | clientReset
  /-- `~TcpClient`: a closure that only logs. -/
  | clientGone
  deriving DecidableEq, Repr

/-- A closure on a connection, queued on its loop. -/
inductive Task where
  | connectionEstablished
  | connectionDestroyed
  | shutdownInLoop
  /-- `send(std::string)`: the closure owns the string. -/
  | sendString (msg : List Byte)
  /-- `send(Buffer&)`: the closure shares the buffer the bytes were swapped into. -/
  | sendBuffer (buf : Buffer)
  /-- `send(const char*, size_t)`: the closure owns the pointer. -/
  | sendPointer (addr len : Nat)
  | writeCompleteCallback
  | highWaterCallback
  deriving DecidableEq, Repr

/-- What a member function asks of the outside. -/
inductive Effect where
  /-- `loop_.updateChannel(*channel_)`, with the channel's interest at that moment. -/
  | updateChannel (events : PollEvents)
  /-- `loop_.removeChannel(*channel_)`. -/
  | removeChannel
  /-- `loop_.queueInLoop(task)`. -/
  | queueInLoop (task : Task)
  /-- `::write` took these bytes. -/
  | write (bytes : List Byte)
  | shutdownWrite
  /-- `connection_callback_(shared_from_this())`, with what `connected()` answers in it. -/
  | connectionCallback (connected : Bool)
  | messageCallback
  | closeCallback (cb : CloseCallback)
  deriving DecidableEq, Repr

end TcpConnection

open TcpConnection

structure TcpConnection where
  loop : LoopId
  name : String
  state : State
  socket : Socket
  channel : Channel Handler
  receiveBuffer : Buffer
  sendBuffer : Buffer
  messageCallback : Bool
  connectionCallback : Bool
  highWaterMark : Nat
  highWaterCallback : Bool
  writeCompleteCallback : Bool
  closeCallback : Option CloseCallback
  deriving DecidableEq, Repr

namespace TcpConnection

/-- A connection after a call, and the effects of the call. -/
abbrev Result := Except Fault (TcpConnection × List Effect)

/-- The constructor. It installs the read callback of the channel and nothing else. -/
def construct (loop : LoopId) (name : String) (fd : Int) : TcpConnection where
  loop := loop
  name := name
  state := .connecting
  socket := ⟨fd, true, true⟩
  channel := (Channel.construct fd).setReadCallback .handleReadable
  receiveBuffer := .fresh
  sendBuffer := .fresh
  messageCallback := false
  connectionCallback := false
  highWaterMark := 0
  highWaterCallback := false
  writeCompleteCallback := false
  closeCallback := none

def connected (c : TcpConnection) : Bool := c.state = .connected

/-! ## Sending -/

/-- `!channel_->isWriting() && send_buffer_->readableBytes() == 0`. -/
def writesDirectly (c : TcpConnection) : Bool :=
  !c.channel.isWriting && c.sendBuffer.readableBytes == 0

/-- `if (!channel_->isWriting()) channel_->listenTillWritable()`. -/
def raiseWriteInterest (c : TcpConnection) : TcpConnection × List Effect :=
  if c.channel.isWriting then (c, [])
  else
    let c := { c with channel := c.channel.listenTillWritable }
    (c, [.updateChannel c.channel.events])

/-- The high-water check: the task it queues, if any. -/
def highWaterTasks (c : TcpConnection) : List Effect :=
  if c.highWaterCallback && decide (c.highWaterMark ≤ c.sendBuffer.readableBytes) then
    [.queueInLoop .highWaterCallback]
  else []

def writeCompleteTasks (c : TcpConnection) : List Effect :=
  if c.writeCompleteCallback then [.queueInLoop .writeCompleteCallback] else []

/-- The `n_write` of `sendInLoop(const char*, size_t)`: a failed write is logged and counts as zero
bytes. -/
def directlyWritten (c : TcpConnection) (w : Int) : Nat := if c.writesDirectly then w.toNat else 0

/-- What the direct write of `sendInLoop(const char*, size_t)` does: bytes taken, and the
write-complete task when it took them all. -/
def directWrite (c : TcpConnection) (msg : List Byte) (w : Int) : List Effect :=
  if c.writesDirectly && decide (0 ≤ w) then
    .write (msg.take w.toNat) :: (if w.toNat < msg.length then [] else c.writeCompleteTasks)
  else []

/-- `sendInLoop(const char*, size_t)`; `sendInLoop(const std::string&)` calls it with the string's
bytes. -/
def sendInLoop (c : TcpConnection) (t : ThreadId) (msg : List Byte) (w : Int) : Result := do
  assertInLoopThread c.loop t
  if c.directlyWritten w < msg.length then do
    let sendBuffer ← c.sendBuffer.append (msg.drop (c.directlyWritten w))
    let (c', raised) := { c with sendBuffer := sendBuffer }.raiseWriteInterest
    return (c', c.directWrite msg w ++ raised ++ c'.highWaterTasks)
  else
    return (c, c.directWrite msg w)

/-- Step 1 of `sendInLoop(Buffer&)`: the direct write, and the caller's buffer after it. -/
def directBufferWrite (c : TcpConnection) (buf : Buffer) (w : Int) :
    Except Fault (Buffer × List Effect) :=
  if c.writesDirectly then do
    let offered ← buf.peek 0 buf.readableBytes
    if 0 ≤ w then return (buf.retrieve w.toNat, [.write (offered.take w.toNat)])
    else return (buf, [])
  else .ok (buf, [])

/-- Step 2 of `sendInLoop(Buffer&)`: `send_buffer_` takes what is left, by a swap when it is empty
and by a copy otherwise. -/
def takeOver (sendBuffer buf : Buffer) : Except Fault (Buffer × Buffer) :=
  if sendBuffer.readableBytes = 0 then .ok (sendBuffer.swap buf)
  else do
    let rest ← buf.peek 0 buf.readableBytes
    let sendBuffer ← sendBuffer.append rest
    return (sendBuffer, buf.retrieveAll)

/-- `sendInLoop(Buffer&)`: also the caller's buffer after the call. -/
def sendBufferInLoop (c : TcpConnection) (t : ThreadId) (buf : Buffer) (w : Int) :
    Except Fault (TcpConnection × Buffer × List Effect) := do
  assertInLoopThread c.loop t
  let (buf, written) ← c.directBufferWrite buf w
  if 0 < buf.readableBytes then do
    let (sendBuffer, buf) ← takeOver c.sendBuffer buf
    let c := { c with sendBuffer := sendBuffer }
    let (c', raised) := c.raiseWriteInterest
    return (c', buf, written ++ c.highWaterTasks ++ raised)
  else
    return (c, buf, written)

/-- The arguments of the three `send` overloads. -/
inductive SendArg where
  | string (msg : List Byte)
  | buffer (buf : Buffer)
  | pointer (addr len : Nat)
  deriving DecidableEq, Repr

/-- The task an overload queues from another thread. -/
def SendArg.task : SendArg → Task
  | .string msg => .sendString msg
  | .buffer buf => .sendBuffer buf
  | .pointer addr len => .sendPointer addr len

/-- The `sendInLoop` an overload calls on the loop thread. -/
def sendArgInLoop (c : TcpConnection) (t : ThreadId) (m : Memory) (arg : SendArg) (w : Int) :
    Result :=
  match arg with
  | .string msg => c.sendInLoop t msg w
  | .pointer addr len => c.sendInLoop t (m.read addr len) w
  | .buffer buf => do
    let (c, _, es) ← c.sendBufferInLoop t buf w
    return (c, es)

/-- The three `send` overloads: nothing unless `Connected`, inline on the loop thread, queued from
another. -/
def send (c : TcpConnection) (t : ThreadId) (m : Memory) (arg : SendArg) (w : Int) : Result :=
  if c.state = .connected then
    if isInLoopThread c.loop t then c.sendArgInLoop t m arg w
    else .ok (c, [.queueInLoop arg.task])
  else .ok (c, [])

/-! ## Shutting down -/

def shutdownInLoop (c : TcpConnection) (t : ThreadId) : Result := do
  assertInLoopThread c.loop t
  if c.state = .connected then
    let c := { c with state := .disconnecting }
    if c.channel.isWriting then return (c, [])
    else return ({ c with socket := c.socket.shutdownWrite }, [.shutdownWrite])
  else return (c, [])

def shutdown (c : TcpConnection) (t : ThreadId) : Result :=
  if c.state = .connected then
    let c := { c with state := .disconnecting }
    if isInLoopThread c.loop t then c.shutdownInLoop t
    else .ok (c, [.queueInLoop .shutdownInLoop])
  else .ok (c, [])

/-! ## Life cycle and events -/

def connectionEstablished (c : TcpConnection) (t : ThreadId) : Result := do
  assertInLoopThread c.loop t
  if c.state = .connecting then
    let c := { c with state := .connected, channel := c.channel.listenTillReadable }
    return (c, .updateChannel c.channel.events ::
      (if c.connectionCallback then [.connectionCallback c.connected] else []))
  else .error .abort

def connectionDestroyed (c : TcpConnection) (t : ThreadId) : Result := do
  assertInLoopThread c.loop t
  let c := { c with state := .disconnected, channel := c.channel.ignoreAll }
  return (c, .updateChannel c.channel.events ::
    (if c.connectionCallback then [.connectionCallback c.connected] else []) ++ [.removeChannel])

def handleClose (c : TcpConnection) (t : ThreadId) : Result := do
  assertInLoopThread c.loop t
  if c.state = .connected ∨ c.state = .disconnecting then
    let c := { c with state := .disconnected, channel := c.channel.ignoreAll }
    match c.closeCallback with
    | some cb => return (c, [.updateChannel c.channel.events, .closeCallback cb])
    | none => .error .badFunctionCall
  else .error .abort

/-- What `readv` did: it failed, or delivered bytes (none at the end of the stream). -/
abbrev ReadResult := Option (List Byte)

def handleReadable (c : TcpConnection) (t : ThreadId) (r : ReadResult) : Result := do
  assertInLoopThread c.loop t
  let receiveBuffer ← c.receiveBuffer.readFd r
  let c := { c with receiveBuffer := receiveBuffer }
  match r with
  | some [] => c.handleClose t
  | some (_ :: _) => return (c, if c.messageCallback then [.messageCallback] else [])
  -- `handleError` only logs
  | none => return (c, [])

def handleWritable (c : TcpConnection) (t : ThreadId) (w : Int) : Result := do
  assertInLoopThread c.loop t
  if c.channel.isWriting then do
    let offered ← c.sendBuffer.peek 0 c.sendBuffer.readableBytes
    if 0 < w then
      let c := { c with sendBuffer := c.sendBuffer.retrieve w.toNat }
      let written : List Effect := [.write (offered.take w.toNat)]
      if c.sendBuffer.readableBytes = 0 then
        let c := { c with channel := c.channel.ignoreWritable }
        let drained := written ++ [.updateChannel c.channel.events] ++ c.writeCompleteTasks
        if c.state = .disconnecting then do
          let (c, es) ← c.shutdownInLoop t
          return (c, drained ++ es)
        else return (c, drained)
      else return (c, written)
    else return (c, [])
  else return (c, [])

/-- The member function a slot of `channel_` calls. -/
def runHandler (c : TcpConnection) (t : ThreadId) (r : ReadResult) (w : Int) : Handler → Result
  | .handleReadable => c.handleReadable t r
  | .handleWritable => c.handleWritable t w

end TcpConnection

end HyperMuduo.Net
