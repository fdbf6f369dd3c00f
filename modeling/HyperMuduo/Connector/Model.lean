import HyperMuduo.EventLoop.Channel

/-!
# `Connector` as the code computes it

Model of `net/Connector.hpp`, `net/Connector.cpp`, and of the parts of `net/Socket` they use. A member
function takes the connector, the calling thread and the kernel's answers (`Kernel`), and returns the
connector after the call together with what it asked of the outside, in order (`Effect`).

* `socket_` is its descriptor. A `Socket` that was moved from is still there, with `INVALID_FD`; its
  destructor closes nothing.
* A `Channel` is named by the number of channels the connector made before it, so that a pointer to a
  destroyed one is never taken for its successor.
* `start`, `stop` and `restart` store to `connect_` and then run a closure; other threads can read and
  write the flag in between. What is given here is the part before, and which closure follows.
* `handleWritable` ends where it calls `new_connection_callback_`; what it does after the callback is
  `afterNewConnection`. The callback may call the connector.
-/

namespace HyperMuduo.Net

open HyperMuduo.Lib

namespace Connector

inductive State where
  | disconnected
  | connecting
  | connected
  deriving DecidableEq, Repr

/-- The member function the closure in the write slot of `channel_` calls. -/
inductive Handler where
  | handleWritable
  deriving DecidableEq, Repr

/-- A closure on the connector. It captures `self`. -/
inductive Task where
  | startInLoop
  | stopInLoop
  deriving DecidableEq, Repr

/-- What `Socket::connect` returns: `0`, or `errno`. -/
inductive ConnectResult where
  | ok
  | einprogress
  | eintr
  | eisconn
  | eagain
  | eaddrinuse
  | eaddrnotavail
  | econnrefused
  | enetunreach
  | other (errno : Int)
  deriving DecidableEq, Repr

/-- What the kernel answers a member function. -/
structure Kernel where
  /-- `::socket`. -/
  socket : Int
  connect : ConnectResult
  /-- `Socket::getSocketError`. -/
  socketError : Int
  deriving DecidableEq, Repr

/-- What a member function asks of the outside. -/
inductive Effect where
  /-- `Socket()`. -/
  | openSocket (fd : Int)
  /-- `~Socket`, of a descriptor that is valid. -/
  | closeSocket (fd : Int)
  /-- `Socket::connect` is called. -/
  | connect (fd : Int)
  /-- `loop_.updateChannel(*channel_)`, with the channel's interest at that moment. -/
  | updateChannel (id : Nat) (fd : Int) (events : PollEvents)
  /-- `loop_.removeChannel(*channel_)`. -/
  | removeChannel (id : Nat) (fd : Int)
  /-- `~Channel`. -/
  | destroyChannel (id : Nat)
  /-- `loop_.runAfter(delay, startInLoop)`, in milliseconds. -/
  | runAfter (delay : Nat)
  /-- `new_connection_callback_(std::move(*socket_))`. -/
  | newConnectionCallback (fd : Int)
  deriving DecidableEq, Repr

end Connector

open Connector

structure Connector where
  loop : LoopId
  /-- `connect_`. -/
  connectFlag : Bool
  newConnectionCallback : Bool
  state : State
  socket : Option Int
  channel : Option (Nat × Channel Handler)
  retryDelay : Nat
  /-- How many channels were made. -/
  channels : Nat
  deriving DecidableEq, Repr

namespace Connector

/-- A connector after a call, and the effects of the call. -/
abbrev Result := Except Fault (Connector × List Effect)

/-- `INVALID_FD`. -/
def invalidFd : Int := -1

/-- `MAX_RETRY_DELAY`, in milliseconds. -/
def maxRetryDelay : Nat := 30000

/-- `DEFAULT_RETRY_DELAY`, in milliseconds. -/
def defaultRetryDelay : Nat := 500

/-- The constructor, and `setNewConnectionCallback` when there is a callback. -/
def construct (loop : LoopId) (newConnectionCallback : Bool) : Connector where
  loop := loop
  connectFlag := false
  newConnectionCallback := newConnectionCallback
  state := .disconnected
  socket := none
  channel := none
  retryDelay := defaultRetryDelay
  channels := 0

def setState (c : Connector) (state : State) : Connector := { c with state := state }

/-! ## Owned objects -/

/-- Destroy the `Socket` of a `unique_ptr`. -/
def destroySocket : Option Int → List Effect
  | none => []
  | some fd => if fd = invalidFd then [] else [.closeSocket fd]

/-- `socket_.reset()`. -/
def resetSocket (c : Connector) : Connector × List Effect :=
  ({ c with socket := none }, destroySocket c.socket)

/-- Destroy the `Channel` of a `unique_ptr`. Its destructor does not deregister it. -/
def destroyChannel : Option (Nat × Channel Handler) → List Effect
  | none => []
  | some (id, _) => [.destroyChannel id]

def resetChannel (c : Connector) (t : ThreadId) : Result :=
  match c.channel with
  | none => .ok (c, [])
  | some (id, ch) => do
    assertInLoopThread c.loop t
    return ({ c with channel := none },
      [.updateChannel id ch.fd ch.ignoreAll.events, .removeChannel id ch.fd, .destroyChannel id])

/-! ## An attempt -/

def retry (c : Connector) : Connector × List Effect :=
  let (c, closed) := (c.setState .disconnected).resetSocket
  let c := { c with retryDelay := min (2 * c.retryDelay) maxRetryDelay }
  (c, closed ++ if c.connectFlag then [.runAfter c.retryDelay] else [])

def connecting (c : Connector) (t : ThreadId) : Result :=
  match c.socket with
  | none => .error .invalidPointer
  | some fd => do
    let ch := ((Channel.construct fd).setWriteCallback Handler.handleWritable).listenTillWritable
    assertInLoopThread c.loop t
    return ({ c with channel := some (c.channels, ch), channels := c.channels + 1 },
      destroyChannel c.channel ++ [.updateChannel c.channels fd ch.events])

/-- `socket_ = std::make_unique<Socket>()` and the call of `Socket::connect`. -/
def openSocket (c : Connector) (fd : Int) : Connector × List Effect :=
  ({ c with socket := some fd }, .openSocket fd :: destroySocket c.socket ++ [.connect fd])

def connect (c : Connector) (t : ThreadId) (k : Kernel) : Result :=
  -- `Socket()` aborts when there is no descriptor
  if k.socket = invalidFd then .error .abort
  else
    let (c, opened) := c.openSocket k.socket
    match k.connect with
    | .ok | .einprogress | .eintr | .eisconn => do
      let (c, es) ← c.connecting t
      return (c, opened ++ es)
    | .eagain | .eaddrinuse | .eaddrnotavail | .econnrefused | .enetunreach =>
      let (c, es) := c.retry
      .ok (c, opened ++ es)
    | .other _ =>
      let (c, closed) := c.resetSocket
      .ok (c.setState .disconnected, opened ++ closed)

def startInLoop (c : Connector) (t : ThreadId) (k : Kernel) : Result := do
  assertInLoopThread c.loop t
  if c.state = .disconnected then (c.setState .connecting).connect t k
  else .error .abort

def stopInLoop (c : Connector) (t : ThreadId) : Result := do
  assertInLoopThread c.loop t
  if c.state = .connecting then do
    let (c, removed) ← c.resetChannel t
    let (c, closed) := c.resetSocket
    return (c.setState .disconnected, removed ++ closed)
  else return (c.setState .disconnected, [])

def execute (c : Connector) (t : ThreadId) (k : Kernel) : Task → Result
  | .startInLoop => c.startInLoop t k
  | .stopInLoop => c.stopInLoop t

/-! ## The event -/

def handleWritable (c : Connector) (t : ThreadId) (err : Int) : Result :=
  match c.socket with
  | none => .error .invalidPointer
  | some fd =>
    if err ≠ 0 then do
      let (c, removed) ← c.resetChannel t
      let (c, closed) := c.resetSocket
      let (c, retried) := c.retry
      return (c, removed ++ closed ++ retried)
    else do
      let (c, removed) ← (c.setState .connected).resetChannel t
      if c.newConnectionCallback then
        return ({ c with socket := some invalidFd }, removed ++ [.newConnectionCallback fd])
      else
        let (c, closed) := c.resetSocket
        return (c, removed ++ closed)

/-- `handleWritable` after `new_connection_callback_` returned. -/
def afterNewConnection (c : Connector) : Connector × List Effect := c.resetSocket

/-! ## Calls -/

/-- `start`, up to `runInLoop`, and the closure for it. -/
def start (c : Connector) : Connector × Task := ({ c with connectFlag := true }, .startInLoop)

/-- `stop`, up to `runInLoop`, and the closure for it. -/
def stop (c : Connector) : Connector × Task := ({ c with connectFlag := false }, .stopInLoop)

/-- `restart`, up to the call of `startInLoop`. -/
def restart (c : Connector) (t : ThreadId) : Except Fault (Connector × Task) := do
  assertInLoopThread c.loop t
  let c := c.setState .disconnected
  return ({ c with connectFlag := true, retryDelay := defaultRetryDelay }, .startInLoop)

end Connector

end HyperMuduo.Net
