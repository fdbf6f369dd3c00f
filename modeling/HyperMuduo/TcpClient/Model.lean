import HyperMuduo.Lib.Bytes
import HyperMuduo.Lib.Run
import HyperMuduo.Connector.Model
import HyperMuduo.TcpConnection.Model

/-!
# `TcpClient` as the code computes it

Model of `net/TcpClient.hpp` and `net/TcpClient.cpp` around the models of `Connector` and
`TcpConnection`. A `World` is a client with its connector, the connections it made, and what they share:
the loop's poller, its task queue, its timers, and the kernel's descriptors.

* `new_connection_callback_` of the connector is `onConnection`, `close_callback_` of a connection is
  `closeCallback`. Both capture `this`: after `~TcpClient` they follow a dangling pointer.
* A connection is named by the number of connections made before it. `connection_`, the closures that
  capture it and the user share it. The user may keep his pointer for any time; when nobody else owns
  the connection, `drop` is the release of that pointer.
* The effects of a call of the connector or of a connection are carried out in order. While those of
  the connector are, the connector is still the one before the call.
* `handleWritable` of the connector resumes after `onConnection` returned (`inCallback`). The user's
  connection callback runs in between, and what it calls is steps of its own.
* `Failure` tells the failures of `startInLoop` apart, with the `state_` it found.

`dangled`, `created` and the log are ghosts. `dangled` says that a `Channel` of the connector was
destroyed, or its socket closed, while the poller referred to it.
-/

namespace HyperMuduo.Net

open HyperMuduo.Lib

namespace TcpClient

/-- What a `Channel*` in the poller points to. -/
inductive Pointer where
  | connector (id : Nat)
  | connection (id : Nat)
  deriving DecidableEq, Repr

/-- A closure on the loop's queue, with what it captures. -/
inductive Task where
  | connector (task : Connector.Task)
  | conn (id : Nat) (task : TcpConnection.Task)
  /-- `~TcpClient`: `[conn]`. -/
  | clientDestroyed (id : Nat)
  deriving DecidableEq, Repr

/-- A channel `poll` found ready. -/
inductive Ready where
  | channel (ptr : Pointer) (revents : PollEvents)
  | timerfd
  deriving DecidableEq, Repr

/-- Where `EventLoop::loop` is: what is left of `ready_channels_`, of the expired timers, or of the
batch of tasks swapped out. -/
inductive Phase where
  | polling
  | handling (ready : List Ready)
  | expiring (timers : Nat) (ready : List Ready)
  | executing (tasks : List Task)
  deriving DecidableEq, Repr

def Phase.tasks : Phase → List Task
  | .executing tasks => tasks
  | _ => []

/-- The expired timers whose closures are still to run. -/
def Phase.timers : Phase → Nat
  | .expiring timers _ => timers
  | _ => 0

/-- A call of the user. -/
inductive Call where
  | connect
  | disconnect
  | stop
  | setRetry (on : Bool)
  deriving DecidableEq, Repr

/-- What is left of a call. -/
inductive Rest where
  /-- `connector_->start()`. -/
  | start
  /-- `connector_->stop()`. -/
  | stop
  /-- `connection_->shutdown()`. -/
  | shutdown
  /-- `runInLoop` of a closure of the connector. -/
  | runInLoop (task : Connector.Task)
  deriving DecidableEq, Repr

/-- Where `~TcpClient` is, and on which thread. -/
inductive Destructor where
  | idle
  /-- Before it reads `connection_`. -/
  | reading (t : ThreadId)
  /-- Before `connector_->stop()`. -/
  | stopping (t : ThreadId)
  /-- Before `runInLoop` of the closure on the connection it read, or of `stopInLoop`. -/
  | posting (t : ThreadId) (conn : Option Nat)
  /-- Before the members are destroyed. -/
  | leaving (t : ThreadId)
  | finished
  deriving DecidableEq, Repr

/-- An entry of the log. -/
inductive Entry where
  | called (call : Call)
  | connector (e : Connector.Effect)
  /-- `handleClose` of the connection is entered. -/
  | handleClose (id : Nat)
  | effect (id : Nat) (e : TcpConnection.Effect)
  deriving DecidableEq, Repr

/-- How a step can fail. -/
inductive Failure where
  /-- `Connector::startInLoop` failed; it found this `state_`. -/
  | startInLoop (state : Connector.State) (fault : Fault)
  | other (fault : Fault)
  deriving DecidableEq, Repr

/-- What the user sets on a client. -/
structure Config where
  loop : LoopId
  name : String
  connectionCallback : Bool
  messageCallback : Bool
  writeCompleteCallback : Bool
  highWaterMarkCallback : Bool
  highWaterMark : Nat
  deriving DecidableEq, Repr

end TcpClient

open TcpClient

structure TcpClient where
  name : String
  connectionCallback : Bool
  messageCallback : Bool
  writeCompleteCallback : Bool
  highWaterMarkCallback : Bool
  highWaterMark : Nat
  connection : Option Nat
  nextConnId : Int
  retry : Bool
  /-- `connect_`. -/
  connectFlag : Bool
  deriving DecidableEq, Repr

namespace TcpClient

/-- The constructor, and the setters of the callbacks. -/
def construct (cfg : Config) : TcpClient where
  name := cfg.name
  connectionCallback := cfg.connectionCallback
  messageCallback := cfg.messageCallback
  writeCompleteCallback := cfg.writeCompleteCallback
  highWaterMarkCallback := cfg.highWaterMarkCallback
  highWaterMark := if cfg.highWaterMarkCallback then cfg.highWaterMark else 64 * 1024 * 1024
  connection := none
  nextConnId := 0
  retry := false
  connectFlag := false

/-- The connection `onConnection` sets up. -/
def newTcpConnection (cl : TcpClient) (loop : LoopId) (fd : Int) : TcpConnection :=
  { TcpConnection.construct loop (cl.name ++ "#" ++ toString cl.nextConnId) fd with
    messageCallback := cl.messageCallback
    connectionCallback := cl.connectionCallback
    writeCompleteCallback := cl.writeCompleteCallback
    closeCallback := some .clientReset
    highWaterCallback := cl.highWaterMarkCallback
    highWaterMark := if cl.highWaterMarkCallback then cl.highWaterMark else 0 }

/-- A client, its connector and connections, and the loop they run on. -/
structure World where
  client : TcpClient
  destructor : Destructor
  connector : Connector
  created : Nat
  conns : Nat → Option TcpConnection
  poller : Epoller Pointer
  phase : Phase
  taskQueue : List Task
  /-- The deadlines of the retry timers. -/
  timers : List Nat
  now : Nat
  inCallback : Bool
  /-- What is left of the call a thread is in. -/
  pending : ThreadId → Option Rest
  /-- The open descriptors of the connector and the connections. -/
  descriptors : List Int
  memory : Memory
  dangled : Bool
  log : List Entry

/-- A condition the poller reports of a descriptor. -/
inductive Report where
  | fd (fd : Int) (got : EpollEvents)
  | timerfd
  deriving DecidableEq, Repr

/-- What the kernel answers in a step. -/
structure Kernel where
  reports : List Report
  connector : Connector.Kernel
  read : TcpConnection.ReadResult
  written : Int
  deriving DecidableEq, Repr

/-- The deadline of the timer an effect arms. -/
def deadline (now : Nat) : Connector.Effect → Option Nat
  | .runAfter delay => some (now + delay)
  | _ => none

/-- The descriptor an effect hands to `new_connection_callback_`. -/
def handedOver : Connector.Effect → Option Int
  | .newConnectionCallback fd => some fd
  | _ => none

namespace World

/-- A constructed client on an idle loop. -/
def start (cfg : Config) : World where
  client := construct cfg
  destructor := .idle
  connector := Connector.construct cfg.loop true
  created := 0
  conns := fun _ => none
  poller := .empty
  phase := .polling
  taskQueue := []
  timers := []
  now := 0
  inCallback := false
  pending := fun _ => none
  descriptors := []
  memory := fun _ => 0
  dangled := false
  log := []

def record (s : World) (e : Entry) : World := { s with log := s.log ++ [e] }

/-- The thread of the loop. -/
def loopThread (s : World) : ThreadId := .loop s.connector.loop

def setConn (s : World) (id : Nat) (c : TcpConnection) : World :=
  { s with conns := Function.update s.conns id (some c) }

def queueInLoop (s : World) (task : Task) : World := { s with taskQueue := s.taskQueue ++ [task] }

/-! ## Calls of the connector -/

/-- The poller refers to the connector's channel `id`. -/
def registered (s : World) (id : Nat) : Bool :=
  match s.connector.channel with
  | none => false
  | some (id', ch) => id' = id && s.poller.channelMap ch.fd = some (.connector id)

/-- The poller refers to a channel of the connector on this descriptor. -/
def registeredAt (s : World) (fd : Int) : Bool :=
  match s.poller.channelMap fd with
  | some (.connector _) => true
  | _ => false

/-- Carry out an effect of the connector. `onConnection` is called when all are. -/
def perform (s : World) (e : Connector.Effect) : World :=
  let s := s.record (.connector e)
  match e with
  | .openSocket fd => { s with descriptors := fd :: s.descriptors }
  | .closeSocket fd =>
    { s with
      dangled := s.dangled || s.registeredAt fd
      descriptors := s.descriptors.erase fd
      poller := s.poller.closeFd fd }
  | .updateChannel id fd events =>
    { s with poller := s.poller.updateChannel (.connector id) fd events }
  | .removeChannel _ fd => { s with poller := s.poller.removeChannel fd }
  | .destroyChannel id => { s with dangled := s.dangled || s.registered id }
  | .runAfter delay => { s with timers := s.timers ++ [s.now + delay] }
  | .connect _ | .newConnectionCallback _ => s

/-- A member function of the connector returned. -/
def absorb (s : World) (c : Connector) (es : List Connector.Effect) : World :=
  { es.foldl perform s with connector := c }

def invokeConnector (s : World) (fail : Fault → Failure) : Connector.Result → Except Failure World
  | .error f => .error (fail f)
  | .ok (c, es) => .ok (s.absorb c es)

/-- A closure of the connector, on the loop thread. -/
def runConnector (s : World) (k : Connector.Kernel) : Connector.Task → Except Failure World
  | .startInLoop =>
    s.invokeConnector (.startInLoop s.connector.state) (s.connector.startInLoop s.loopThread k)
  | .stopInLoop => s.invokeConnector .other (s.connector.stopInLoop s.loopThread)

/-- `connector_->restart()`. -/
def restart (s : World) (k : Connector.Kernel) : Except Failure World :=
  match s.connector.restart s.loopThread with
  | .error f => .error (.other f)
  | .ok (c, task) => { s with connector := c }.runConnector k task

/-! ## Calls of a connection -/

/-- `close_callback_` of the connection `id`, as `onConnection` sets it. -/
def closeCallback (s : World) (id : Nat) (k : Connector.Kernel) : Except Failure World :=
  if s.destructor = .finished then .error (.other .invalidPointer)
  else
    let s := { s with client := { s.client with connection := none } }
    let s := s.queueInLoop (.conn id .connectionDestroyed)
    if s.client.retry && s.client.connectFlag then s.restart k else .ok s

/-- Carry out an effect of the connection `id` on descriptor `fd`. `closeCallback` is called when all
are: it is the last. -/
def performConn (id : Nat) (fd : Int) (s : World) (e : TcpConnection.Effect) : World :=
  let s := s.record (.effect id e)
  match e with
  | .updateChannel events =>
    { s with poller := s.poller.updateChannel (.connection id) fd events }
  | .removeChannel => { s with poller := s.poller.removeChannel fd }
  | .queueInLoop task => s.queueInLoop (.conn id task)
  | _ => s

/-- A member function of the connection `id` returned. -/
def absorbConn (s : World) (id : Nat) (c : TcpConnection) (es : List TcpConnection.Effect) : World :=
  es.foldl (performConn id c.channel.fd) (s.setConn id c)

def invokeConn (s : World) (id : Nat) (k : Connector.Kernel) :
    TcpConnection.Result → Except Failure World
  | .error f => .error (.other f)
  | .ok (c, es) =>
    if .closeCallback .clientReset ∈ es then (s.absorbConn id c es).closeCallback id k
    else .ok (s.absorbConn id c es)

/-- The connection is made, and `connection_` set. -/
def addConnection (s : World) (fd : Int) : World :=
  let c := s.client.newTcpConnection s.connector.loop fd
  let client :=
    { s.client with
      connection := some s.created
      nextConnId := toInt32 (ofInt32 s.client.nextConnId + 1) }
  { s with client := client, created := s.created + 1 }.setConn s.created c

def onConnection (s : World) (fd : Int) (k : Connector.Kernel) : Except Failure World :=
  if s.destructor = .finished then .error (.other .invalidPointer)
  else
    let c := s.client.newTcpConnection s.connector.loop fd
    (s.addConnection fd).invokeConn s.created k (c.connectionEstablished s.loopThread)

/-! ## Events -/

/-- `handleWritable` of the connector, up to the return of `onConnection`. -/
def handleWritable (s : World) (k : Connector.Kernel) : Except Failure World :=
  match s.connector.handleWritable s.loopThread k.socketError with
  | .error f => .error (.other f)
  | .ok (c, es) =>
    match es.findSome? handedOver with
    | none => .ok (s.absorb c es)
    | some fd => { s.absorb c es with inCallback := true }.onConnection fd k

/-- `handleEvent` of a channel of the connector. Only its write slot is set. -/
def handleConnectorEvent (s : World) (k : Connector.Kernel) (id : Nat) (revents : PollEvents) :
    Except Failure World :=
  match s.connector.channel with
  | none => .error (.other .invalidPointer)
  | some (id', ch) =>
    if id' = id then
      let ch := ch.setReturnEvents revents
      let s := { s with connector := { s.connector with channel := some (id', ch) } }
      match ch.handleEvent with
      | [] => .ok s
      | .handleWritable :: _ => s.handleWritable k
    else .error (.other .invalidPointer)

/-- `handleEvent` of the channel of a connection. Only its read slot is set. `handleReadable` enters
`handleClose` at the end of the stream. -/
def handleConnEvent (s : World) (k : Kernel) (id : Nat) (revents : PollEvents) :
    Except Failure World :=
  match s.conns id with
  | none => .error (.other .invalidPointer)
  | some c =>
    let c := { c with channel := c.channel.setReturnEvents revents }
    match c.channel.handleEvent with
    | [] => .ok (s.setConn id c)
    | h :: _ =>
      let s := if h = .handleReadable ∧ k.read = some [] then s.record (.handleClose id) else s
      s.invokeConn id k.connector (c.runHandler s.loopThread k.read k.written h)

end World

end TcpClient

end HyperMuduo.Net
