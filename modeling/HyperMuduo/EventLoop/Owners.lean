import HyperMuduo.EventLoop.Registry
import HyperMuduo.Connector.Spec
import HyperMuduo.TcpConnection.System

/-!
# The owners of the channels of a loop

Model of `net/Acceptor` and of a loop with any number of acceptors, connectors and connections on it,
created and destroyed while it runs. A step is one member function on the loop's thread, with all it
does to the registry of the loop, in order; in which order they come is left open. What a callback does
is the steps that follow the one that called it.

* Objects are named by the number of objects created before them. `Ptr` names the channels: that of an
  acceptor or of a connection, and the channels a connector makes, by their number.
* A `Socket` that `accept` or a connector hands to a callback is the user's (`Holder.user`) until a
  connection takes it or it is destroyed.
* A destructor destroys the members in the reverse of their declaration: the channel, then the socket.
  Only `~Connector` removes its channel before that.
* `::socket` and `accept4` answer with a descriptor that is not open; a step with another answer is
  none.
* The shared pointers are not counted: a connection or a connector may be destroyed at any time.
-/

namespace HyperMuduo.Net

open HyperMuduo.Lib

/-! ## `Acceptor` -/

/-- The closure in the read slot of `accept_channel_`. -/
inductive Acceptor.Handler where
  | accept
  deriving DecidableEq, Repr

structure Acceptor where
  acceptSocket : Int
  acceptChannel : Channel Acceptor.Handler
  isListening : Bool
  deriving DecidableEq, Repr

namespace Acceptor

/-- The constructor, with what `::socket` and `::bind` answer. -/
def construct (fd : Int) (bound : Bool) : Except Fault Acceptor :=
  if fd = Connector.invalidFd then .error .abort
  else if bound then .ok ⟨fd, (Channel.construct fd).setReadCallback .accept, false⟩
  else .error .abort

/-- `listen`, with what `::listen` answers. -/
def listen (a : Acceptor) (ok : Bool) : Except Fault Acceptor :=
  if ok then .ok { a with isListening := true, acceptChannel := a.acceptChannel.listenTillReadable }
  else .error .abort

end Acceptor

namespace Owners

/-- What a `Channel*` refers to. -/
inductive Ptr where
  | acceptor (id : Nat)
  | connector (id channel : Nat)
  | connection (id : Nat)
  deriving DecidableEq, Repr

/-- Who has a `Socket`. -/
inductive Holder where
  | acceptor (id : Nat)
  | connector (id : Nat)
  | connection (id : Nat)
  | user
  deriving DecidableEq, Repr

/-- The owner of a channel has the socket of its descriptor. -/
def Ptr.holder : Ptr → Holder
  | .acceptor id => .acceptor id
  | .connector id _ => .connector id
  | .connection id => .connection id

/-- The thread of the loop. -/
def loopThread : ThreadId := .loop 0

/-- A member function of a connector, with the kernel's answers. -/
inductive ConnectorCall where
  | start (k : Connector.Kernel)
  | stop
  | restart (k : Connector.Kernel)
  /-- The closure of a retry timer, or of `start` on another thread. -/
  | startInLoop (k : Connector.Kernel)
  | stopInLoop
  | handleWritable (err : Int)
  deriving DecidableEq, Repr

/-- A member function of a connection, with the kernel's answers. -/
inductive ConnectionCall where
  | connectionEstablished
  | connectionDestroyed
  | send (m : Memory) (arg : TcpConnection.SendArg) (w : Int)
  | sendInLoop (m : Memory) (arg : TcpConnection.SendArg) (w : Int)
  | shutdown
  | shutdownInLoop
  | handler (x : TcpConnection.Handler) (r : TcpConnection.ReadResult) (w : Int)

inductive Label where
  | newAcceptor (fd : Int) (bound : Bool)
  | listen (id : Nat) (ok : Bool)
  /-- The read callback of an acceptor; `accept4` answers `fd`. -/
  | accept (id : Nat) (fd : Int)
  | destroyAcceptor (id : Nat)
  | newConnector (callback : Bool)
  | connector (id : Nat) (call : ConnectorCall)
  /-- `new_connection_callback_` of the connector called last returns. -/
  | callbackReturns
  | destroyConnector (id : Nat)
  /-- A connection is made of a socket the user has. -/
  | newConnection (fd : Int) (u : TcpConnection.Setup)
  | connection (id : Nat) (call : ConnectionCall)
  | destroyConnection (id : Nat)
  /-- The user destroys a socket. -/
  | dropSocket (fd : Int)

def ConnectorCall.run (c : Connector) : ConnectorCall → Connector.Result
  | .start k => c.start.1.startInLoop loopThread k
  | .stop => c.stop.1.stopInLoop loopThread
  | .restart k => do
    let (c, _) ← c.restart loopThread
    c.startInLoop loopThread k
  | .startInLoop k => c.startInLoop loopThread k
  | .stopInLoop => c.stopInLoop loopThread
  | .handleWritable err => c.handleWritable loopThread err

/-- What `::socket` would answer. -/
def ConnectorCall.socket : ConnectorCall → Option Int
  | .start k | .restart k | .startInLoop k => some k.socket
  | .stop | .stopInLoop | .handleWritable _ => none

def ConnectionCall.run (c : TcpConnection) : ConnectionCall → TcpConnection.Result
  | .connectionEstablished => c.connectionEstablished loopThread
  | .connectionDestroyed => c.connectionDestroyed loopThread
  | .send m arg w => c.send loopThread m arg w
  | .sendInLoop m arg w => c.sendArgInLoop loopThread m arg w
  | .shutdown => c.shutdown loopThread
  | .shutdownInLoop => c.shutdownInLoop loopThread
  | .handler x r w => c.runHandler loopThread r w x

/-- What an effect of a connector does to the registry. The connector had made `made` channels before
the call: one with a higher number is made when it first notifies the loop. -/
def ofConnector (id made : Nat) : Connector.Effect → List (Registry.Op Ptr Holder)
  | .openSocket fd => [.openSocket fd (.connector id)]
  | .closeSocket fd => [.closeSocket fd]
  | .updateChannel channel fd events =>
    (if made ≤ channel then [.construct (.connector id channel) fd] else []) ++
      [.updateChannel (.connector id channel) events]
  | .removeChannel channel _ => [.removeChannel (.connector id channel)]
  | .destroyChannel channel => [.destroy (.connector id channel)]
  | .newConnectionCallback fd => if fd = Connector.invalidFd then [] else [.handOver fd .user]
  | .connect _ | .runAfter _ => []

/-- The connector called its callback. -/
def handsOver (es : List Connector.Effect) : Bool :=
  es.any fun
    | .newConnectionCallback _ => true
    | _ => false

/-- What an effect of a connection does to the registry. -/
def ofConnection (id : Nat) : TcpConnection.Effect → List (Registry.Op Ptr Holder)
  | .updateChannel events => [.updateChannel (.connection id) events]
  | .removeChannel => [.removeChannel (.connection id)]
  | .queueInLoop _ | .write _ | .shutdownWrite | .connectionCallback _ | .messageCallback |
    .closeCallback _ => []

/-- The loop's registry and the objects on it. -/
structure Host where
  registry : Registry Ptr Holder
  acceptors : Nat → Option Acceptor
  connectors : Nat → Option Connector
  connections : Nat → Option TcpConnection
  created : Nat
  /-- The connectors whose `new_connection_callback_` runs, the last one first. -/
  returning : List Nat

namespace Host

def init : Host where
  registry := .empty
  acceptors := fun _ => none
  connectors := fun _ => none
  connections := fun _ => none
  created := 0
  returning := []

def perform (s : Host) (ops : List (Registry.Op Ptr Holder)) : Host :=
  { s with registry := s.registry.steps ops }

def setAcceptor (s : Host) (id : Nat) (a : Option Acceptor) : Host :=
  { s with acceptors := Function.update s.acceptors id a }

def setConnector (s : Host) (id : Nat) (c : Option Connector) : Host :=
  { s with connectors := Function.update s.connectors id c }

def setConnection (s : Host) (id : Nat) (c : Option TcpConnection) : Host :=
  { s with connections := Function.update s.connections id c }

/-- An answer of `::socket` or `accept4`. -/
def possible (s : Host) (fd : Int) : Bool :=
  fd = Connector.invalidFd || (decide (0 ≤ fd) && (s.registry.holder fd).isNone)

/-- Call a member function of a connector. -/
def callConnector (s : Host) (id : Nat) (c : Connector) (r : Connector.Result) : Except Fault Host := do
  let (c', es) ← r
  let s := (s.setConnector id (some c')).perform (es.flatMap (ofConnector id c.channels))
  return if handsOver es then { s with returning := id :: s.returning } else s

def step (s : Host) : Label → Except Fault Host
  | .newAcceptor fd bound =>
    if s.possible fd then do
      let a ← Acceptor.construct fd bound
      return ({ s with created := s.created + 1 }.setAcceptor s.created (some a)).perform
        [.openSocket fd (.acceptor s.created), .construct (.acceptor s.created) fd]
    else .ok s
  | .listen id ok =>
    match s.acceptors id with
    | none => .ok s
    | some a => do
      let a ← a.listen ok
      return (s.setAcceptor id (some a)).perform
        [.updateChannel (.acceptor id) a.acceptChannel.events]
  | .accept id fd =>
    match s.acceptors id with
    | none => .ok s
    | some _ =>
      .ok (if s.possible fd ∧ fd ≠ Connector.invalidFd then s.perform [.openSocket fd .user] else s)
  | .destroyAcceptor id =>
    match s.acceptors id with
    | none => .ok s
    | some a =>
      .ok ((s.setAcceptor id none).perform [.destroy (.acceptor id), .closeSocket a.acceptSocket])
  | .newConnector callback =>
    .ok ({ s with created := s.created + 1 }.setConnector s.created
      (some (Connector.construct 0 callback)))
  | .connector id call =>
    match s.connectors id with
    | none => .ok s
    | some c => if call.socket.all s.possible then s.callConnector id c (call.run c) else .ok s
  | .callbackReturns =>
    match s.returning with
    | [] => .ok s
    | id :: rest =>
      match s.connectors id with
      | none => .error .invalidPointer
      | some c =>
        let (c', es) := c.afterNewConnection
        .ok (({ s with returning := rest }.setConnector id (some c')).perform
          (es.flatMap (ofConnector id c.channels)))
  | .destroyConnector id =>
    match s.connectors id with
    | none => .ok s
    | some c => do
      let (c', removed) ← c.resetChannel loopThread
      let (_, closed) := c'.resetSocket
      return (s.setConnector id none).perform ((removed ++ closed).flatMap (ofConnector id c.channels))
  | .newConnection fd u =>
    .ok (if s.registry.holder fd = some .user then
        ({ s with created := s.created + 1 }.setConnection s.created
          (some (u.apply (TcpConnection.construct 0 "" fd)))).perform
          [.handOver fd (.connection s.created), .construct (.connection s.created) fd]
      else s)
  | .connection id call =>
    match s.connections id with
    | none => .ok s
    | some c => do
      let (c', es) ← call.run c
      return (s.setConnection id (some c')).perform (es.flatMap (ofConnection id))
  | .destroyConnection id =>
    match s.connections id with
    | none => .ok s
    | some c =>
      .ok ((s.setConnection id none).perform [.destroy (.connection id), .closeSocket c.socket.fd])
  | .dropSocket fd =>
    .ok (if s.registry.holder fd = some .user then s.perform [.closeSocket fd] else s)

end Host

end Owners

end HyperMuduo.Net
