import HyperMuduo.Lib.Bytes
import HyperMuduo.TcpConnection.Model

/-!
# `TcpServer` on its loops

Model of `net/TcpServer`, of `EventLoopThreadPool::getNextLoop`, of the accept callback of
`net/Acceptor` and of `EventLoop::loop`, around the connections of `TcpConnection`. The world is a
started server with its base loop (`0`), the loops of its pool (`1` to `threadPool.loops`), the
connections it accepted, and the tasks that travel between the loops.

* A loop polls, handles the ready channels one after another, swaps its queue out and executes the
  batch (`Phase`). `loop l k` is its next step, with the kernel's answers `k`. Channels other than the
  acceptor's and the connections' (timers, the wakeup descriptor) change nothing here.
* A poller reports what it was asked for, and errors and hang-ups unasked (`MayReport`). `epoll` and
  `poll` both keep to this.
* User calls of `send` and `shutdown` are steps of their own, from any thread, in every state. What a
  callback does is the steps that follow the one that called it.
* A connection is named by the number of connections accepted before it. Closures capture it by that
  number. It stays in `conns` for good: `close_callback_` of the connection holds the connection.

The log is a ghost: which of the functions of the life cycle were entered on which thread, and the
effects of the member functions, in order.
-/

namespace HyperMuduo.Net

open HyperMuduo.Lib

namespace TcpServer

/-- A closure on a loop's queue, with the connection it captures. -/
inductive Task where
  | conn (id : Nat) (task : TcpConnection.Task)
  /-- `TcpServer::removeConnection`: `[this, conn]`. -/
  | removeConnectionInLoop (id : Nat)
  deriving DecidableEq, Repr

/-- A channel `poll` found ready. -/
inductive Ready where
  | acceptor
  | channel (id : Nat) (revents : PollEvents)
  deriving DecidableEq, Repr

/-- Where `EventLoop::loop` is: what is left of `ready_channels_`, or of the batch swapped out. -/
inductive Phase where
  | polling
  | handling (ready : List Ready)
  | executing (tasks : List Task)
  deriving DecidableEq, Repr

def Phase.tasks : Phase → List Task
  | .executing tasks => tasks
  | _ => []

structure Loop where
  poller : Epoller Nat
  phase : Phase
  taskQueue : List Task

/-- The tasks that have not started, in the order they will. -/
def Loop.pending (l : Loop) : List Task := l.phase.tasks ++ l.taskQueue

/-- The functions of the life cycle of a connection, in their order. -/
inductive Member where
  | connectionEstablished
  | handleClose
  | removeConnectionInLoop
  | connectionDestroyed
  deriving DecidableEq, Repr

/-- An entry of the log. -/
inductive Entry where
  | called (m : Member) (t : ThreadId) (id : Nat)
  | effect (id : Nat) (e : TcpConnection.Effect)
  deriving DecidableEq, Repr

/-- `i + 1` in an `int`. -/
def succInt32 (i : Int) : Int := toInt32 (ofInt32 i + 1)

theorem succInt32_toInt32 (n : Nat) : succInt32 (toInt32 n) = toInt32 (n + 1) := by
  have hpattern : (ofInt32 (toInt32 n) + 1) % 2 ^ 32 = (n + 1) % 2 ^ 32 := by
    unfold ofInt32 toInt32
    split <;> omega
  unfold succInt32
  generalize ofInt32 (toInt32 n) + 1 = k at hpattern
  unfold toInt32
  rw [hpattern]

/-- `loops_` and `next_`. -/
structure EventLoopThreadPool where
  loops : Nat
  next : Int
  deriving DecidableEq, Repr

def baseLoop : LoopId := 0

def EventLoopThreadPool.getNextLoop (p : EventLoopThreadPool) : LoopId × EventLoopThreadPool :=
  if p.loops = 0 then (baseLoop, p)
  else (1 + ofInt64 p.next % p.loops, { p with next := succInt32 p.next })

end TcpServer

open TcpServer

structure TcpServer where
  serverName : String
  connectionCallback : Bool
  messageCallback : Bool
  writeCompleteCallback : Bool
  highWatermarkCallback : Bool
  highWaterMark : Nat
  nextConnId : Int
  connections : String → Option Nat
  threadPool : EventLoopThreadPool

namespace TcpServer

/-- What the user sets on a server. -/
structure Config where
  serverName : String
  connectionCallback : Bool
  messageCallback : Bool
  writeCompleteCallback : Bool
  highWatermarkCallback : Bool
  highWaterMark : Nat
  threadNum : Nat
  deriving DecidableEq, Repr

/-- A server after `start`. -/
def started (cfg : Config) : TcpServer where
  serverName := cfg.serverName
  connectionCallback := cfg.connectionCallback
  messageCallback := cfg.messageCallback
  writeCompleteCallback := cfg.writeCompleteCallback
  highWatermarkCallback := cfg.highWatermarkCallback
  highWaterMark := cfg.highWaterMark
  nextConnId := 1
  connections := fun _ => none
  threadPool := ⟨cfg.threadNum, 0⟩

/-- `server_name_` and `"#%d"` of the counter. -/
def connectionName (serverName : String) (i : Int) : String := serverName ++ ("#" ++ toString i)

/-- The connection that the new-connection callback sets up. -/
def newTcpConnection (sv : TcpServer) (id : Nat) (loop : LoopId) (fd : Int) : TcpConnection :=
  { TcpConnection.construct loop (connectionName sv.serverName sv.nextConnId) fd with
    messageCallback := sv.messageCallback
    connectionCallback := sv.connectionCallback
    writeCompleteCallback := sv.writeCompleteCallback
    closeCallback := some (.serverRemoveConnection id)
    highWaterCallback := sv.highWatermarkCallback
    highWaterMark := if sv.highWatermarkCallback then sv.highWaterMark else 0 }

/-- The server, its loops and its connections. -/
structure World where
  server : TcpServer
  accepted : Nat
  conns : Nat → Option TcpConnection
  loops : LoopId → Loop
  memory : Memory
  log : List Entry

/-- A condition a poller reports of a descriptor. -/
inductive Report where
  | acceptor
  | fd (fd : Int) (revents : PollEvents)
  deriving DecidableEq, Repr

/-- What the kernel answers in a step of a loop. -/
structure Kernel where
  /-- `poll` or `epoll_wait`. -/
  reports : List Report
  /-- `accept`: a descriptor, or nothing. -/
  accepted : Option Int
  read : TcpConnection.ReadResult
  written : Int
  deriving DecidableEq, Repr

inductive Label where
  | loop (l : LoopId) (k : Kernel)
  | send (t : ThreadId) (id : Nat) (arg : TcpConnection.SendArg) (w : Int)
  | shutdown (t : ThreadId) (id : Nat)
  /-- A thread writes its memory. -/
  | store (m : Memory)

/-- Conditions a poller may report to a channel registered with this interest. -/
def MayReport (asked : EpollEvents) (got : PollEvents) : Prop :=
  (got.pollin → asked.epollin) ∧ (got.pollpri → asked.epollpri) ∧ (got.pollout → asked.epollout) ∧
    got.pollrdhup = false

instance (asked : EpollEvents) (got : PollEvents) : Decidable (MayReport asked got) :=
  inferInstanceAs (Decidable (_ ∧ _ ∧ _ ∧ _))

/-- What `Epoller::poll` stores in a channel is one of them. -/
theorem mayReport_epoll {asked got : EpollEvents} (h : asked.MayReport got) :
    MayReport asked (setPollEvents got) :=
  ⟨h.1, h.2.1, h.2.2.1, rfl⟩

namespace World

open TcpConnection (Effect Handler ReadResult Result SendArg)

def start (cfg : Config) : World where
  server := started cfg
  accepted := 0
  conns := fun _ => none
  loops := fun _ => ⟨.empty, .polling, []⟩
  memory := fun _ => 0
  log := []

def record (s : World) (e : Entry) : World := { s with log := s.log ++ [e] }

def setConn (s : World) (id : Nat) (c : TcpConnection) : World :=
  { s with conns := Function.update s.conns id (some c) }

def setPhase (s : World) (l : LoopId) (p : Phase) : World :=
  { s with loops := Function.update s.loops l { s.loops l with phase := p } }

def setPoller (s : World) (l : LoopId) (ep : Epoller Nat) : World :=
  { s with loops := Function.update s.loops l { s.loops l with poller := ep } }

def queueInLoop (s : World) (l : LoopId) (task : Task) : World :=
  { s with
    loops := Function.update s.loops l
      { s.loops l with taskQueue := (s.loops l).taskQueue ++ [task] } }

/-! ## Removing a connection -/

def removeConnectionInLoop (s : World) (t : ThreadId) (id : Nat) : Except Fault World := do
  assertInLoopThread baseLoop t
  let s := s.record (.called .removeConnectionInLoop t id)
  match s.conns id with
  | none => .error .invalidPointer
  | some c =>
    let connections := Function.update s.server.connections c.name none
    return { s with server := { s.server with connections := connections } }.queueInLoop c.loop
      (.conn id .connectionDestroyed)

def removeConnection (s : World) (t : ThreadId) (id : Nat) : Except Fault World :=
  if isInLoopThread baseLoop t then s.removeConnectionInLoop t id
  else .ok (s.queueInLoop baseLoop (.removeConnectionInLoop id))

/-! ## Calls of member functions -/

/-- Carry out an effect of a call on thread `t`; `c` is the connection after the call. -/
def perform (s : World) (t : ThreadId) (id : Nat) (c : TcpConnection) (e : Effect) :
    Except Fault World :=
  let s := s.record (.effect id e)
  match e with
  | .updateChannel events => do
    assertInLoopThread c.loop t
    return s.setPoller c.loop ((s.loops c.loop).poller.updateChannel id c.channel.fd events)
  | .removeChannel => do
    assertInLoopThread c.loop t
    return s.setPoller c.loop ((s.loops c.loop).poller.removeChannel c.channel.fd)
  | .queueInLoop task => .ok (s.queueInLoop c.loop (.conn id task))
  | .closeCallback (.serverRemoveConnection conn) => s.removeConnection t conn
  | _ => .ok s

def performAll (t : ThreadId) (id : Nat) (c : TcpConnection) :
    World → List Effect → Except Fault World
  | s, [] => .ok s
  | s, e :: es => do
    let s ← s.perform t id c e
    performAll t id c s es

/-- A member function of a connection returned. -/
def invoke (s : World) (t : ThreadId) (id : Nat) (r : Result) : Except Fault World := do
  let (c, es) ← r
  performAll t id c (s.setConn id c) es

/-- Execute a task on a connection. The two user callbacks are steps of the user. -/
def executeConn (s : World) (t : ThreadId) (id : Nat) (c : TcpConnection) (w : Int) :
    TcpConnection.Task → Except Fault World
  | .connectionEstablished =>
    (s.record (.called .connectionEstablished t id)).invoke t id (c.connectionEstablished t)
  | .connectionDestroyed =>
    (s.record (.called .connectionDestroyed t id)).invoke t id (c.connectionDestroyed t)
  | .shutdownInLoop => s.invoke t id (c.shutdownInLoop t)
  | .sendString msg => s.invoke t id (c.sendArgInLoop t s.memory (.string msg) w)
  | .sendBuffer buf => s.invoke t id (c.sendArgInLoop t s.memory (.buffer buf) w)
  | .sendPointer addr len => s.invoke t id (c.sendArgInLoop t s.memory (.pointer addr len) w)
  | .writeCompleteCallback | .highWaterCallback => .ok s

def execute (s : World) (t : ThreadId) (w : Int) : Task → Except Fault World
  | .conn id task =>
    match s.conns id with
    | none => .error .invalidPointer
    | some c => s.executeConn t id c w task
  | .removeConnectionInLoop id => s.removeConnectionInLoop t id

def runInLoop (s : World) (l : LoopId) (t : ThreadId) (w : Int) (task : Task) : Except Fault World :=
  if isInLoopThread l t then s.execute t w task else .ok (s.queueInLoop l task)

/-! ## Events -/

/-- The connection is made and put into `connections_`. -/
def addConnection (s : World) (fd : Int) : World :=
  let (loop, threadPool) := s.server.threadPool.getNextLoop
  let id := s.accepted
  let c := s.server.newTcpConnection id loop fd
  let server :=
    { s.server with
      nextConnId := succInt32 s.server.nextConnId
      connections := Function.update s.server.connections c.name (some id)
      threadPool := threadPool }
  { s with server := server, accepted := id + 1 }.setConn id c

/-- The new-connection callback: make the connection and have it established on its loop. -/
def newConnection (s : World) (t : ThreadId) (fd : Int) (w : Int) : Except Fault World := do
  assertInLoopThread baseLoop t
  let id := s.accepted
  (s.addConnection fd).runInLoop s.server.threadPool.getNextLoop.1 t w
    (.conn id .connectionEstablished)

/-- Call the handlers of an event in order. `handleReadable` enters `handleClose` at the end of the
stream. -/
def runHandlers (s : World) (t : ThreadId) (id : Nat) (r : ReadResult) (w : Int) :
    List Handler → Except Fault World
  | [] => .ok s
  | h :: hs =>
    match s.conns id with
    | none => .error .invalidPointer
    | some c => do
      let s := if h = .handleReadable ∧ r = some [] then s.record (.called .handleClose t id) else s
      let s ← s.invoke t id (c.runHandler t r w h)
      s.runHandlers t id r w hs

/-- `handleEvent` of a ready channel. -/
def handle (s : World) (t : ThreadId) (k : Kernel) : Ready → Except Fault World
  | .acceptor => do
    assertInLoopThread baseLoop t
    match k.accepted with
    | none => return s
    | some fd => s.newConnection t fd k.written
  | .channel id revents =>
    match s.conns id with
    | none => .error .invalidPointer
    | some c =>
      let c := { c with channel := c.channel.setReturnEvents revents }
      (s.setConn id c).runHandlers t id k.read k.written c.channel.handleEvent

/-- The ready channel of a report, when the poller can make it. The acceptor listens on the base
loop. -/
def readyOf (s : World) (l : LoopId) : Report → Option Ready
  | .acceptor => if l = baseLoop then some .acceptor else none
  | .fd fd revents =>
    match (s.loops l).poller.kernel fd with
    | none => none
    | some (id, asked) => if MayReport asked revents then some (.channel id revents) else none

/-- `poller_->poll`: a descriptor is reported at most once. -/
def poll (s : World) (l : LoopId) (reports : List Report) : List Ready :=
  if (reports.filterMap fun | .fd fd _ => some fd | .acceptor => none).Nodup then
    reports.filterMap (s.readyOf l)
  else []

/-- `tasks.swap(task_queue_)`. -/
def swapTasks (s : World) (l : LoopId) : World :=
  { s with
    loops := Function.update s.loops l
      { s.loops l with phase := .executing (s.loops l).taskQueue, taskQueue := [] } }

/-- The next step of `EventLoop::loop` on its thread. -/
def loopStep (s : World) (l : LoopId) (k : Kernel) : Except Fault World :=
  match (s.loops l).phase with
  | .polling => .ok (s.setPhase l (.handling (s.poll l k.reports)))
  | .handling (x :: xs) => (s.setPhase l (.handling xs)).handle (.loop l) k x
  | .handling [] => .ok (s.swapTasks l)
  | .executing (task :: tasks) =>
    (s.setPhase l (.executing tasks)).execute (.loop l) k.written task
  | .executing [] => .ok (s.setPhase l .polling)

def step (s : World) : Label → Except Fault World
  | .loop l k => s.loopStep l k
  | .send t id arg w =>
    match s.conns id with
    | none => .ok s
    | some c => s.invoke t id (c.send t s.memory arg w)
  | .shutdown t id =>
    match s.conns id with
    | none => .ok s
    | some c => s.invoke t id (c.shutdown t)
  | .store m => .ok { s with memory := m }

end World

end TcpServer

end HyperMuduo.Net
