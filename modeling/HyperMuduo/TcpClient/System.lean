import HyperMuduo.TcpClient.Model

/-!
# A client on its loop

The steps of the system around one `TcpClient`. A `Label` is one step:

* A call is taken apart at every store another thread can see: the store to `connect_` of the client
  (`call`), the store to `connect_` of the connector, then `runInLoop` of the closure (`proceed`). On
  the loop thread the closure runs inline, on another thread it is queued.
* User code on the loop thread runs wherever the loop thread is: before `loop()`, in handlers of other
  channels, in timers, in tasks, in the callbacks of a connection. While it is in a call, or in the
  connection callback of `onConnection`, the loop does not go on.
* `~TcpClient` runs on any thread (`destroy`, then `destructor` for its steps). Calls begun before it
  may still be under way.
* The poller reports what it was asked for, and errors and hang-ups unasked. A report of a channel
  that was destroyed follows a dangling pointer.
* `::socket` answers with a descriptor that is not open; a step with another answer is none.
-/

namespace HyperMuduo.Net.TcpClient

open HyperMuduo.Lib

inductive Label where
  | call (t : ThreadId) (c : Call)
  | proceed (t : ThreadId) (k : Kernel)
  /-- The next step of `EventLoop::loop`. -/
  | loop (k : Kernel)
  /-- `onConnection` returns to `handleWritable` of the connector. -/
  | callbackReturns
  | send (t : ThreadId) (id : Nat) (arg : TcpConnection.SendArg) (k : Kernel)
  | shutdown (t : ThreadId) (id : Nat) (k : Kernel)
  /-- The user releases his pointer to a connection nobody else owns. -/
  | drop (id : Nat)
  /-- `~TcpClient` begins. -/
  | destroy (t : ThreadId)
  /-- The next step of `~TcpClient`. -/
  | destructor (k : Kernel)
  | elapse (ms : Nat)
  /-- A thread writes its memory. -/
  | store (m : Memory)

/-- The connection a closure shares. -/
def Task.captures : Task → Option Nat
  | .connector _ => none
  | .conn id _ | .clientDestroyed id => some id

/-- The closure of `~TcpClient`. -/
def destructorTask : Option Nat → Task
  | some id => .clientDestroyed id
  | none => .connector .stopInLoop

/-- The closure `~TcpClient` is about to post. -/
def Destructor.task : Destructor → Option Task
  | .posting _ conn => some (destructorTask conn)
  | _ => none

/-- `~TcpClient` is under way on this thread. -/
def Destructor.on (t : ThreadId) : Destructor → Bool
  | .reading t' | .stopping t' | .posting t' _ | .leaving t' => t' = t
  | _ => false

namespace World

/-! ## Tasks -/

/-- A closure on a connection. The two user callbacks are steps of the user. -/
def executeConn (s : World) (id : Nat) (c : TcpConnection) (k : Kernel) :
    TcpConnection.Task → Except Failure World
  | .connectionEstablished => s.invokeConn id k.connector (c.connectionEstablished s.loopThread)
  | .connectionDestroyed => s.invokeConn id k.connector (c.connectionDestroyed s.loopThread)
  | .shutdownInLoop => s.invokeConn id k.connector (c.shutdownInLoop s.loopThread)
  | .sendString msg =>
    s.invokeConn id k.connector (c.sendArgInLoop s.loopThread s.memory (.string msg) k.written)
  | .sendBuffer buf =>
    s.invokeConn id k.connector (c.sendArgInLoop s.loopThread s.memory (.buffer buf) k.written)
  | .sendPointer addr len =>
    s.invokeConn id k.connector (c.sendArgInLoop s.loopThread s.memory (.pointer addr len) k.written)
  | .writeCompleteCallback | .highWaterCallback => .ok s

/-- Execute a closure on the loop thread. -/
def execute (s : World) (k : Kernel) : Task → Except Failure World
  | .connector task => s.runConnector k.connector task
  | .conn id task =>
    match s.conns id with
    | none => .error (.other .invalidPointer)
    | some c => s.executeConn id c k task
  | .clientDestroyed id =>
    match s.conns id with
    | none => .error (.other .invalidPointer)
    | some c =>
      let c := { c with closeCallback := some .clientGone }
      s.invokeConn id k.connector (c.connectionDestroyed s.loopThread)

def runInLoop (s : World) (t : ThreadId) (k : Kernel) (task : Task) : Except Failure World :=
  if isInLoopThread s.connector.loop t then s.execute k task else .ok (s.queueInLoop task)

/-- The closures that have not started. -/
def tasks (s : World) : List Task := s.phase.tasks ++ s.taskQueue

/-! ## Calls -/

/-- The thread is in a call, or in the destructor. -/
def busy (s : World) (t : ThreadId) : Bool := (s.pending t).isSome || s.destructor.on t

/-- The thread is in user code: on the loop thread, during `onConnection`, only in the connection
callback. -/
def inUserCode (s : World) (t : ThreadId) : Bool :=
  !s.busy t && (!(s.inCallback && isInLoopThread s.connector.loop t) || s.client.connectionCallback)

/-- A call up to the store to `connect_` or `retry_`, and what is left of it. -/
def enter (s : World) (t : ThreadId) (c : Call) : World :=
  let s := s.record (.called c)
  match c with
  | .connect =>
    { s with
      client := { s.client with connectFlag := true }
      pending := Function.update s.pending t (some .start) }
  | .disconnect =>
    { s with
      client := { s.client with connectFlag := false }
      pending := Function.update s.pending t (some .shutdown) }
  | .stop =>
    { s with
      client := { s.client with connectFlag := false }
      pending := Function.update s.pending t (some .stop) }
  | .setRetry on => { s with client := { s.client with retry := on } }

/-- The next part of a call of thread `t`. -/
def proceed (s : World) (t : ThreadId) (k : Kernel) : Rest → Except Failure World
  | .start =>
    if s.destructor = .finished then .error (.other .invalidPointer)
    else
      let (c, task) := s.connector.start
      .ok { s with connector := c, pending := Function.update s.pending t (some (.runInLoop task)) }
  | .stop =>
    if s.destructor = .finished then .error (.other .invalidPointer)
    else
      let (c, task) := s.connector.stop
      .ok { s with connector := c, pending := Function.update s.pending t (some (.runInLoop task)) }
  | .shutdown =>
    if s.destructor = .finished then .error (.other .invalidPointer)
    else
      let s := { s with pending := Function.update s.pending t none }
      match s.client.connection with
      | none => .ok s
      | some id =>
        match s.conns id with
        | none => .error (.other .invalidPointer)
        | some c => s.invokeConn id k.connector (c.shutdown t)
  | .runInLoop task =>
    { s with pending := Function.update s.pending t none }.runInLoop t k (.connector task)

/-! ## The destructor -/

/-- The next step of `~TcpClient`. -/
def destruct (s : World) (k : Kernel) : Except Failure World :=
  match s.destructor with
  | .idle | .finished => .ok s
  | .reading t =>
    match s.client.connection with
    | some id => .ok { s with destructor := .posting t (some id) }
    | none => .ok { s with destructor := .stopping t }
  | .stopping t =>
    .ok { s with connector := s.connector.stop.1, destructor := .posting t none }
  | .posting t conn => { s with destructor := .leaving t }.runInLoop t k (destructorTask conn)
  | .leaving _ =>
    .ok { s with destructor := .finished, client := { s.client with connection := none } }

/-! ## Ownership -/

/-- Somebody other than the user shares the connection: `connection_`, a closure, or `onConnection`
while it runs. -/
def owned (s : World) (id : Nat) : Bool :=
  s.client.connection = some id || (s.tasks ++ s.destructor.task.toList).any (·.captures = some id) ||
    (s.inCallback && id + 1 = s.created)

/-- The connection is destroyed, and its socket with it. -/
def dropConn (s : World) (id : Nat) : World :=
  match s.conns id with
  | none => s
  | some c =>
    { s with
      conns := Function.update s.conns id none
      descriptors := s.descriptors.erase c.socket.fd
      poller := s.poller.closeFd c.socket.fd }

/-! ## The loop -/

/-- The ready channel of a report, when the poller can make it. -/
def readyOf (s : World) : Report → Option Ready
  | .timerfd => some .timerfd
  | .fd fd got =>
    match s.poller.kernel fd with
    | none => none
    | some (ptr, asked) => if asked.MayReport got then some (.channel ptr (setPollEvents got)) else none

/-- `poller_->poll`: a descriptor is reported at most once. -/
def poll (s : World) (reports : List Report) : List Ready :=
  if reports.Nodup ∧ (reports.filterMap fun | .fd fd _ => some fd | .timerfd => none).Nodup then
    reports.filterMap s.readyOf
  else []

/-- `getExpiredTimers_`. -/
def expireTimers (s : World) (ready : List Ready) : World :=
  { s with
    timers := s.timers.filter (s.now < ·)
    phase := .expiring (s.timers.filter (· ≤ s.now)).length ready }

/-- The next step of `EventLoop::loop`. -/
def loopStep (s : World) (k : Kernel) : Except Failure World :=
  match s.phase with
  | .polling => .ok { s with phase := .handling (s.poll k.reports) }
  | .handling (.channel (.connector id) revents :: xs) =>
    { s with phase := .handling xs }.handleConnectorEvent k.connector id revents
  | .handling (.channel (.connection id) revents :: xs) =>
    { s with phase := .handling xs }.handleConnEvent k id revents
  | .handling (.timerfd :: xs) => .ok (s.expireTimers xs)
  | .handling [] => .ok { s with phase := .executing s.taskQueue, taskQueue := [] }
  -- the closure of a retry timer
  | .expiring (n + 1) xs => { s with phase := .expiring n xs }.runConnector k.connector .startInLoop
  | .expiring 0 xs => .ok { s with phase := .handling xs }
  | .executing (task :: tasks) => { s with phase := .executing tasks }.execute k task
  | .executing [] => .ok { s with phase := .polling }

/-- The loop thread is in no call, in no destructor and not in `onConnection`. -/
def loopFree (s : World) : Bool := !s.inCallback && !s.busy s.loopThread

/-- `::socket` answers with `-1`, or with a descriptor that is not open. -/
def Possible (s : World) (k : Kernel) : Prop :=
  k.connector.socket = Connector.invalidFd ∨
    (0 ≤ k.connector.socket ∧ k.connector.socket ∉ s.descriptors)

instance (s : World) (k : Kernel) : Decidable (s.Possible k) :=
  inferInstanceAs (Decidable (_ ∨ _ ∧ _))

/-- The loop goes on, with these answers of the kernel. -/
def loopRuns (s : World) (k : Kernel) : Bool := s.loopFree && decide (s.Possible k)

def step (s : World) : Label → Except Failure World
  | .call t c =>
    .ok (if s.inUserCode t && decide (s.destructor = .idle) then s.enter t c else s)
  | .proceed t k =>
    match s.pending t with
    | none => .ok s
    | some rest => if s.Possible k then s.proceed t k rest else .ok s
  | .loop k => if s.loopRuns k then s.loopStep k else .ok s
  | .callbackReturns =>
    if s.inCallback && !s.busy s.loopThread then
      let (c, es) := s.connector.afterNewConnection
      .ok ({ s with inCallback := false }.absorb c es)
    else .ok s
  | .send t id arg k =>
    match s.conns id with
    | none => .ok s
    | some c =>
      if s.inUserCode t then s.invokeConn id k.connector (c.send t s.memory arg k.written) else .ok s
  | .shutdown t id k =>
    match s.conns id with
    | none => .ok s
    | some c => if s.inUserCode t then s.invokeConn id k.connector (c.shutdown t) else .ok s
  | .drop id => .ok (if s.owned id then s else s.dropConn id)
  | .destroy t =>
    .ok (if s.inUserCode t && decide (s.destructor = .idle) then { s with destructor := .reading t }
      else s)
  | .destructor k => if s.Possible k then s.destruct k else .ok s
  | .elapse ms => .ok { s with now := s.now + ms }
  | .store m => .ok { s with memory := m }

end World

end HyperMuduo.Net.TcpClient
