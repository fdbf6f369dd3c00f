import HyperMuduo.Lib.Run
import HyperMuduo.Connector.Model

/-!
# A connector on its loop

The system around one `Connector`: the loop thread polls, handles ready channels and expired timers
and executes queued closures, and threads call `start`, `stop` and `restart`. A `Label` is one step:

* A call is two steps, on every thread: the store to `connect_` (`call`), then `runInLoop` of the
  closure, or `startInLoop` itself in `restart` (`proceed`). Other threads step in between. What is
  left of a call is in `pending`.
* User code on the loop thread runs wherever the loop thread is: before `loop()`, in handlers of other
  channels, in timers, in tasks and in `new_connection_callback_`. While the callback runs the loop does
  not go on (`inCallback`), and `callbackReturns` ends it.
* The poller may report any channel of the connector, with any conditions: the results hold over both
  pollers and over whatever they still have registered. A report of a channel that was destroyed
  follows a dangling pointer, which is a fault.
* A retry timer is its deadline. It is due once the clock has passed it; nothing cancels one.

`calls` counts the calls, so that the log can tell which call a closure comes from. The log is a ghost.
-/

namespace HyperMuduo.Net.Connector

open HyperMuduo.Lib

/-- A call of the user. -/
inductive Call where
  | start
  | stop
  | restart
  deriving DecidableEq, Repr

/-- A closure, with the number of the call that made it. -/
structure Closure where
  task : Task
  call : Nat
  deriving DecidableEq, Repr

/-- A channel `poll` found ready. -/
inductive Ready where
  | channel (id : Nat) (revents : PollEvents)
  | timerfd
  deriving DecidableEq, Repr

/-- Where `EventLoop::loop` is: what is left of `ready_channels_`, of the expired timers, or of the
batch of tasks swapped out. -/
inductive Phase where
  | polling
  | handling (ready : List Ready)
  | expiring (timers : Nat) (ready : List Ready)
  | executing (tasks : List Closure)
  deriving DecidableEq, Repr

/-- An entry of the log. -/
inductive Entry where
  | called (call : Call) (n : Nat)
  /-- The closure of the `n`-th call begins. -/
  | ran (task : Task) (n : Nat)
  | effect (e : Effect)
  deriving DecidableEq, Repr

/-- The system around one connector. -/
structure Sys where
  connector : Connector
  phase : Phase
  taskQueue : List Closure
  timers : List Nat
  now : Nat
  inCallback : Bool
  pending : ThreadId → Option Closure
  calls : Nat
  log : List Entry

inductive Label where
  | call (t : ThreadId) (c : Call)
  | proceed (t : ThreadId) (k : Kernel)
  /-- The next step of `EventLoop::loop`; `ready` is what `poll` answers. -/
  | loop (ready : List Ready) (k : Kernel)
  | callbackReturns
  | elapse (ms : Nat)
  deriving DecidableEq, Repr

/-- The deadline of the timer an effect arms. -/
def Effect.deadline (now : Nat) : Effect → Option Nat
  | .runAfter delay => some (now + delay)
  | _ => none

def Effect.isNewConnectionCallback : Effect → Bool
  | .newConnectionCallback _ => true
  | _ => false

namespace Sys

/-- A constructed connector on an idle loop. -/
def start (loop : LoopId) (newConnectionCallback : Bool) : Sys where
  connector := construct loop newConnectionCallback
  phase := .polling
  taskQueue := []
  timers := []
  now := 0
  inCallback := false
  pending := fun _ => none
  calls := 0
  log := []

def record (s : Sys) (e : Entry) : Sys := { s with log := s.log ++ [e] }

/-- The thread of the loop. -/
def loopThread (s : Sys) : ThreadId := .loop s.connector.loop

/-- The loop thread is in no user code. -/
def loopFree (s : Sys) : Bool := !s.inCallback && (s.pending s.loopThread).isNone

/-- A member function returned: its connector, and its effects carried out. -/
def absorb (s : Sys) (c : Connector) (es : List Effect) : Sys :=
  { s with
    connector := c
    timers := s.timers ++ es.filterMap (Effect.deadline s.now)
    inCallback := s.inCallback || es.any Effect.isNewConnectionCallback
    log := s.log ++ es.map .effect }

/-- Call a member function. -/
def invoke (s : Sys) (r : Result) : Except Fault Sys := do
  let (c, es) ← r
  return s.absorb c es

/-- A closure of a call, run on thread `t`. -/
def execute (s : Sys) (t : ThreadId) (k : Kernel) (cl : Closure) : Except Fault Sys :=
  (s.record (.ran cl.task cl.call)).invoke (s.connector.execute t k cl.task)

def runInLoop (s : Sys) (t : ThreadId) (k : Kernel) (cl : Closure) : Except Fault Sys :=
  if isInLoopThread s.connector.loop t then s.execute t k cl
  else .ok { s with taskQueue := s.taskQueue ++ [cl] }

/-! ## Calls -/

/-- The first half of a call is done. -/
def entered (s : Sys) (t : ThreadId) (call : Call) (c : Connector) (task : Task) : Sys :=
  { s with
    connector := c
    pending := Function.update s.pending t (some ⟨task, s.calls⟩)
    calls := s.calls + 1
    log := s.log ++ [.called call s.calls] }

def enter (s : Sys) (t : ThreadId) : Call → Except Fault Sys
  | .start => let (c, task) := s.connector.start; .ok (s.entered t .start c task)
  | .stop => let (c, task) := s.connector.stop; .ok (s.entered t .stop c task)
  | .restart => do
    let (c, task) ← s.connector.restart t
    return s.entered t .restart c task

/-! ## The loop -/

/-- `handleEvent` of the channel. Only its write slot is set. -/
def handleEvent (s : Sys) (k : Kernel) (id : Nat) (revents : PollEvents) : Except Fault Sys :=
  match s.connector.channel with
  | none => .error .invalidPointer
  | some (id', ch) =>
    if id' = id then
      let ch := ch.setReturnEvents revents
      let c := { s.connector with channel := some (id', ch) }
      match ch.handleEvent with
      | [] => .ok { s with connector := c }
      | .handleWritable :: _ => s.invoke (c.handleWritable s.loopThread k.socketError)
    else .error .invalidPointer

/-- `getExpiredTimers_`. -/
def expireTimers (s : Sys) (ready : List Ready) : Sys :=
  { s with
    timers := s.timers.filter (s.now < ·)
    phase := .expiring (s.timers.filter (· ≤ s.now)).length ready }

/-- The next step of `EventLoop::loop`. -/
def loopStep (s : Sys) (reported : List Ready) (k : Kernel) : Except Fault Sys :=
  match s.phase with
  | .polling => .ok { s with phase := .handling reported }
  | .handling (.channel id revents :: xs) => { s with phase := .handling xs }.handleEvent k id revents
  | .handling (.timerfd :: xs) => .ok (s.expireTimers xs)
  | .handling [] => .ok { s with phase := .executing s.taskQueue, taskQueue := [] }
  -- the closure of a retry timer
  | .expiring (n + 1) xs =>
    { s with phase := .expiring n xs }.invoke (s.connector.startInLoop s.loopThread k)
  | .expiring 0 xs => .ok { s with phase := .handling xs }
  | .executing (cl :: cls) => { s with phase := .executing cls }.execute s.loopThread k cl
  | .executing [] => .ok { s with phase := .polling }

def step (s : Sys) : Label → Except Fault Sys
  | .call t c =>
    match s.pending t with
    | some _ => .ok s
    | none => s.enter t c
  | .proceed t k =>
    match s.pending t with
    | none => .ok s
    | some cl => { s with pending := Function.update s.pending t none }.runInLoop t k cl
  | .loop reported k => if s.loopFree then s.loopStep reported k else .ok s
  | .callbackReturns =>
    if s.inCallback && (s.pending s.loopThread).isNone then
      let (c, es) := s.connector.afterNewConnection
      .ok ({ s with inCallback := false }.absorb c es)
    else .ok s
  | .elapse ms => .ok { s with now := s.now + ms }

end Sys

end HyperMuduo.Net.Connector
