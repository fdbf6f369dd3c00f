import HyperMuduo.Lib.Run
import HyperMuduo.TcpServer.Polling

/-!
# A server from its construction to its end

Model of the constructor, of `start` and of `~TcpServer`, around the world of a running server. The
destructor runs on the thread of the base loop. Its body only clears `started_`; then the members go,
the last one first: `thread_pool_` quits and joins the worker threads one after another, `connections_`
lets go of the connections, and at last `acceptor_` goes.

While the base loop's thread joins, the workers that are not joined yet take their steps (`joining`).
Their loops end with their threads, so the base loop is the one that survives.

The server is captured in four places. The closure of `start` waits on the base loop's queue when
`start` was called on another thread. The callback of the acceptor is reached from its channel, which
`listen` put into `channel_map_` and nobody takes out. The close callback of a connection is reached from
its channel, and `removeConnection` posts the task that calls `removeConnectionInLoop`.
-/

namespace HyperMuduo.Net.TcpServer

open HyperMuduo.Lib
open HyperMuduo.Net.TcpConnection (Open)

/-! ## The destructor -/

/-- How far `start` has come. -/
inductive Listening where
  | idle
  /-- `start` was called on another thread: `[this] { acceptor_->listen(); }` is on the queue. -/
  | queued
  /-- The channel of the acceptor is in `channel_map_` of the base loop. -/
  | listening
  deriving DecidableEq, Repr

/-- Where the life of the server is. -/
inductive Stage where
  | running
  /-- `~TcpServer` has begun, and these workers are joined. -/
  | joining (joined : List LoopId)
  | destroyed
  deriving DecidableEq, Repr

/-- The loops whose threads take no steps of their own. -/
def Stage.halted : Stage → List LoopId
  | .joining joined => baseLoop :: joined
  | _ => []

/-- The thread a step is taken on. -/
def Label.thread : Label → Option ThreadId
  | .loop l _ => some (.loop l)
  | .send t _ _ _ => some t
  | .shutdown t _ => some t
  | .store _ => none

/-- A server from its construction to its end. -/
structure Lifetime where
  world : World
  acceptor : Listening
  stage : Stage

inductive Act where
  | world (lb : Label)
  | start (t : ThreadId)
  /-- The base loop executes the closure of `start`. -/
  | listen
  /-- `~TcpServer` begins. -/
  | destroy
  /-- `~EventLoopThread`: the loop has left `loop()`, and its thread is joined. -/
  | join (l : LoopId)
  /-- The pool is gone, and the other members go. -/
  | finish

namespace World

/-- A worker is about to read the end of a stream. -/
def endOfStream (s : World) : Label → Bool
  | .loop l k =>
    match (s.loops l).phase with
    | .handling (.channel _ revents :: _) => revents.reads && decide (k.read = some [])
    | _ => false
  | _ => false

/-- `~connections_`. -/
def clearConnections (s : World) : World :=
  { s with server := { s.server with connections := fun _ => none } }

end World

namespace Lifetime

def construct (cfg : Config) : Lifetime := ⟨.start cfg, .idle, .running⟩

/-- The loops of `threads_`, which `start` fills. -/
def workers (s : Lifetime) : List LoopId :=
  if s.acceptor = .idle then [] else (List.range s.world.server.threadPool.loops).map (· + 1)

/-- The step can be taken: its thread is there and not halted, and a poller reports the acceptor only
when it listens. -/
def mayRun (s : Lifetime) (lb : Label) : Bool :=
  decide (s.stage ≠ .destroyed) &&
    s.stage.halted.all (fun l => decide (lb.thread ≠ some (.loop l))) &&
    match lb with
    | .loop l k =>
      decide (l = baseLoop ∨ s.acceptor ≠ .idle) &&
        decide (.acceptor ∈ k.reports → s.acceptor = .listening)
    | _ => true

def step (s : Lifetime) : Act → Except Fault Lifetime
  | .world lb =>
    if s.mayRun lb then do
      let world ← s.world.step lb
      return { s with world := world }
    else .ok s
  | .start t =>
    if s.stage = .running ∧ s.acceptor = .idle then
      .ok { s with acceptor := if isInLoopThread baseLoop t then .listening else .queued }
    else .ok s
  | .listen =>
    if s.stage = .running ∧ s.acceptor = .queued then .ok { s with acceptor := .listening } else .ok s
  | .destroy => if s.stage = .running then .ok { s with stage := .joining [] } else .ok s
  | .join l =>
    match s.stage with
    | .joining joined =>
      -- `quit` makes `loop()` return before its next poll
      if l ∈ s.workers ∧ l ∉ joined ∧ (s.world.loops l).phase = .polling then
        .ok { s with stage := .joining (l :: joined) }
      else .ok s
    | _ => .ok s
  | .finish =>
    match s.stage with
    | .joining joined =>
      if ∀ l ∈ s.workers, l ∈ joined then
        .ok { s with world := s.world.clearConnections, stage := .destroyed }
      else .ok s
    | _ => .ok s

/-- A state a server can be in. -/
def Reachable (cfg : Config) (s : Lifetime) : Prop := ∃ acts, run step (construct cfg) acts = .ok s

/-- `~TcpServer` begins in `s` and is done in `t`; `during` is what happens while it joins. -/
structure Destroys (s : Lifetime) (during : List Act) (t : Lifetime) : Prop where
  began : s.stage = .running
  joins : ∃ s', run step s (.destroy :: during) = .ok s' ∧ s'.stage ≠ .destroyed ∧ s'.step .finish = .ok t
  done : t.stage = .destroyed

/-! ## What is promised

`Settled` leaves the entry of the acceptor's channel out: the channel is destroyed with the acceptor, so
what is left of it is a pointer that dangles. `Clean` counts the entry too. -/

/-- The callbacks of the connection's channel lead to the server: `handleReadable` calls the close
callback. -/
def ReachesServer (c : TcpConnection) : Prop :=
  c.channel.readCallback = some .handleReadable ∧
    ∃ id, c.closeCallback = some (.serverRemoveConnection id)

/-- The promise of the teardown from `s` to `t`, the entry of the acceptor's channel left out. -/
structure Settled (s t : Lifetime) : Prop where
  /-- No task on the base loop refers to the server. -/
  tasks : t.acceptor ≠ .queued ∧
    ∀ id, .removeConnectionInLoop id ∉ (t.world.loops baseLoop).pending
  /-- No callback of a connection that is registered with the base loop leads to the server. -/
  channels : ∀ fd id ev c, (t.world.loops baseLoop).poller.kernel fd = some (id, ev) →
    t.world.conns id = some c → ¬ ReachesServer c
  /-- A connection that was open has been taken off its loop, or will be. -/
  established : ∀ id c, s.world.conns id = some c → Open c →
    (∃ th, .called .connectionDestroyed th id ∈ t.world.log) ∨
      .conn id .connectionDestroyed ∈ (t.world.loops c.loop).pending

/-- The promise of the teardown. -/
structure Clean (s t : Lifetime) : Prop extends Settled s t where
  /-- The channel of the acceptor is not registered with the base loop. -/
  acceptor : t.acceptor ≠ .listening

/-- Nothing is left to do when the destructor begins. -/
structure AtRest (s : Lifetime) : Prop where
  closed : ∀ id c, s.world.conns id = some c → ¬ Open c
  removed : ∀ id, .removeConnectionInLoop id ∉ (s.world.loops baseLoop).pending
  listened : s.acceptor ≠ .queued
  unregistered : ∀ fd, (s.world.loops baseLoop).poller.kernel fd = none

/-- A thread handles the end of a stream: the connection closes. -/
def closes (s : Lifetime) : Act → Bool
  | .world lb => s.mayRun lb && s.world.endOfStream lb
  | _ => false

/-- The step closes no connection. -/
def NoClose (s : Lifetime) (a : Act) : Prop := s.closes a = false

instance (s : Lifetime) (a : Act) : Decidable (s.NoClose a) :=
  inferInstanceAs (Decidable (_ = _))

end Lifetime

end HyperMuduo.Net.TcpServer
