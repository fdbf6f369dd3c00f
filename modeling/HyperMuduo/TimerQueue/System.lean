import HyperMuduo.Lib.Run
import HyperMuduo.EventLoop.Channel
import HyperMuduo.TimerQueue.Model

/-!
# A timer queue on its loop

The system around one `TimerQueue`: the loop thread handles the timerfd, runs the callbacks of expired
timers and executes queued closures; any thread adds and cancels timers. A `Label` is one step:

* `handleExpiredTimers_` is `handleExpiredTimers` (the read, and the batch taken from the queue), then
  for each entry `next` (the lookup, and the start of the callback when the timer is there) and
  `callbackReturns`. `Phase` is where it is. What a callback does is steps of its own.
* A call on the loop thread runs its closure inline: in a callback of a timer, or elsewhere on the
  loop. On another thread `addTimer` takes its sequence number, then pushes the closure and returns
  the id (`push`); calls in between are in `inFlight`. Closures run in the order of the queue.
* A cancel may name any number, also one no `addTimer` returned.
* The clock goes on at any step (`elapse`). Other loops take sequence numbers from the same counter
  (`otherLoop`).

The log is a ghost.
-/

namespace HyperMuduo.Net.TimerQueue

open HyperMuduo.Lib

/-- A closure on the loop's queue. -/
inductive Task where
  | insert (timer : Timer)
  | cancel (id : Nat)
  deriving DecidableEq, Repr

/-- Where the loop thread is in `handleExpiredTimers_`: outside, between callbacks, or in one. -/
inductive Phase where
  | idle
  | batch (rest : List Entry)
  | running (sequence : Nat) (rest : List Entry)
  deriving DecidableEq

/-- The entries of the batch that are not looked up yet. -/
def Phase.rest : Phase → List Entry
  | .idle => []
  | .batch rest | .running _ rest => rest

/-- User code can run on the loop thread. -/
def Phase.user : Phase → Bool
  | .batch _ => false
  | _ => true

/-- A record of the log. -/
inductive Event where
  /-- `addTimer` returned the id, or is about to. -/
  | returned (id : Nat)
  | inserted (timer : Timer)
  | cancelCalled (id : Nat)
  /-- The closure of `cancelTimer` ran, and found the timer or not. -/
  | cancelled (id : Nat) (found : Bool)
  /-- `handleExpiredTimers_` took a batch. -/
  | expired
  /-- The callback of the timer starts. -/
  | started (timer : Timer) (now : Int)
  deriving DecidableEq, Repr

structure Sys where
  loop : LoopId
  queue : TimerQueue
  now : Int
  counter : Nat
  phase : Phase
  taskQueue : List Task
  inFlight : List Timer
  log : List Event

inductive Label where
  | addTimer (t : ThreadId) (tp : Int) (interval : Int)
  /-- The rest of the `i`-th `addTimer` in flight. -/
  | push (i : Nat)
  | cancelTimer (t : ThreadId) (id : Nat)
  | runTask
  | handleExpiredTimers
  | next
  | callbackReturns
  | elapse (ns : Nat)
  | otherLoop
  deriving DecidableEq, Repr

namespace Sys

/-- An empty queue on a loop; the clock has gone past its epoch. -/
def start (loop : LoopId) (now : Nat) : Sys where
  loop := loop
  queue := .empty
  now := now
  counter := 0
  phase := .idle
  taskQueue := []
  inFlight := []
  log := []

def record (s : Sys) (e : Event) : Sys := { s with log := s.log ++ [e] }

/-- The closure of `addTimer` runs. -/
def insert (s : Sys) (timer : Timer) : Sys :=
  { s with queue := s.queue.insert s.now timer }.record (.inserted timer)

/-- The closure of `cancelTimer` runs. -/
def cancel (s : Sys) (id : Nat) : Sys :=
  { s with queue := s.queue.cancel id }.record (.cancelled id (s.queue.timers id).isSome)

/-- `addTimer`: `Timer`'s constructor takes the next number. -/
def addTimer (s : Sys) (t : ThreadId) (tp interval : Int) : Sys :=
  let timer : Timer := ⟨tp, interval, s.counter⟩
  let s := { s with counter := s.counter + 1 }
  if isInLoopThread s.loop t then (s.insert timer).record (.returned timer.sequence)
  else { s with inFlight := s.inFlight ++ [timer] }

def push (s : Sys) (i : Nat) : Sys :=
  match s.inFlight[i]? with
  | none => s
  | some timer =>
    let s : Sys :=
      { s with
        inFlight := s.inFlight.eraseIdx i
        taskQueue := s.taskQueue ++ [.insert timer] }
    s.record (.returned timer.sequence)

def cancelTimer (s : Sys) (t : ThreadId) (id : Nat) : Sys :=
  let s := s.record (.cancelCalled id)
  if isInLoopThread s.loop t then s.cancel id
  else { s with taskQueue := s.taskQueue ++ [.cancel id] }

def execute (s : Sys) : Task → Sys
  | .insert timer => s.insert timer
  | .cancel id => s.cancel id

def handleExpiredTimers (s : Sys) : Sys :=
  if s.queue.timerfd.unread then
    let (expired, queue) := s.queue.takeExpired s.now
    { s with queue := queue, phase := .batch expired }.record .expired
  -- `read` fails
  else s

/-- The next entry of the batch, or the end of it. -/
def next (s : Sys) : Sys :=
  match s.phase with
  | .batch [] => { s with queue := s.queue.resetTimerFd s.now, phase := .idle }
  | .batch (e :: rest) =>
    match s.queue.timers e.sequence with
    | none => { s with phase := .batch rest }
    | some timer => { s with phase := .running e.sequence rest }.record (.started timer s.now)
  | _ => s

def callbackReturns (s : Sys) : Sys :=
  match s.phase with
  | .running sequence rest =>
    { s with queue := s.queue.rearm s.now sequence, phase := .batch rest }
  | _ => s

def elapse (s : Sys) (ns : Nat) : Sys :=
  let now := s.now + ns
  { s with now := now, queue := { s.queue with timerfd := s.queue.timerfd.elapse now } }

/-- A thread other than the loop's, or the loop thread in user code, may call. -/
def free (s : Sys) (t : ThreadId) : Bool := !isInLoopThread s.loop t || s.phase.user

def step (s : Sys) : Label → Except Fault Sys
  | .addTimer t tp interval => .ok (if s.free t then s.addTimer t tp interval else s)
  | .push i => .ok (s.push i)
  | .cancelTimer t id => .ok (if s.free t then s.cancelTimer t id else s)
  | .runTask =>
    match s.phase, s.taskQueue with
    | .idle, task :: tasks => .ok ({ s with taskQueue := tasks }.execute task)
    | _, _ => .ok s
  | .handleExpiredTimers => .ok (if s.phase = .idle then s.handleExpiredTimers else s)
  | .next => .ok s.next
  | .callbackReturns => .ok s.callbackReturns
  | .elapse ns => .ok (s.elapse ns)
  | .otherLoop => .ok { s with counter := s.counter + 1 }

end Sys

end HyperMuduo.Net.TimerQueue
