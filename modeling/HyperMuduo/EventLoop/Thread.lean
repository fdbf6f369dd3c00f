import HyperMuduo.EventLoop.Loop

/-!
# `EventLoopThread`: a loop in a thread of its own

Model of `net/EventLoopThread`. Two threads work on one `EventLoopThread` object: its owner, which
calls `startLoop` and later the destructor, and the body `startLoop` puts in `thread_`, which has the
`EventLoop` on its stack. They share `loop_`, `mutex_` and `condition_`. The loop itself is
`EventLoop.Sys`, with all its phases and its task queue.

* A step is one access to what is shared: taking or releasing the mutex, the store and the reset of
  `loop_`, the notification, the store of `quit_ = false` at the start of `loop()`. The destructor
  reads `loop_` without the mutex.
* `condition_.wait` gives the mutex back and blocks in one step. `notify_one` wakes the owner if it is
  blocked, and is lost otherwise. A wakeup may also be spurious. Awake, the owner takes the mutex and
  tests again.
* User code runs on the body thread in the init callback and, inside `loop()`, in handlers, timers and
  tasks. Other threads may have a reference to the loop, from the callback or from the owner. All of
  them may queue tasks and call `quit`.
* The loop is destroyed when the body ends. A call on it after that follows a dangling reference.

`quitRequested` and `pollsAfterQuit` are ghosts: a thread other than the body's called `quit()` after
`startLoop` had returned, and the polls begun since.
-/

namespace HyperMuduo.Net

/-- The loop is about to test `quit_`. -/
def EventLoop.Phase.isTesting {τ : Type} : EventLoop.Phase τ → Bool
  | .testing => true
  | _ => false

namespace EventLoopThread

open HyperMuduo.Lib
open EventLoop (Ready Phase)

/-- Where the owner is. -/
inductive Owner where
  | idle
  /-- `startLoop` has created the thread and is about to take the mutex. -/
  | starting
  /-- It tests `loop_ != nullptr`, with the mutex. -/
  | testing
  /-- It is blocked in `condition_.wait`. -/
  | waiting
  /-- It was woken and is about to take the mutex again. -/
  | waking
  /-- It returns `*loop_` and releases the mutex. -/
  | returning
  | started
  /-- The destructor is about to read `loop_`. -/
  | destructor
  /-- It calls `loop_->quit()`: the store of `quit_`, then the wakeup. -/
  | quitting
  | wakingUp
  | joining
  | destroyed
  deriving DecidableEq, Repr

/-- Where the body of the thread is. -/
inductive Body where
  | notStarted
  /-- The loop is constructed, `cb_` runs. -/
  | callback
  | locking
  /-- `loop_ = &loop`, `notify_one` and `unlock`, with the mutex. -/
  | storing
  | notifying
  | unlocking
  /-- `loop()` is called and has not stored `quit_ = false`. -/
  | entering
  | looping
  /-- `loop()` returned, the mutex is taken again, `loop_` reset. -/
  | relocking
  | clearing
  | releasing
  /-- The loop is destroyed. -/
  | destroying
  | finished
  deriving DecidableEq, Repr

/-- Who has the mutex. -/
inductive Holder where
  | owner
  | body
  deriving DecidableEq, Repr

/-- A step of a call on the loop. -/
inductive UserCall (τ : Type) where
  | queueInLoop (task : τ)
  | runInLoop (task : τ)
  | quit
  /-- The rest of the call the thread is in. -/
  | proceed
  deriving DecidableEq, Repr

def ownerThread : ThreadId := .user 0

def bodyThread : ThreadId := .loop 0

structure Sys (τ : Type) where
  owner : Owner
  body : Body
  mutex : Option Holder
  /-- `loop_` is not null. -/
  loopPtr : Bool
  joinable : Bool
  exiting : Bool
  loop : EventLoop.Sys τ
  quitRequested : Bool
  pollsAfterQuit : Nat

inductive Label (τ : Type) where
  | startLoop
  /-- The destructor is called. -/
  | destroy
  /-- The next step of the owner. -/
  | owner
  /-- `condition_.wait` wakes up for no reason. -/
  | spurious
  /-- The next step of the body; `ready` is what `poll` answers. -/
  | body (ready : List Ready)
  /-- Thread `t` makes a step of a call on the loop. -/
  | user (t : ThreadId) (call : UserCall τ)
  deriving DecidableEq, Repr

/-- `startLoop` has begun and not returned. -/
def Owner.inStartLoop : Owner → Bool
  | .starting | .testing | .waiting | .waking | .returning => true
  | _ => false

/-- `startLoop` has returned. -/
def Owner.hasStarted : Owner → Bool
  | .started | .destructor | .quitting | .wakingUp | .joining | .destroyed => true
  | _ => false

def UserCall.isQuit {τ : Type} : UserCall τ → Bool
  | .quit => true
  | _ => false

def UserCall.toLabel {τ : Type} (t : ThreadId) : UserCall τ → EventLoop.Label τ
  | .queueInLoop task => .queueInLoop t task
  | .runInLoop task => .runInLoop t task
  | .quit => .quit t
  | .proceed => .proceed t

namespace Sys

variable {τ : Type}

/-- A constructed `EventLoopThread`. -/
def init : Sys τ where
  owner := .idle
  body := .notStarted
  mutex := none
  loopPtr := false
  joinable := false
  exiting := false
  loop := .start 0
  quitRequested := false
  pollsAfterQuit := 0

/-- `startLoop`, up to the creation of the thread. -/
def startLoop (s : Sys τ) : Except Fault (Sys τ) :=
  if s.joinable then .error .abort
  else .ok { s with joinable := true, owner := .starting, body := .callback, loop := .start 0 }

/-- The next step of the owner in `startLoop` or in the destructor. -/
def ownerStep (s : Sys τ) : Except Fault (Sys τ) :=
  match s.owner with
  | .starting | .waking =>
    .ok (if s.mutex = none then { s with mutex := some .owner, owner := .testing } else s)
  | .testing =>
    .ok (if s.loopPtr then { s with owner := .returning }
      else { s with mutex := none, owner := .waiting })
  | .returning => .ok { s with mutex := none, owner := .started }
  | .destructor => .ok (if s.loopPtr then { s with owner := .quitting } else { s with owner := .destroyed })
  | .quitting =>
    if s.body = .finished then .error .invalidPointer
    else .ok { s with
      owner := .wakingUp
      loop := { s.loop with quit := true }
      quitRequested := true }
  | .wakingUp =>
    if s.body = .finished then .error .invalidPointer
    else .ok { s with owner := .joining, loop := s.loop.wakeup }
  | .joining =>
    .ok (if s.joinable then
        if s.body = .finished then { s with joinable := false, owner := .destroyed } else s
      else { s with owner := .destroyed })
  | .idle | .waiting | .started | .destroyed => .ok s

/-- The next step of the thread in `loop()`. -/
def loopStep (s : Sys τ) (ready : List Ready) : Sys τ :=
  if (s.loop.pending bodyThread).isNone then
    let loop := s.loop.advance ready
    if loop.phase.isOutside then { s with loop := loop, body := .relocking }
    else { s with
      loop := loop
      pollsAfterQuit :=
        if s.quitRequested && s.loop.phase.isTesting then s.pollsAfterQuit + 1
        else s.pollsAfterQuit }
  else s

/-- The next step of the body. -/
def bodyStep (s : Sys τ) (ready : List Ready) : Except Fault (Sys τ) :=
  match s.body with
  | .callback =>
    .ok (if (s.loop.pending bodyThread).isNone then { s with body := .locking } else s)
  | .locking =>
    .ok (if s.mutex = none then { s with mutex := some .body, body := .storing } else s)
  | .storing => .ok { s with loopPtr := true, body := .notifying }
  | .notifying =>
    .ok { s with owner := if s.owner = .waiting then .waking else s.owner, body := .unlocking }
  | .unlocking => .ok { s with mutex := none, body := .entering }
  | .entering => do
    let loop ← s.loop.enter bodyThread
    return { s with loop := loop, body := .looping }
  | .looping => .ok (s.loopStep ready)
  | .relocking =>
    .ok (if s.mutex = none then { s with mutex := some .body, body := .clearing } else s)
  | .clearing => .ok { s with loopPtr := false, body := .releasing }
  | .releasing => .ok { s with mutex := none, body := .destroying }
  | .destroying => .ok { s with body := .finished }
  | .notStarted | .finished => .ok s

/-- Thread `t` can be in user code: the body in its callback and inside `loop()`, the owner between
`startLoop` and the destructor, any other thread at any time. -/
def inUserCode (s : Sys τ) (t : ThreadId) : Bool :=
  if t = bodyThread then s.body = .callback || s.body = .looping
  else t ≠ ownerThread || s.owner = .started

/-- This step is the store of `quit_ = true` by thread `t`. -/
def storesQuit (s : Sys τ) (t : ThreadId) (call : UserCall τ) : Bool :=
  call.isQuit && s.inUserCode t && s.loop.free t

def userStep (s : Sys τ) (t : ThreadId) (call : UserCall τ) : Except Fault (Sys τ) :=
  if s.inUserCode t then
    match s.body with
    | .notStarted => .ok s
    | .finished => .error .invalidPointer
    | _ => do
      let loop ← s.loop.step (call.toLabel t)
      return { s with
        loop := loop
        quitRequested := s.quitRequested ||
          (s.storesQuit t call && !isInLoopThread 0 t && s.owner.hasStarted) }
  else .ok s

def step (s : Sys τ) : Label τ → Except Fault (Sys τ)
  | .startLoop =>
    if (s.owner = .idle ∨ s.owner = .started) ∧ s.loop.pending ownerThread = none then s.startLoop
    else .ok s
  | .destroy =>
    .ok (if (s.owner = .idle ∨ s.owner = .started) ∧ s.loop.pending ownerThread = none then
        { s with exiting := true, owner := .destructor }
      else s)
  | .owner => s.ownerStep
  | .spurious => .ok (if s.owner = .waiting then { s with owner := .waking } else s)
  | .body ready => s.bodyStep ready
  | .user t call => s.userStep t call

end Sys

end EventLoopThread

end HyperMuduo.Net
