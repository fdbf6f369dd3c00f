import HyperMuduo.Lib.Run
import HyperMuduo.EventLoop.Channel

/-!
# `EventLoop::loop` and its task queue

Model of `loop`, `quit`, `runInLoop`, `queueInLoop`, `wakeup` and `executePendingTasks` of
`net/EventLoop`, over tasks of any type. The system is one loop, the thread that runs it, and any
number of threads that queue tasks; a `Label` is one step.

* `Phase` is where the loop thread is: at the test of `quit_`, at `poller_->poll`, among the ready
  channels, between `is_processing_tasks_ = true` and the swap, or among the tasks swapped out.
* `queueInLoop` is two steps, the push under `task_mutex_` and the conditional `wakeup`; other threads
  step in between. `quit` is two steps as well. What is left of a call is in `pending`.
* User code on the loop thread runs outside `loop()`, in handlers and in tasks, never in `poll`.
  `runInLoop` on the loop thread runs the task inline; what the task does is steps of its own.
* `loop()` is called when no thread is in it; `EventLoop/Reentry` has the handlers and tasks that call it.
* The eventfd is its counter. A write adds, a read resets, and it is readable when positive.

A queued task carries two ghosts: how many `loop()` calls and how many batches had begun when it was
pushed. The log is a ghost.
-/

namespace HyperMuduo.Net.EventLoop

open HyperMuduo.Lib

/-- A task on the queue, with the number of `loop()` calls and of batches begun before its push. -/
structure Queued (τ : Type) where
  task : τ
  loops : Nat
  batches : Nat
  deriving DecidableEq, Repr

/-- A channel `poll` found ready: that of the eventfd, or another. -/
inductive Ready where
  | wakeup
  | other
  deriving DecidableEq, Repr

inductive Phase (τ : Type) where
  | outside
  | testing
  | polling
  | dispatching (ready : List Ready)
  | swapping
  | executing (tasks : List (Queued τ))
  deriving DecidableEq, Repr

/-- What is left of a call. -/
inductive Pending where
  /-- `queueInLoop` pushed its task. -/
  | queueInLoop
  /-- `quit` stored `quit_`. -/
  | quit
  deriving DecidableEq, Repr

/-- An entry of the log. -/
inductive Entry (τ : Type) where
  | pushed (q : Queued τ)
  /-- A task from the queue is executed, on thread `t` and in the `batch`-th batch. -/
  | executed (t : ThreadId) (q : Queued τ) (batch : Nat)
  /-- `runInLoop` calls the task. -/
  | called (t : ThreadId) (task : τ)
  deriving DecidableEq, Repr

structure Sys (τ : Type) where
  loop : LoopId
  isRunning : Bool
  quit : Bool
  isProcessingTasks : Bool
  taskQueue : List (Queued τ)
  eventfd : Nat
  phase : Phase τ
  /-- The thread in `loop()`. -/
  runner : ThreadId
  pending : ThreadId → Option Pending
  loops : Nat
  batches : Nat
  log : List (Entry τ)

inductive Label (τ : Type) where
  /-- Thread `t` calls `loop()`. -/
  | loop (t : ThreadId)
  /-- The next step of the thread in `loop()`; `ready` is what `poll` answers. -/
  | advance (ready : List Ready)
  | queueInLoop (t : ThreadId) (task : τ)
  | runInLoop (t : ThreadId) (task : τ)
  | quit (t : ThreadId)
  /-- The rest of the call thread `t` is in. -/
  | proceed (t : ThreadId)
  deriving DecidableEq, Repr

/-- The tasks of the batch in progress that have not started. -/
def Phase.rest {τ : Type} : Phase τ → List (Queued τ)
  | .executing tasks => tasks
  | _ => []

/-- User code can run on the loop thread. -/
def Phase.user {τ : Type} : Phase τ → Bool
  | .outside | .dispatching _ | .executing _ => true
  | _ => false

/-- No thread is in `loop()`. -/
def Phase.isOutside {τ : Type} : Phase τ → Bool
  | .outside => true
  | _ => false

namespace Sys

variable {τ : Type}

/-- A constructed loop. -/
def start (loop : LoopId) : Sys τ where
  loop := loop
  isRunning := false
  quit := true
  isProcessingTasks := false
  taskQueue := []
  eventfd := 0
  phase := .outside
  runner := .loop loop
  pending := fun _ => none
  loops := 0
  batches := 0
  log := []

/-- Thread `t` may begin a call. -/
def free (s : Sys τ) (t : ThreadId) : Bool :=
  (s.pending t).isNone && (!isInLoopThread s.loop t || s.phase.user)

/-- `wakeup`. -/
def wakeup (s : Sys τ) : Sys τ := { s with eventfd := s.eventfd + 1 }

/-- `task_queue_.push_back`, under the mutex. -/
def push (s : Sys τ) (t : ThreadId) (task : τ) : Sys τ :=
  let q : Queued τ := ⟨task, s.loops, s.batches⟩
  { s with
    taskQueue := s.taskQueue ++ [q]
    pending := Function.update s.pending t (some .queueInLoop)
    log := s.log ++ [.pushed q] }

/-- `loop`, up to the first test of `quit_`. A call that finds `is_running_` set skips the loop, and
clears the flag on its way out. -/
def enter (s : Sys τ) (t : ThreadId) : Except Fault (Sys τ) :=
  if s.isRunning then .ok { s with isRunning := false }
  else do
    assertInLoopThread s.loop t
    return { s with
      isRunning := true
      quit := false
      phase := .testing
      runner := t
      loops := s.loops + 1 }

/-- `handleEvent` of a ready channel. The handler of the eventfd reads it; what another handler does is
steps of its own. -/
def handleEvent (s : Sys τ) : Ready → Sys τ
  | .wakeup => { s with eventfd := 0 }
  | .other => s

/-- The next step of `loop`. -/
def advance (s : Sys τ) (ready : List Ready) : Sys τ :=
  match s.phase with
  | .outside => s
  | .testing =>
    if s.quit then { s with isRunning := false, phase := .outside } else { s with phase := .polling }
  | .polling =>
    -- the poller reports the eventfd only when it is readable
    if .wakeup ∈ ready ∧ s.eventfd = 0 then s else { s with phase := .dispatching ready }
  | .dispatching (x :: xs) => { s with phase := .dispatching xs }.handleEvent x
  | .dispatching [] => { s with isProcessingTasks := true, phase := .swapping }
  | .swapping =>
    { s with phase := .executing s.taskQueue, taskQueue := [], batches := s.batches + 1 }
  | .executing (q :: qs) =>
    { s with phase := .executing qs, log := s.log ++ [.executed s.runner q s.batches] }
  | .executing [] => { s with isProcessingTasks := false, phase := .testing }

/-- `queueInLoop` after the push, `quit` after the store. -/
def proceed (s : Sys τ) (t : ThreadId) : Pending → Sys τ
  | .queueInLoop =>
    if !isInLoopThread s.loop t || s.isProcessingTasks then s.wakeup else s
  | .quit => if isInLoopThread s.loop t then s else s.wakeup

def step (s : Sys τ) : Label τ → Except Fault (Sys τ)
  | .loop t => if s.free t && s.phase.isOutside then s.enter t else .ok s
  | .advance ready => .ok (if (s.pending s.runner).isNone then s.advance ready else s)
  | .queueInLoop t task => .ok (if s.free t then s.push t task else s)
  | .runInLoop t task =>
    .ok (if s.free t then
        if isInLoopThread s.loop t then { s with log := s.log ++ [.called t task] }
        else s.push t task
      else s)
  | .quit t =>
    .ok (if s.free t then
        { s with quit := true, pending := Function.update s.pending t (some .quit) }
      else s)
  | .proceed t =>
    match s.pending t with
    | none => .ok s
    | some p => .ok ({ s with pending := Function.update s.pending t none }.proceed t p)

end Sys

end HyperMuduo.Net.EventLoop
