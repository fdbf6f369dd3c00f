import HyperMuduo.Lib.Run
import HyperMuduo.TcpConnection.LifeCycle

/-!
# One connection, its loop and the threads that use it

The system around one `TcpConnection`: the loop thread dispatches events and executes queued tasks,
user code on the loop thread (callbacks included) and on other threads calls the connection, and the
owner queues `connectionDestroyed`. A `Label` is one step:

* A call on the loop thread is one step. A callback of the user is not part of the step that calls
  it; what it does is steps of its own right after. No member function touches the connection after a
  callback returns. `connectionDestroyed` still deregisters the channel then, but in `Disconnected`
  neither `send` nor `shutdown` does anything.
* A call on another thread is cut where the threads can interleave: the test of `state_`, the store
  of `Disconnecting` (for `shutdown`), the push of the task. What is left of it is in `inFlight`.
* An event is dispatched only to a registered channel; the conditions reported are arbitrary, so both
  pollers are covered. `connectionDestroyed` runs as a queued task, never during a dispatch.
* Tasks run in the order of the queue.
* `send_buffer_` is also reachable from the user, through `sendBuffer()` (`ProtobufHandler::Send`
  appends to it that way): `useSendBuffer` leaves any buffer in its place.

The log is a ghost: what happened so far, in order.
-/

namespace HyperMuduo.Net.TcpConnection

open HyperMuduo.Lib

/-- What the owner and the user set before the connection is used. -/
structure Setup where
  messageCallback : Bool
  connectionCallback : Bool
  highWaterMark : Nat
  highWaterCallback : Bool
  writeCompleteCallback : Bool
  closeCallback : Option CloseCallback
  deriving DecidableEq, Repr

def Setup.apply (u : Setup) (c : TcpConnection) : TcpConnection :=
  { c with
    messageCallback := u.messageCallback
    connectionCallback := u.connectionCallback
    highWaterMark := u.highWaterMark
    highWaterCallback := u.highWaterCallback
    writeCompleteCallback := u.writeCompleteCallback
    closeCallback := u.closeCallback }

/-- What is left of a call on another thread. -/
inductive InFlight where
  /-- `send` passed its test: push the task. -/
  | sendPush (arg : SendArg)
  /-- `shutdown` passed its test: store `Disconnecting`. -/
  | shutdownStore
  /-- `shutdown` stored the state: push the task. -/
  | shutdownPush
  deriving DecidableEq, Repr

/-- An entry of the log. -/
inductive Entry where
  | effect (e : Effect)
  /-- A `send` passed its test, with these bytes. -/
  | sendCalled (bytes : List Byte)
  /-- A `shutdown` passed its test. -/
  | shutdownCalled
  /-- A task ran, from the queue or inline. -/
  | ran (task : Task)
  deriving DecidableEq, Repr

/-- The system around one connection. -/
structure Sys where
  conn : TcpConnection
  poller : Epoller Unit
  taskQueue : List Task
  inFlight : List InFlight
  memory : Memory
  log : List Entry

inductive Label where
  | connectionEstablished
  /-- The poller reports `revents`; `r` and `w` are what `readv` and `::write` answer. -/
  | event (revents : PollEvents) (r : ReadResult) (w : Int)
  /-- The loop executes the task at the front of the queue. -/
  | runTask (w : Int)
  /-- Calls on the loop thread. -/
  | send (arg : SendArg) (w : Int)
  | sendInLoop (arg : SendArg) (w : Int)
  | shutdown
  | shutdownInLoop
  | useSendBuffer (buf : Buffer)
  /-- Calls on another thread, up to the test of `state_`. -/
  | sendCheck (arg : SendArg)
  | shutdownCheck
  /-- The next step of the `i`-th call in flight. -/
  | advance (i : Nat)
  /-- The owner queues `connectionDestroyed`. -/
  | queueDestroyed
  /-- A thread writes its memory. -/
  | store (m : Memory)

/-- What an effect does to the poller, for a channel on `fd`. -/
def Effect.onPoller (fd : Int) (ep : Epoller Unit) : Effect → Epoller Unit
  | .updateChannel events => ep.updateChannel () fd events
  | .removeChannel => ep.removeChannel fd
  | _ => ep

/-- What an effect adds to the loop's queue. -/
def Effect.queued : Effect → List Task
  | .queueInLoop task => [task]
  | _ => []

/-- Ordinary effects queue the tasks of the two output callbacks only. -/
theorem queued_of_ordinary {es : List Effect} (h : es.all Effect.ordinary = true) :
    ∀ task ∈ es.flatMap Effect.queued,
      task = .writeCompleteCallback ∨ task = .highWaterCallback := by
  intro task hmem
  obtain ⟨e, he, htask⟩ := List.mem_flatMap.mp hmem
  have hord := List.all_eq_true.mp h e he
  cases e with
  | queueInLoop task' =>
    obtain rfl := List.mem_singleton.mp htask
    cases task <;> simp_all [Effect.ordinary, Effect.output]
  | _ => exact absurd htask List.not_mem_nil

namespace Sys

/-- A constructed connection, set up, with its channel not yet registered. -/
def start (u : Setup) (loop : LoopId) (name : String) (fd : Int) : Sys where
  conn := u.apply (construct loop name fd)
  poller := .empty
  taskQueue := []
  inFlight := []
  memory := fun _ => 0
  log := []

/-- The channel is in the poller's registry. -/
def registered (s : Sys) : Bool := (s.poller.kernel s.conn.channel.fd).isSome

def record (s : Sys) (e : Entry) : Sys := { s with log := s.log ++ [e] }

/-- A member function returned: its connection, and its effects carried out in order. -/
def absorb (s : Sys) (c : TcpConnection) (es : List Effect) : Sys :=
  { s with
    conn := c
    poller := es.foldl (fun ep e => e.onPoller c.channel.fd ep) s.poller
    taskQueue := s.taskQueue ++ es.flatMap Effect.queued
    log := s.log ++ es.map .effect }

/-- Call a member function. -/
def invoke (s : Sys) (r : Result) : Except Fault Sys := do
  let (c, es) ← r
  return s.absorb c es

/-- The bytes an argument of `send` stands for now. -/
def argBytes (s : Sys) : SendArg → List Byte
  | .string msg => msg
  | .buffer buf => buf.readable
  | .pointer addr len => s.memory.read addr len

/-- The loop thread. -/
def thread (s : Sys) : ThreadId := .loop s.conn.loop

/-- Execute a task. The two user callbacks are steps of the user. -/
def execute (s : Sys) (w : Int) (task : Task) : Except Fault Sys :=
  match task with
  | .connectionEstablished => s.invoke (s.conn.connectionEstablished s.thread)
  | .connectionDestroyed => s.invoke (s.conn.connectionDestroyed s.thread)
  | .shutdownInLoop => s.invoke (s.conn.shutdownInLoop s.thread)
  | .sendString msg => s.invoke (s.conn.sendArgInLoop s.thread s.memory (.string msg) w)
  | .sendBuffer buf => s.invoke (s.conn.sendArgInLoop s.thread s.memory (.buffer buf) w)
  | .sendPointer addr len =>
    s.invoke (s.conn.sendArgInLoop s.thread s.memory (.pointer addr len) w)
  | .writeCompleteCallback | .highWaterCallback => .ok s

/-- Call the handlers of an event in order. -/
def runHandlers (s : Sys) (r : ReadResult) (w : Int) : List Handler → Except Fault Sys
  | [] => .ok s
  | h :: hs => do
    let s ← s.invoke (s.conn.runHandler s.thread r w h)
    s.runHandlers r w hs

/-- `EventLoop::loop` on a ready channel: set the conditions reported, call `handleEvent`. -/
def dispatch (s : Sys) (revents : PollEvents) (r : ReadResult) (w : Int) : Except Fault Sys :=
  let conn := { s.conn with channel := s.conn.channel.setReturnEvents revents }
  { s with conn := conn }.runHandlers r w conn.channel.handleEvent

/-- The next step of a call in flight on another thread. -/
def advance (s : Sys) (i : Nat) : Sys :=
  match s.inFlight[i]? with
  | some (.sendPush arg) =>
    { s with inFlight := s.inFlight.eraseIdx i, taskQueue := s.taskQueue ++ [arg.task] }
  | some .shutdownStore =>
    { s with
      inFlight := s.inFlight.set i .shutdownPush
      conn := { s.conn with state := .disconnecting } }
  | some .shutdownPush =>
    { s with inFlight := s.inFlight.eraseIdx i, taskQueue := s.taskQueue ++ [.shutdownInLoop] }
  | none => s

def step (s : Sys) : Label → Except Fault Sys
  | .connectionEstablished => s.invoke (s.conn.connectionEstablished s.thread)
  | .event revents r w => if s.registered then s.dispatch revents r w else .ok s
  | .runTask w =>
    match s.taskQueue with
    | [] => .ok s
    | task :: rest => ({ s with taskQueue := rest }.record (.ran task)).execute w task
  | .send arg w =>
    let s := if s.conn.connected then s.record (.sendCalled (s.argBytes arg)) else s
    s.invoke (s.conn.send s.thread s.memory arg w)
  | .sendInLoop arg w => s.invoke (s.conn.sendArgInLoop s.thread s.memory arg w)
  | .shutdown =>
    let s :=
      if s.conn.connected then (s.record .shutdownCalled).record (.ran .shutdownInLoop) else s
    s.invoke (s.conn.shutdown s.thread)
  | .shutdownInLoop => s.invoke (s.conn.shutdownInLoop s.thread)
  | .useSendBuffer buf => .ok { s with conn := { s.conn with sendBuffer := buf } }
  | .sendCheck arg =>
    if s.conn.connected then
      .ok ({ s with inFlight := s.inFlight ++ [InFlight.sendPush arg] }.record
        (.sendCalled (s.argBytes arg)))
    else .ok s
  | .shutdownCheck =>
    if s.conn.connected then
      .ok ({ s with inFlight := s.inFlight ++ [InFlight.shutdownStore] }.record .shutdownCalled)
    else .ok s
  | .advance i => .ok (s.advance i)
  | .queueDestroyed => .ok { s with taskQueue := s.taskQueue ++ [.connectionDestroyed] }
  | .store m => .ok { s with memory := m }

/-! ## What a step can do

A step calls member functions of the connection, and around the calls touches only what an invariant
about the connection, the poller and the effects does not see. `step_rule` says this once. -/

/-- The effects so far. -/
def effects (s : Sys) : List Effect :=
  s.log.filterMap fun e =>
    match e with
    | .effect e => some e
    | _ => none

/-- The `sendInLoop` a task calls. -/
def Task.sends : Task → Option SendArg
  | .sendString msg => some (.string msg)
  | .sendBuffer buf => some (.buffer buf)
  | .sendPointer addr len => some (.pointer addr len)
  | _ => none

/-- The `sendInLoop` a step calls, and the answer of `::write` in it. -/
def sends (s : Sys) : Label → Option (SendArg × Int)
  | .send arg w => if s.conn.connected then some (arg, w) else none
  | .sendInLoop arg w => some (arg, w)
  | .runTask w => (s.taskQueue.head?.bind Task.sends).map fun arg => (arg, w)
  | _ => none

/-- Step `l` from `s₀` called a member function on the loop thread, in `s`, and it returned. -/
inductive MemberCall (s₀ : Sys) (l : Label) (s : Sys) (c : TcpConnection) (es : List Effect) :
    Prop where
  | connectionEstablished (h : s.conn.connectionEstablished s.thread = .ok (c, es))
  | connectionDestroyed (h : s.conn.connectionDestroyed s.thread = .ok (c, es))
  | sendInLoop {arg : SendArg} {w : Int} (hl : s₀.sends l = some (arg, w)) (hc : s.conn = s₀.conn)
    (hm : s.memory = s₀.memory) (he : s.effects = s₀.effects)
    (h : s.conn.sendArgInLoop s.thread s.memory arg w = .ok (c, es))
  | shutdownInLoop (h : s.conn.shutdownInLoop s.thread = .ok (c, es))
  | handler {revents : PollEvents} {r : ReadResult} {w : Int} {x : Handler}
    (hl : l = .event revents r w) (h : s.conn.runHandler s.thread r w x = .ok (c, es))

/-- `c'` is `c` with another send buffer, other reported conditions, or `Disconnecting` stored. -/
structure Touched (c c' : TcpConnection) : Prop where
  wiring : c'.wiring = c.wiring
  socket : c'.socket = c.socket
  events : c'.channel.events = c.channel.events
  state : c'.state = c.state ∨ c'.state = .disconnecting

variable {s s' : Sys} {l : Label}

theorem inLoopThread (s : Sys) : isInLoopThread s.conn.loop s.thread = true := isInLoopThread_self _

theorem invoke_inv {r : Result} (he : s.invoke r = .ok s') :
    ∃ c es, r = .ok (c, es) ∧ s' = s.absorb c es := by
  obtain ⟨⟨c, es⟩, hr, he⟩ := bind_ok_inv he
  simp only [pure, Except.pure, Except.ok.injEq] at he
  exact ⟨c, es, hr, he.symm⟩

@[simp] theorem effects_absorb (s : Sys) (c : TcpConnection) (es : List Effect) :
    (s.absorb c es).effects = s.effects ++ es := by
  simp only [effects, absorb, List.filterMap_append, List.filterMap_map]
  congr 1
  exact List.filterMap_some

theorem effects_record {e : Entry} (he : ∀ e', e ≠ .effect e') : (s.record e).effects = s.effects := by
  cases e with
  | effect e' => exact absurd rfl (he e')
  | _ => simp [effects, record]

theorem touched_refl (c : TcpConnection) : Touched c c := ⟨rfl, rfl, rfl, Or.inl rfl⟩

section Rule

variable {s₀ : Sys} {I : Sys → Prop}
  (hcall : ∀ {s c es}, I s → MemberCall s₀ l s c es → I (s.absorb c es))

/-- What every handler keeps, a dispatch keeps. -/
theorem runHandlers_rule {r : ReadResult} {w : Int} {hs : List Handler}
    (hhandler : ∀ {s c es x}, I s → s.conn.runHandler s.thread r w x = .ok (c, es) →
      I (s.absorb c es)) (hI : I s) (he : s.runHandlers r w hs = .ok s') : I s' := by
  induction hs generalizing s with
  | nil =>
    obtain rfl := Except.ok.inj he
    exact hI
  | cons x hs ih =>
    obtain ⟨s₁, h1, h2⟩ := bind_ok_inv he
    obtain ⟨c, es, hr, rfl⟩ := invoke_inv h1
    exact ih (hhandler hI hr) h2

include hcall in
theorem execute_rule {w : Int} {task : Task} (hI : I s) (hc : s.conn = s₀.conn)
    (hm : s.memory = s₀.memory) (heff : s.effects = s₀.effects)
    (hsends : ∀ arg, Task.sends task = some arg → s₀.sends l = some (arg, w))
    (he : s.execute w task = .ok s') : I s' := by
  cases task with
  | connectionEstablished =>
    obtain ⟨c, es, hr, rfl⟩ := invoke_inv he
    exact hcall hI (.connectionEstablished hr)
  | connectionDestroyed =>
    obtain ⟨c, es, hr, rfl⟩ := invoke_inv he
    exact hcall hI (.connectionDestroyed hr)
  | shutdownInLoop =>
    obtain ⟨c, es, hr, rfl⟩ := invoke_inv he
    exact hcall hI (.shutdownInLoop hr)
  | sendString msg =>
    obtain ⟨c, es, hr, rfl⟩ := invoke_inv he
    exact hcall hI (.sendInLoop (hsends _ rfl) hc hm heff hr)
  | sendBuffer buf =>
    obtain ⟨c, es, hr, rfl⟩ := invoke_inv he
    exact hcall hI (.sendInLoop (hsends _ rfl) hc hm heff hr)
  | sendPointer addr len =>
    obtain ⟨c, es, hr, rfl⟩ := invoke_inv he
    exact hcall hI (.sendInLoop (hsends _ rfl) hc hm heff hr)
  | writeCompleteCallback =>
    obtain rfl := Except.ok.inj he
    exact hI
  | highWaterCallback =>
    obtain rfl := Except.ok.inj he
    exact hI

theorem advance_touched (s : Sys) (i : Nat) :
    Touched s.conn (s.advance i).conn ∧ (s.advance i).poller = s.poller ∧
      (s.advance i).effects = s.effects := by
  unfold advance
  split
  · exact ⟨touched_refl _, rfl, rfl⟩
  · exact ⟨⟨rfl, rfl, rfl, Or.inr rfl⟩, rfl, rfl⟩
  · exact ⟨touched_refl _, rfl, rfl⟩
  · exact ⟨touched_refl _, rfl, rfl⟩

end Rule

/-- **The step rule.** What every member function keeps, every step keeps. -/
theorem step_rule {I : Sys → Prop}
    (hsame : ∀ {s s'}, I s → Touched s.conn s'.conn → s'.poller = s.poller →
      s'.effects = s.effects → I s')
    (hcall : ∀ {s' c es}, I s' → MemberCall s l s' c es → I (s'.absorb c es))
    (hI : I s) (he : s.step l = .ok s') : I s' := by
  cases l with
  | connectionEstablished =>
    obtain ⟨c, es, hr, rfl⟩ := invoke_inv he
    exact hcall hI (.connectionEstablished hr)
  | event revents r w =>
    simp only [step] at he
    split at he
    · have h₀ : I
          { s with conn := { s.conn with channel := s.conn.channel.setReturnEvents revents } } :=
        hsame hI ⟨rfl, rfl, rfl, Or.inl rfl⟩ rfl rfl
      exact runHandlers_rule (fun hI hr => hcall hI (.handler rfl hr)) h₀ he
    · obtain rfl := Except.ok.inj he
      exact hI
  | runTask w =>
    simp only [step] at he
    split at he
    · obtain rfl := Except.ok.inj he
      exact hI
    · rename_i task rest hq
      have h₀ : I ({ s with taskQueue := rest }.record (.ran task)) :=
        hsame hI (touched_refl _) rfl (effects_record (by simp))
      refine execute_rule hcall h₀ rfl rfl (effects_record (by simp)) (fun arg harg => ?_) he
      simp only [sends, hq, List.head?_cons, Option.bind_some, harg, Option.map_some]
  | send arg w =>
    obtain ⟨c, es, hr, rfl⟩ := invoke_inv he
    by_cases hconn : s.conn.connected = true
    · simp only [if_pos hconn] at hr ⊢
      have h₀ : I (s.record (.sendCalled (s.argBytes arg))) :=
        hsame hI (touched_refl _) rfl (effects_record (by simp))
      rcases send_inv hr with ⟨-, rfl, rfl⟩ | ⟨-, -, hr⟩ | ⟨-, ht, -, -⟩
      · exact hsame h₀ (touched_refl _) rfl (by simp)
      · exact hcall h₀ (.sendInLoop (if_pos hconn) rfl rfl (effects_record (by simp)) hr)
      · exact absurd (ht.symm.trans (inLoopThread (s.record _))) (by simp)
    · simp only [if_neg hconn] at hr ⊢
      rcases send_inv hr with ⟨-, rfl, rfl⟩ | ⟨hc, -⟩ | ⟨hc, -⟩
      · exact hsame hI (touched_refl _) rfl (by simp)
      · exact absurd (by simp [connected, hc]) hconn
      · exact absurd (by simp [connected, hc]) hconn
  | sendInLoop arg w =>
    obtain ⟨c, es, hr, rfl⟩ := invoke_inv he
    exact hcall hI (.sendInLoop rfl rfl rfl rfl hr)
  | shutdown =>
    obtain ⟨c, es, hr, rfl⟩ := invoke_inv he
    generalize hs₀ : (if s.conn.connected then
      (s.record .shutdownCalled).record (.ran .shutdownInLoop) else s) = s₀ at hr
    have h₀ : I s₀ := by
      rw [← hs₀]
      split
      · refine hsame hI (touched_refl _) rfl ?_
        rw [effects_record (by simp), effects_record (by simp)]
      · exact hI
    rcases shutdown_inv hr with ⟨-, rfl, rfl⟩ | ⟨-, rfl, rfl⟩
    · exact hsame h₀ (touched_refl _) rfl (by simp)
    · rw [if_pos s₀.inLoopThread]
      exact hsame h₀ ⟨rfl, rfl, rfl, Or.inr rfl⟩ rfl (by simp)
  | shutdownInLoop =>
    obtain ⟨c, es, hr, rfl⟩ := invoke_inv he
    exact hcall hI (.shutdownInLoop hr)
  | useSendBuffer buf =>
    obtain rfl := Except.ok.inj he
    exact hsame hI ⟨rfl, rfl, rfl, Or.inl rfl⟩ rfl rfl
  | sendCheck arg =>
    simp only [step] at he
    split at he
    · obtain rfl := Except.ok.inj he
      exact hsame hI (touched_refl _) rfl (effects_record (by simp))
    · obtain rfl := Except.ok.inj he
      exact hI
  | shutdownCheck =>
    simp only [step] at he
    split at he
    · obtain rfl := Except.ok.inj he
      exact hsame hI (touched_refl _) rfl (effects_record (by simp))
    · obtain rfl := Except.ok.inj he
      exact hI
  | advance i =>
    obtain rfl := Except.ok.inj he
    obtain ⟨h1, h2, h3⟩ := advance_touched s i
    exact hsame hI h1 h2 h3
  | queueDestroyed =>
    obtain rfl := Except.ok.inj he
    exact hsame hI (touched_refl _) rfl rfl
  | store m =>
    obtain rfl := Except.ok.inj he
    exact hsame hI (touched_refl _) rfl rfl

theorem MemberCall.wiring {s₀ : Sys} {c : TcpConnection} {es : List Effect}
    (h : MemberCall s₀ l s c es) : c.wiring = s.conn.wiring := by
  cases h with
  | connectionEstablished h =>
    obtain ⟨-, -, rfl, -⟩ := connectionEstablished_inv h
    rfl
  | connectionDestroyed h =>
    obtain ⟨-, rfl, -⟩ := connectionDestroyed_inv h
    rfl
  | sendInLoop _ _ _ _ h => exact (sendArgInLoop_wiring h).1
  | shutdownInLoop h => exact shutdownInLoop_wiring h
  | handler _ h => exact runHandler_wiring h

/-- **No step of the system rewires the connection.** -/
theorem step_wiring {k : TcpConnection} (hk : s.conn.wiring = k) (he : s.step l = .ok s') :
    s'.conn.wiring = k :=
  step_rule (I := fun s => s.conn.wiring = k) (fun hI ht _ _ => ht.wiring.trans hI)
    (fun hI hc => hc.wiring.trans hI) hk he

/-- A state the system can be in. -/
def Reachable (s : Sys) : Prop :=
  ∃ u loop name fd labels, run step (start u loop name fd) labels = .ok s

/-- Only the read callback is ever installed. -/
theorem reachable_callbacks (h : Reachable s) :
    s.conn.channel.readCallback = some .handleReadable ∧ s.conn.channel.writeCallback = none ∧
      s.conn.channel.errorCallback = none := by
  obtain ⟨u, loop, name, fd, labels, hr⟩ := h
  have hw : s.conn.wiring = (start u loop name fd).conn.wiring :=
    run_preserves (I := fun s => s.conn.wiring = (start u loop name fd).conn.wiring) step_wiring rfl hr
  exact ⟨wiring_readCallback hw, wiring_writeCallback hw, wiring_errorCallback hw⟩

end Sys

end HyperMuduo.Net.TcpConnection
