import HyperMuduo.Lib.PartialMap
import HyperMuduo.Connector.Spec
import HyperMuduo.TcpConnection.LifeCycle
import HyperMuduo.TcpClient.System

/-!
# What a step of a client can do

`Stepped s l s'` lists the ways a step goes: what it changes, and what held before it. Every invariant
of the client is proved from it (`step_stepped`), not from the step function.

* A step that only moves flags, phases and calls under way is `Steady`: it leaves the connections, the
  poller and the attempt of the connector alone.
* `armed` counts the retry timers, those that have expired but not run included. `destroying` are the
  closures that will destroy a connection, the one `~TcpClient` is about to post included.
* `connects`, `fires`, `closes`, `restarts` and `establishes` say of a step what it is about to do, by
  the state it is taken in.
-/

namespace HyperMuduo.Net.TcpClient

open HyperMuduo.Lib
open TcpConnection (PlainCall)

/-- The closure destroys a connection. -/
def Task.destroys : Task → Bool
  | .conn _ .connectionDestroyed | .clientDestroyed _ => true
  | _ => false

/-- `~TcpClient` has not read `connection_`. -/
def Destructor.unread : Destructor → Bool
  | .idle | .reading _ => true
  | _ => false

/-- The answers of the kernel in a step that can begin an attempt. -/
def Label.kernel : Label → Option Kernel
  | .proceed _ k | .loop k | .destructor k => some k
  | _ => none

namespace World

/-- The retry timers whose closures have not run. -/
def armed (s : World) : Nat := s.timers.length + s.phase.timers

/-- The closures that will destroy a connection. -/
def destroying (s : World) : List Task :=
  (s.tasks ++ s.destructor.task.toList).filter Task.destroys

/-! ## What a step is about to do -/

/-- The step runs `startInLoop` for a `connect()`. -/
def connects (s : World) : Label → Bool
  | .proceed t k =>
    decide (s.Possible k) && decide (s.pending t = some (.runInLoop .startInLoop)) &&
      isInLoopThread s.connector.loop t
  | .loop k =>
    s.loopRuns k &&
      match s.phase with
      | .executing (.connector .startInLoop :: _) => true
      | _ => false
  | _ => false

/-- The step runs `startInLoop` for a retry timer. -/
def fires (s : World) : Label → Bool
  | .loop k =>
    s.loopRuns k &&
      match s.phase with
      | .expiring (_ + 1) _ => true
      | _ => false
  | _ => false

/-- The connection whose `handleClose` the step enters. -/
def closes (s : World) : Label → Option Nat
  | .loop k =>
    if s.loopRuns k then
      match s.phase with
      | .handling (.channel (.connection id) revents :: _) =>
        match s.conns id with
        | none => none
        | some c =>
          if (c.channel.setReturnEvents revents).handleEvent.head? = some .handleReadable ∧
              k.read = some [] then some id
          else none
      | _ => none
    else none
  | _ => none

/-- The step closes a connection and restarts the connector. -/
def restarts (s : World) (l : Label) : Bool :=
  match s.closes l with
  | none => false
  | some id =>
    (s.conns id).any (fun c => c.closeCallback = some .clientReset) && s.client.retry &&
      s.client.connectFlag

/-- The step hands a connected socket to `onConnection`. -/
def establishes (s : World) : Label → Bool
  | .loop k =>
    s.loopRuns k && decide (k.connector.socketError = 0) &&
      match s.phase, s.connector.channel with
      | .handling (.channel (.connector id) revents :: _), some (id', ch) =>
        id' = id && !(ch.setReturnEvents revents).handleEvent.isEmpty && s.connector.socket.isSome
      | _, _ => false
  | _ => false

/-! ## Effects -/

theorem perform_eq (s : World) (e : Connector.Effect) :
    s.perform e =
      { s with
        poller := (s.perform e).poller
        timers := s.timers ++ (deadline s.now e).toList
        descriptors := (s.perform e).descriptors
        dangled := (s.perform e).dangled
        log := s.log ++ [.connector e] } := by
  cases e <;> simp [perform, record, deadline]

/-- What the effects of the connector leave alone, and the timers they arm. -/
theorem foldl_perform_eq (es : List Connector.Effect) (s : World) :
    es.foldl perform s =
      { s with
        poller := (es.foldl perform s).poller
        timers := s.timers ++ es.filterMap (deadline s.now)
        descriptors := (es.foldl perform s).descriptors
        dangled := (es.foldl perform s).dangled
        log := s.log ++ es.map .connector } := by
  induction es generalizing s with
  | nil => simp
  | cons e es ih =>
    rw [List.foldl_cons, ih (s.perform e)]
    have hnow : (s.perform e).now = s.now := by rw [perform_eq]
    have htimers : (s.perform e).timers = s.timers ++ (deadline s.now e).toList := by rw [perform_eq]
    have hlog : (s.perform e).log = s.log ++ [.connector e] := by rw [perform_eq]
    rw [hnow, htimers, hlog, perform_eq s e]
    cases hd : deadline s.now e <;> simp [hd]

theorem absorb_eq (s : World) (c : Connector) (es : List Connector.Effect) :
    s.absorb c es =
      { s with
        connector := c
        poller := (es.foldl perform s).poller
        timers := s.timers ++ es.filterMap (deadline s.now)
        descriptors := (es.foldl perform s).descriptors
        dangled := (es.foldl perform s).dangled
        log := s.log ++ es.map .connector } := by
  unfold absorb
  rw [foldl_perform_eq]

/-- The task an effect of the connection `id` queues. -/
def queuedTask (id : Nat) : TcpConnection.Effect → Option Task
  | .queueInLoop task => some (.conn id task)
  | _ => none

theorem performConn_eq (id : Nat) (fd : Int) (s : World) (e : TcpConnection.Effect) :
    performConn id fd s e =
      { s with
        poller := (performConn id fd s e).poller
        taskQueue := s.taskQueue ++ (queuedTask id e).toList
        log := s.log ++ [.effect id e] } := by
  cases e <;> simp [performConn, record, queuedTask, queueInLoop]

theorem foldl_performConn_eq (id : Nat) (fd : Int) (es : List TcpConnection.Effect) (s : World) :
    es.foldl (performConn id fd) s =
      { s with
        poller := (es.foldl (performConn id fd) s).poller
        taskQueue := s.taskQueue ++ es.filterMap (queuedTask id)
        log := s.log ++ es.map (.effect id) } := by
  induction es generalizing s with
  | nil => simp
  | cons e es ih =>
    rw [List.foldl_cons, ih (performConn id fd s e)]
    have hqueue : (performConn id fd s e).taskQueue = s.taskQueue ++ (queuedTask id e).toList := by
      rw [performConn_eq]
    have hlog : (performConn id fd s e).log = s.log ++ [.effect id e] := by rw [performConn_eq]
    rw [hqueue, hlog, performConn_eq id fd s e]
    cases hq : queuedTask id e <;> simp [hq]

/-- What the effects of a connection leave alone, and the tasks they queue. -/
theorem absorbConn_eq (s : World) (id : Nat) (c : TcpConnection) (es : List TcpConnection.Effect) :
    s.absorbConn id c es =
      { s with
        conns := Function.update s.conns id (some c)
        poller := (s.absorbConn id c es).poller
        taskQueue := s.taskQueue ++ es.filterMap (queuedTask id)
        log := s.log ++ es.map (.effect id) } := by
  unfold absorbConn
  rw [foldl_performConn_eq]
  rfl

theorem absorb_destroying (s : World) (c : Connector) (es : List Connector.Effect) :
    (s.absorb c es).destroying = s.destroying := by
  rw [absorb_eq]
  rfl

theorem absorbConn_destroying {s : World} {id : Nat} {c : TcpConnection}
    {es : List TcpConnection.Effect}
    (h : TcpConnection.Effect.queueInLoop .connectionDestroyed ∉ es) :
    (s.absorbConn id c es).destroying = s.destroying := by
  have hqueued : (es.filterMap (queuedTask id)).filter Task.destroys = [] := by
    rw [List.filter_eq_nil_iff]
    intro task htask
    obtain ⟨e, he, hq⟩ := List.mem_filterMap.mp htask
    cases e with
    | queueInLoop task' =>
      obtain rfl : Task.conn id task' = task := by simpa [queuedTask] using hq
      cases task' with
      | connectionDestroyed => exact absurd he h
      | _ => simp [Task.destroys]
    | _ => exact absurd hq (by simp [queuedTask])
  rw [absorbConn_eq]
  simp [World.destroying, tasks, List.filter_append, hqueued]

/-! ## The connections afterwards -/

theorem absorbConn_conns_inv {s : World} {id j : Nat} {c d : TcpConnection}
    {es : List TcpConnection.Effect} (h : (s.absorbConn id c es).conns j = some d) :
    j = id ∧ d = c ∨ j ≠ id ∧ s.conns j = some d := by
  rw [absorbConn_eq] at h
  exact update_some_inv h

theorem addConnection_conns_inv {s : World} {fd : Int} {j : Nat} {d : TcpConnection}
    (h : (s.addConnection fd).conns j = some d) :
    j = s.created ∧ d = s.client.newTcpConnection s.connector.loop fd ∨
      j ≠ s.created ∧ s.conns j = some d :=
  update_some_inv h

theorem dropConn_conns_inv {s : World} {id j : Nat} {d : TcpConnection}
    (h : (s.dropConn id).conns j = some d) : s.conns j = some d := by
  unfold dropConn at h
  split at h
  · exact h
  · exact (update_none_inv h).2

/-! ## Steady steps -/

/-- The connector is in the same attempt. -/
structure SameAttempt (c c' : Connector) : Prop where
  loop : c'.loop = c.loop
  newConnectionCallback : c'.newConnectionCallback = c.newConnectionCallback
  state : c'.state = c.state
  socket : c'.socket = c.socket
  channel : c'.channel.map (fun x => (x.1, x.2.fd)) = c.channel.map fun x => (x.1, x.2.fd)

theorem SameAttempt.refl (c : Connector) : SameAttempt c c := ⟨rfl, rfl, rfl, rfl, rfl⟩

/-- Connections, poller and attempt are left alone. -/
structure Frame (s s' : World) : Prop where
  connection : s'.client.connection = s.client.connection
  attempt : SameAttempt s.connector s'.connector
  created : s'.created = s.created
  conns : s'.conns = s.conns
  poller : s'.poller = s.poller
  inCallback : s'.inCallback = s.inCallback
  descriptors : s'.descriptors = s.descriptors
  dangled : s'.dangled = s.dangled
  log : ∃ calls : List Call, s'.log = s.log ++ calls.map .called
  idle : s.destructor = .idle → s'.destructor = .idle
  unread : s'.destructor.unread = true → s.destructor.unread = true

structure Steady (s s' : World) : Prop extends Frame s s' where
  armed : s'.armed = s.armed
  destroying : s'.destroying = s.destroying

/-- A phase, flags, calls under way, the clock and the memory. -/
theorem Steady.of_eq {s s' : World} (hconnection : s'.client.connection = s.client.connection)
    (hattempt : SameAttempt s.connector s'.connector) (hcreated : s'.created = s.created)
    (hconns : s'.conns = s.conns) (hpoller : s'.poller = s.poller)
    (hcallback : s'.inCallback = s.inCallback) (hdescriptors : s'.descriptors = s.descriptors)
    (hdangled : s'.dangled = s.dangled) (hlog : s'.log = s.log) (harmed : s'.armed = s.armed)
    (hdestructor : s'.destructor = s.destructor) (htasks : s'.tasks = s.tasks) : Steady s s' where
  connection := hconnection
  attempt := hattempt
  created := hcreated
  conns := hconns
  poller := hpoller
  inCallback := hcallback
  descriptors := hdescriptors
  dangled := hdangled
  log := ⟨[], by simp [hlog]⟩
  armed := harmed
  idle h := by rw [hdestructor, h]
  unread h := by rw [← hdestructor, h]
  destroying := by
    unfold World.destroying
    rw [htasks, hdestructor]

theorem Steady.refl (s : World) : Steady s s :=
  .of_eq rfl (.refl _) rfl rfl rfl rfl rfl rfl rfl rfl rfl rfl

/-! ## The ways a step goes -/

/-- What `connectionDestroyed` leaves of a connection. -/
def closed (c : TcpConnection) : TcpConnection :=
  { c with state := .disconnected, channel := c.channel.ignoreAll }

inductive Stepped (s : World) (l : Label) (s' : World) : Prop where
  | steady (h : Steady s s')
  /-- The closure of a retry timer. -/
  | timer (s₀ : World) (k : Kernel) (h : Frame s s₀) (harmed : s.armed = s₀.armed + 1)
      (hdestroying : s₀.destroying = s.destroying) (hk : s₀.Possible k) (hlk : l.kernel = some k)
      (hrun : s₀.runConnector k.connector .startInLoop = .ok s') (hl : s.fires l = true)
  /-- The closure of a call. -/
  | closure (s₀ : World) (k : Kernel) (task : Connector.Task) (h : Steady s s₀) (hk : s₀.Possible k)
      (hlk : l.kernel = some k) (hl : task = .startInLoop → s.connects l = true)
      (hrun : s₀.runConnector k.connector task = .ok s')
  /-- `handleWritable` of the connector. -/
  | writable (s₀ : World) (k : Kernel) (h : Steady s s₀) (hfree : s₀.inCallback = false)
      (hl : k.connector.socketError = 0 → s₀.connector.socket.isSome → s.establishes l = true)
      (hrun : s₀.handleWritable k.connector = .ok s')
  /-- `handleWritable` after `onConnection`. -/
  | returned (hl : l = .callbackReturns) (hcallback : s.inCallback = true)
      (hrun : s' = { s with inCallback := false }.absorb { s.connector with socket := none }
        (Connector.destroySocket s.connector.socket))
  /-- A call on a connection that neither closes nor destroys it. -/
  | plain (s₀ : World) (id : Nat) (c c' : TcpConnection) (es : List TcpConnection.Effect)
      (h : Steady s s₀) (hc : s₀.conns id = some c) (hcall : PlainCall c c' es)
      (hrun : s' = s₀.absorbConn id c' es)
  /-- `handleClose` of a connection, up to its close callback. -/
  | closes (s₀ s₁ : World) (id : Nat) (c c' : TcpConnection) (cb : TcpConnection.CloseCallback)
      (k : Kernel) (h : Steady s s₀) (hk : s₀.Possible k) (hlk : l.kernel = some k)
      (hclient : s₀.client = s.client) (hl : s.closes l = some id) (hc : s₀.conns id = some c)
      (hstate : c.state = .connected ∨ c.state = .disconnecting) (hcb : c.closeCallback = some cb)
      (hwiring : c'.wiring = c.wiring) (hclosed : c'.state = .disconnected)
      (hs₁ : s₁ = (s₀.record (.handleClose id)).absorbConn id c'
        [.updateChannel .none, .closeCallback cb])
      (hrun : if cb = .clientReset then s₁.closeCallback id k.connector = .ok s' else s' = s₁)
  /-- `connectionDestroyed` of a connection, from its close or from `~TcpClient`. -/
  | destroyed (s₀ : World) (id : Nat) (c c₁ : TcpConnection) (task : Task) (h : Frame s s₀)
      (harmed : s₀.armed = s.armed) (hdestroying : s.destroying.Perm (task :: s₀.destroying))
      (hc : s₀.conns id = some c)
      (htask : task = .conn id .connectionDestroyed ∧ c₁ = c ∨
        task = .clientDestroyed id ∧ c₁ = { c with closeCallback := some .clientGone })
      (hrun : s' = s₀.absorbConn id (closed c₁)
        (.updateChannel .none :: c.connectionNotice false ++ [.removeChannel]))
  | dropped (id : Nat) (hl : l = .drop id) (howned : s.owned id = false) (hrun : s' = s.dropConn id)
  /-- `~TcpClient` begins. -/
  | begins (t : ThreadId) (hl : l = .destroy t) (hidle : s.destructor = .idle)
      (hrun : s' = { s with destructor := .reading t })
  /-- `~TcpClient` reads a connection. -/
  | reads (t : ThreadId) (id : Nat) (hd : s.destructor = .reading t)
      (hconnection : s.client.connection = some id)
      (hrun : s' = { s with destructor := .posting t (some id) })
  /-- The members are destroyed. -/
  | finishes (t : ThreadId) (hd : s.destructor = .leaving t)
      (hrun : s' = { s with
        destructor := .finished
        client := { s.client with connection := none } })

variable {s s₀ s' : World} {l : Label} {k : Kernel} {id : Nat} {c : TcpConnection}

/-- A close that finds both flags set restarts the connector. -/
theorem restarts_eq_true (hl : s.closes l = some id) (hc : s.conns id = some c)
    (hcb : c.closeCallback = some .clientReset)
    (hflags : (s.client.retry && s.client.connectFlag) = true) : s.restarts l = true := by
  simp only [restarts, hl, hc, Option.any_some, hcb, decide_true, Bool.true_and]
  exact hflags

theorem invokeConn_plain {kc : Connector.Kernel} {r : TcpConnection.Result}
    (hr : ∀ c' es, r = .ok (c', es) → PlainCall c c' es) (h : s.invokeConn id kc r = .ok s') :
    ∃ c' es, PlainCall c c' es ∧ s' = s.absorbConn id c' es := by
  cases r with
  | error f => exact absurd h (by simp [invokeConn])
  | ok x =>
    obtain ⟨c', es⟩ := x
    have hcall := hr c' es rfl
    have hno : TcpConnection.Effect.closeCallback .clientReset ∉ es := by
      intro hmem
      exact absurd (hcall.effects _ hmem) (by simp [TcpConnection.Effect.plain])
    simp only [invokeConn, if_neg hno, Except.ok.injEq] at h
    exact ⟨c', es, hcall, h.symm⟩

theorem invokeConn_destroyed {kc : Connector.Kernel} {c₁ : TcpConnection} {t : ThreadId}
    (h : s.invokeConn id kc (c₁.connectionDestroyed t) = .ok s') :
    s' = s.absorbConn id (closed c₁)
      (.updateChannel .none :: c₁.connectionNotice false ++ [.removeChannel]) := by
  cases hr : c₁.connectionDestroyed t with
  | error f =>
    rw [hr] at h
    exact absurd h (by simp [invokeConn])
  | ok x =>
    obtain ⟨c', es⟩ := x
    obtain ⟨-, rfl, rfl⟩ := TcpConnection.connectionDestroyed_inv hr
    rw [hr] at h
    have hno : TcpConnection.Effect.closeCallback .clientReset ∉
        .updateChannel .none :: c₁.connectionNotice false ++ [.removeChannel] := by
      unfold TcpConnection.connectionNotice
      split <;> simp
    simp only [invokeConn, if_neg hno, Except.ok.injEq] at h
    exact h.symm

/-- `s₀` is `s` without a closure it held. -/
structure Taken (task : Task) (s s₀ : World) : Prop where
  frame : Frame s s₀
  armed : s₀.armed = s.armed
  destroying : task.destroys = true → s.destroying.Perm (task :: s₀.destroying)
  same : task.destroys = false → s₀.destroying = s.destroying

theorem Taken.steady {task : Task} (h : Taken task s s₀) (ht : task.destroys = false) : Steady s s₀ :=
  ⟨h.frame, h.armed, h.same ht⟩

theorem executeConn_stepped {task : TcpConnection.Task} (h : Taken (.conn id task) s s₀)
    (hc : s₀.conns id = some c) (he : s₀.executeConn id c k task = .ok s') : Stepped s l s' := by
  have hplain : ∀ {r : TcpConnection.Result}, Task.destroys (.conn id task) = false →
      (∀ c' es, r = .ok (c', es) → PlainCall c c' es) → s₀.invokeConn id k.connector r = .ok s' →
      Stepped s l s' := by
    intro r ht hr hrun
    obtain ⟨c', es, hcall, rfl⟩ := invokeConn_plain hr hrun
    exact .plain s₀ id c c' es (h.steady ht) hc hcall rfl
  cases task with
  | connectionEstablished =>
    exact hplain rfl (fun _ _ => TcpConnection.connectionEstablished_plain) he
  | connectionDestroyed =>
    exact .destroyed s₀ id c c _ h.frame h.armed (h.destroying rfl) hc (Or.inl ⟨rfl, rfl⟩)
      (invokeConn_destroyed he)
  | shutdownInLoop => exact hplain rfl (fun _ _ => TcpConnection.shutdownInLoop_plain) he
  | sendString msg => exact hplain rfl (fun _ _ => TcpConnection.sendArgInLoop_plain) he
  | sendBuffer buf => exact hplain rfl (fun _ _ => TcpConnection.sendArgInLoop_plain) he
  | sendPointer addr len => exact hplain rfl (fun _ _ => TcpConnection.sendArgInLoop_plain) he
  | writeCompleteCallback | highWaterCallback =>
    obtain rfl := Except.ok.inj he
    exact .steady (h.steady rfl)

theorem execute_stepped {task : Task} (h : Taken task s s₀) (hk : s₀.Possible k)
    (hlk : l.kernel = some k) (hl : task = .connector .startInLoop → s.connects l = true)
    (he : s₀.execute k task = .ok s') : Stepped s l s' := by
  cases task with
  | connector task =>
    refine .closure s₀ k task (h.steady rfl) hk hlk ?_ he
    rintro rfl
    exact hl rfl
  | conn id task =>
    cases hc : s₀.conns id with
    | none =>
      simp only [execute, hc] at he
      exact absurd he (by simp)
    | some c =>
      simp only [execute, hc] at he
      exact executeConn_stepped h hc he
  | clientDestroyed id =>
    cases hc : s₀.conns id with
    | none =>
      simp only [execute, hc] at he
      exact absurd he (by simp)
    | some c =>
      simp only [execute, hc] at he
      exact .destroyed s₀ id c _ _ h.frame h.armed (h.destroying rfl) hc (Or.inr ⟨rfl, rfl⟩)
        (invokeConn_destroyed he)

/-- `queueInLoop` of a closure that destroys nothing. -/
theorem queueInLoop_steady {task : Task} (h : Steady s s₀) (ht : task.destroys = false) :
    Steady s (s₀.queueInLoop task) where
  toFrame := { h.toFrame with }
  armed := h.armed
  destroying := by
    rw [← h.destroying]
    simp [World.destroying, tasks, queueInLoop, List.filter_append, ht]

/-! ## Events -/

theorem handleConnectorEvent_stepped {revents : PollEvents} (h : Steady s s₀)
    (hfree : s₀.inCallback = false)
    (hl : k.connector.socketError = 0 → s₀.connector.socket.isSome →
      ∀ ch, s₀.connector.channel = some (id, ch) →
        (ch.setReturnEvents revents).handleEvent ≠ [] → s.establishes l = true)
    (he : s₀.handleConnectorEvent k.connector id revents = .ok s') : Stepped s l s' := by
  unfold handleConnectorEvent at he
  split at he
  · exact absurd he (by simp)
  · rename_i id' ch hch
    split at he
    · rename_i hid
      subst hid
      -- the conditions the poller stored in the channel do not matter
      have hnoted : Steady s
          { s₀ with
            connector := { s₀.connector with channel := some (id', ch.setReturnEvents revents) } } :=
        { h with
          attempt :=
            { h.attempt with
              channel := by rw [← h.attempt.channel, hch]; rfl } }
      dsimp only at he
      split at he
      · obtain rfl := Except.ok.inj he
        exact .steady hnoted
      · rename_i hhandlers
        refine .writable _ k hnoted hfree ?_ he
        intro herr hsocket
        exact hl herr hsocket ch hch (by simp [hhandlers])
    · exact absurd he (by simp)

theorem handleConnEvent_stepped {revents : PollEvents} (h : Steady s s₀) (hk : s₀.Possible k)
    (hlk : l.kernel = some k) (hclient : s₀.client = s.client)
    (hl : k.read = some [] → ∀ c, s₀.conns id = some c →
      (c.channel.setReturnEvents revents).handleEvent.head? = some .handleReadable →
        s.closes l = some id)
    (he : s₀.handleConnEvent k id revents = .ok s') : Stepped s l s' := by
  unfold handleConnEvent at he
  split at he
  · exact absurd he (by simp)
  · rename_i c hc
    dsimp only at he
    split at he
    · obtain rfl := Except.ok.inj he
      exact .plain s₀ id c { c with channel := c.channel.setReturnEvents revents } [] h hc
        ⟨rfl, Iff.rfl, by simp⟩ rfl
    · rename_i x xs hhandlers
      split at he
      · rename_i hclose
        obtain ⟨rfl, hread⟩ := hclose
        cases hr : { c with channel := c.channel.setReturnEvents revents }.handleReadable
            s₀.loopThread k.read with
        | error f =>
          rw [TcpConnection.runHandler, show (s₀.record (.handleClose id)).loopThread =
            s₀.loopThread from rfl, hr] at he
          exact absurd he (by simp [invokeConn])
        | ok x =>
          obtain ⟨c', es⟩ := x
          rw [TcpConnection.runHandler, show (s₀.record (.handleClose id)).loopThread =
            s₀.loopThread from rfl, hr] at he
          obtain ⟨-, rb, -, ⟨-, hr⟩ | ⟨hne, -⟩⟩ := TcpConnection.handleReadable_inv hr
          · obtain ⟨-, hstate, cb, hcb, hc', rfl⟩ := TcpConnection.handleClose_inv hr
            refine .closes s₀ _ id c c' cb k h hk hlk hclient ?_ hc hstate hcb ?_ ?_ rfl ?_
            · exact hl hread c hc (by rw [hhandlers]; rfl)
            · rw [hc']
              rfl
            · rw [hc']
            · simp only [invokeConn, List.mem_cons, reduceCtorEq,
                TcpConnection.Effect.closeCallback.injEq, List.not_mem_nil, or_false,
                false_or] at he
              by_cases hreset : cb = .clientReset
              · rw [if_pos hreset]
                rw [if_pos hreset.symm] at he
                exact he
              · rw [if_neg hreset]
                rw [if_neg (Ne.symm hreset)] at he
                exact (Except.ok.inj he).symm
          · exact absurd hread hne
      · rename_i hclose
        obtain ⟨c', es, hcall, rfl⟩ := invokeConn_plain
          (c := { c with channel := c.channel.setReturnEvents revents }) (fun c' es hr => by
            cases x with
            | handleReadable =>
              refine TcpConnection.handleReadable_plain ?_ hr
              exact fun hread => hclose ⟨rfl, hread⟩
            | handleWritable => exact TcpConnection.handleWritable_plain hr) he
        exact .plain s₀ id c c' es h hc ⟨hcall.wiring, hcall.closed, hcall.effects⟩ rfl

/-! ## Calls and the destructor -/

theorem proceed_stepped {t : ThreadId} {rest : Rest} (hpending : s.pending t = some rest)
    (hk : s.Possible k) (he : s.proceed t k rest = .ok s') : Stepped s (.proceed t k) s' := by
  have hsteady : ∀ r, Steady s { s with pending := Function.update s.pending t r } := fun r =>
    .of_eq rfl (.refl _) rfl rfl rfl rfl rfl rfl rfl rfl rfl rfl
  cases rest with
  | start =>
    simp only [proceed] at he
    split at he
    · exact absurd he (by simp)
    · obtain rfl := Except.ok.inj he
      exact .steady (.of_eq rfl ⟨rfl, rfl, rfl, rfl, rfl⟩ rfl rfl rfl rfl rfl rfl rfl rfl rfl rfl)
  | stop =>
    simp only [proceed] at he
    split at he
    · exact absurd he (by simp)
    · obtain rfl := Except.ok.inj he
      exact .steady (.of_eq rfl ⟨rfl, rfl, rfl, rfl, rfl⟩ rfl rfl rfl rfl rfl rfl rfl rfl rfl rfl)
  | shutdown =>
    simp only [proceed] at he
    split at he
    · exact absurd he (by simp)
    · split at he
      · obtain rfl := Except.ok.inj he
        exact .steady (hsteady none)
      · split at he
        · exact absurd he (by simp)
        · rename_i id _ _ c hc
          obtain ⟨c', es, hcall, rfl⟩ :=
            invokeConn_plain (fun _ _ => TcpConnection.shutdown_plain) he
          exact .plain _ id c c' es (hsteady none) hc hcall rfl
  | runInLoop task =>
    simp only [proceed, runInLoop] at he
    split at he
    · rename_i ht
      have htaken : Taken (.connector task) s { s with pending := Function.update s.pending t none } :=
        ⟨(hsteady none).toFrame, rfl, fun h => absurd h (by simp [Task.destroys]), fun _ => rfl⟩
      refine execute_stepped htaken hk rfl ?_ he
      intro htask
      obtain rfl := Task.connector.inj htask
      simp only [connects, hpending, hk, decide_true, Bool.true_and]
      exact ht
    · obtain rfl := Except.ok.inj he
      exact .steady (queueInLoop_steady (hsteady none) rfl)

theorem destruct_stepped (hk : s.Possible k) (he : s.destruct k = .ok s') :
    Stepped s (.destructor k) s' := by
  unfold destruct at he
  split at he
  · obtain rfl := Except.ok.inj he
    exact .steady (.refl s)
  · obtain rfl := Except.ok.inj he
    exact .steady (.refl s)
  · rename_i t hd
    split at he
    · rename_i id hid
      exact .reads t id hd hid (Except.ok.inj he).symm
    · obtain rfl := Except.ok.inj he
      refine .steady
        { (Steady.refl s) with
          idle := fun h => by rw [hd] at h; exact absurd h (by simp)
          unread := fun _ => by rw [hd]; rfl
          destroying := ?_ }
      simp [World.destroying, tasks, hd, Destructor.task]
  · rename_i t hd
    obtain rfl := Except.ok.inj he
    refine .steady
      { (Steady.refl s) with
        attempt := ⟨rfl, rfl, rfl, rfl, rfl⟩
        idle := fun h => by rw [hd] at h; exact absurd h (by simp)
        unread := fun h => absurd h (by simp [Destructor.unread])
        destroying := ?_ }
    simp [World.destroying, tasks, hd, Destructor.task, destructorTask, Task.destroys]
  · rename_i t conn hd
    have hframe : Frame s { s with destructor := .leaving t } :=
      { (Steady.refl s).toFrame with
        idle := fun h => by rw [hd] at h; exact absurd h (by simp)
        unread := fun h => absurd h (by simp [Destructor.unread]) }
    unfold runInLoop at he
    split at he
    · refine execute_stepped ⟨hframe, rfl, ?_, ?_⟩ hk rfl ?_ he
      · intro hdestroys
        simp only [World.destroying, tasks, hd, Destructor.task, List.filter_append,
          Option.toList_some, Option.toList_none, List.filter_cons_of_pos hdestroys, List.filter_nil,
          List.append_nil]
        exact List.perm_append_singleton _ _
      · intro hdestroys
        simp [World.destroying, tasks, hd, Destructor.task, hdestroys]
      · intro htask
        cases conn <;> exact absurd htask (by simp [destructorTask])
    · obtain rfl := Except.ok.inj he
      refine .steady { hframe with armed := rfl, destroying := ?_ }
      simp [World.destroying, tasks, hd, Destructor.task, queueInLoop]
  · rename_i t hd
    exact .finishes t hd (Except.ok.inj he).symm

/-! ## The loop -/

theorem loopStep_stepped (hruns : s.loopRuns k = true) (he : s.loopStep k = .ok s') :
    Stepped s (.loop k) s' := by
  obtain ⟨hfree, hk⟩ : s.loopFree = true ∧ s.Possible k := by simpa [loopRuns] using hruns
  have hcallback : s.inCallback = false := by
    unfold loopFree at hfree
    simp only [Bool.and_eq_true, Bool.not_eq_true'] at hfree
    exact hfree.1
  have hsteady : ∀ {p : Phase}, p.tasks = s.phase.tasks → p.timers = s.phase.timers →
      Steady s { s with phase := p } := by
    intro p htasks htimers
    refine .of_eq rfl (.refl _) rfl rfl rfl rfl rfl rfl rfl ?_ rfl ?_
    · simp only [armed, htimers]
    · simp only [tasks, htasks]
  unfold loopStep at he
  split at he
  · rename_i hphase
    obtain rfl := Except.ok.inj he
    exact .steady (hsteady (by rw [hphase]; rfl) (by rw [hphase]; rfl))
  · rename_i id revents xs hphase
    have hhandling := hsteady (p := .handling xs) (by rw [hphase]; rfl) (by rw [hphase]; rfl)
    refine handleConnectorEvent_stepped hhandling hcallback ?_ he
    intro herr hsocket ch hch hhandlers
    simp only at hch hsocket
    simp [establishes, hruns, herr, hphase, hch, hsocket, hhandlers]
  · rename_i id revents xs hphase
    have hhandling := hsteady (p := .handling xs) (by rw [hphase]; rfl) (by rw [hphase]; rfl)
    refine handleConnEvent_stepped hhandling hk rfl rfl ?_ he
    intro hread c hc hhead
    simp only at hc
    simp [closes, hruns, hphase, hc, hhead, hread]
  · rename_i xs hphase
    obtain rfl := Except.ok.inj he
    refine .steady (.of_eq rfl (.refl _) rfl rfl rfl rfl rfl rfl rfl ?_ rfl ?_)
    · have hsplit := List.length_eq_length_filter_add (l := s.timers) (fun d => decide (s.now < d))
      simp only [armed, expireTimers, Phase.timers, hphase, Nat.add_zero, hsplit]
      congr 2
      refine List.filter_congr ?_
      intro d _
      rw [← decide_not, decide_eq_decide]
      exact Nat.not_lt.symm
    · simp [tasks, expireTimers, hphase, Phase.tasks]
  · rename_i hphase
    obtain rfl := Except.ok.inj he
    refine .steady (.of_eq rfl (.refl _) rfl rfl rfl rfl rfl rfl rfl ?_ rfl ?_)
    · simp [armed, hphase, Phase.timers]
    · simp [tasks, hphase, Phase.tasks]
  · rename_i n xs hphase
    refine .timer { s with phase := .expiring n xs } k ?_ ?_ ?_ hk rfl he ?_
    · exact { (Steady.refl s).toFrame with }
    · simp only [armed, hphase, Phase.timers, Nat.add_assoc]
    · simp [World.destroying, tasks, hphase, Phase.tasks]
    · simp [fires, hruns, hphase]
  · rename_i xs hphase
    obtain rfl := Except.ok.inj he
    exact .steady (hsteady (by rw [hphase]; rfl) (by rw [hphase]; rfl))
  · rename_i task ts hphase
    have htaken : Taken task s { s with phase := .executing ts } := by
      refine ⟨{ (Steady.refl s).toFrame with }, ?_, ?_, ?_⟩
      · simp [armed, hphase, Phase.timers]
      · intro hdestroys
        simp [World.destroying, tasks, hphase, Phase.tasks, hdestroys]
      · intro hdestroys
        simp [World.destroying, tasks, hphase, Phase.tasks, hdestroys]
    refine execute_stepped htaken hk rfl ?_ he
    rintro rfl
    simp [connects, hruns, hphase]
  · rename_i hphase
    obtain rfl := Except.ok.inj he
    exact .steady (hsteady (by rw [hphase]; rfl) (by rw [hphase]; rfl))

/-! ## The inversion -/

theorem enter_steady (s : World) (t : ThreadId) (c : Call) : Steady s (s.enter t c) := by
  have hlog : (s.enter t c).log = s.log ++ [c].map .called := by cases c <;> rfl
  cases c <;>
    exact
      { connection := rfl
        attempt := .refl _
        created := rfl
        conns := rfl
        poller := rfl
        inCallback := rfl
        descriptors := rfl
        dangled := rfl
        log := ⟨_, hlog⟩
        idle := id
        unread := id
        armed := rfl
        destroying := rfl }

/-- **Every step goes in one of these ways.** -/
theorem step_stepped (he : s.step l = .ok s') : Stepped s l s' := by
  cases l with
  | call t c =>
    obtain rfl := Except.ok.inj he
    split
    · exact .steady (enter_steady s t c)
    · exact .steady (.refl s)
  | proceed t k =>
    simp only [step] at he
    split at he
    · obtain rfl := Except.ok.inj he
      exact .steady (.refl s)
    · rename_i rest hpending
      split at he
      · rename_i hk
        exact proceed_stepped hpending hk he
      · obtain rfl := Except.ok.inj he
        exact .steady (.refl s)
  | loop k =>
    simp only [step] at he
    split at he
    · rename_i hruns
      exact loopStep_stepped hruns he
    · obtain rfl := Except.ok.inj he
      exact .steady (.refl s)
  | callbackReturns =>
    simp only [step] at he
    split at he
    · rename_i hcallback
      simp only [Bool.and_eq_true] at hcallback
      exact .returned rfl hcallback.1 (Except.ok.inj he).symm
    · obtain rfl := Except.ok.inj he
      exact .steady (.refl s)
  | send t id arg k =>
    simp only [step] at he
    split at he
    · obtain rfl := Except.ok.inj he
      exact .steady (.refl s)
    · rename_i c hc
      split at he
      · obtain ⟨c', es, hcall, rfl⟩ := invokeConn_plain (fun _ _ => TcpConnection.send_plain) he
        exact .plain s id c c' es (.refl s) hc hcall rfl
      · obtain rfl := Except.ok.inj he
        exact .steady (.refl s)
  | shutdown t id k =>
    simp only [step] at he
    split at he
    · obtain rfl := Except.ok.inj he
      exact .steady (.refl s)
    · rename_i c hc
      split at he
      · obtain ⟨c', es, hcall, rfl⟩ := invokeConn_plain (fun _ _ => TcpConnection.shutdown_plain) he
        exact .plain s id c c' es (.refl s) hc hcall rfl
      · obtain rfl := Except.ok.inj he
        exact .steady (.refl s)
  | drop id =>
    obtain rfl := Except.ok.inj he
    split
    · exact .steady (.refl s)
    · rename_i howned
      exact .dropped id rfl (by simpa using howned) rfl
  | destroy t =>
    obtain rfl := Except.ok.inj he
    split
    · rename_i hidle
      simp only [Bool.and_eq_true, decide_eq_true_eq] at hidle
      exact .begins t rfl hidle.2 rfl
    · exact .steady (.refl s)
  | destructor k =>
    simp only [step] at he
    split at he
    · rename_i hk
      exact destruct_stepped hk he
    · obtain rfl := Except.ok.inj he
      exact .steady (.refl s)
  | elapse ms =>
    obtain rfl := Except.ok.inj he
    exact .steady (.of_eq rfl (.refl _) rfl rfl rfl rfl rfl rfl rfl rfl rfl rfl)
  | store m =>
    obtain rfl := Except.ok.inj he
    exact .steady (.of_eq rfl (.refl _) rfl rfl rfl rfl rfl rfl rfl rfl rfl rfl)

/-! ## The composed calls -/

theorem invokeConnector_ok {fail : Fault → Failure} {r : Connector.Result}
    (h : s.invokeConnector fail r = .ok s') : ∃ c es, r = .ok (c, es) ∧ s' = s.absorb c es := by
  cases r with
  | error f => exact absurd h (by simp [invokeConnector])
  | ok x => exact ⟨x.1, x.2, rfl, (Except.ok.inj h).symm⟩

/-- The closure of `startInLoop` finds `Disconnected` and opens a socket. -/
theorem runConnector_start {kc : Connector.Kernel} (h : s.runConnector kc .startInLoop = .ok s') :
    s.connector.state = .disconnected ∧ kc.socket ≠ Connector.invalidFd ∧
      ∃ c es, Connector.Attempted s.connector kc.socket c es ∧ s' = s.absorb c es := by
  obtain ⟨c, es, hr, hs'⟩ := invokeConnector_ok h
  obtain ⟨hstate, hfd, hattempted⟩ := Connector.startInLoop_inv hr
  exact ⟨hstate, hfd, c, es, hattempted, hs'⟩

theorem runConnector_stop {kc : Connector.Kernel} (h : s.runConnector kc .stopInLoop = .ok s') :
    (s.connector.state = .connecting ∧
      s' = s.absorb { s.connector with channel := none, socket := none, state := .disconnected }
        (Connector.removal s.connector.channel ++ Connector.destroySocket s.connector.socket)) ∨
    (s.connector.state ≠ .connecting ∧ s' = s.absorb { s.connector with state := .disconnected } []) := by
  obtain ⟨c, es, hr, rfl⟩ := invokeConnector_ok h
  obtain ⟨hstate, rfl, rfl⟩ | ⟨hstate, rfl, rfl⟩ := Connector.stopInLoop_inv hr
  · exact Or.inl ⟨hstate, rfl⟩
  · exact Or.inr ⟨hstate, rfl⟩

/-- The close callback, before it restarts the connector. -/
def forget (s : World) (id : Nat) : World :=
  { s with
    client := { s.client with connection := none }
    taskQueue := s.taskQueue ++ [.conn id .connectionDestroyed] }

theorem forget_destroying (s : World) (id : Nat) :
    (s.forget id).destroying.Perm (.conn id .connectionDestroyed :: s.destroying) := by
  simp only [World.destroying, tasks, forget, List.filter_append, List.append_assoc]
  rw [show [Task.conn id .connectionDestroyed].filter Task.destroys =
    [Task.conn id .connectionDestroyed] from rfl, ← List.append_assoc, List.singleton_append]
  refine List.perm_middle.trans ?_
  rw [List.append_assoc]

/-- `restart`, before `startInLoop`. -/
def rewind (s : World) : World :=
  { s with
    connector :=
      { s.connector with
        state := .disconnected
        connectFlag := true
        retryDelay := Connector.defaultRetryDelay } }

theorem closeCallback_ok {kc : Connector.Kernel} (h : s.closeCallback id kc = .ok s') :
    s.destructor ≠ .finished ∧
      (((s.client.retry && s.client.connectFlag) = false ∧ s' = s.forget id) ∨
        ((s.client.retry && s.client.connectFlag) = true ∧
          (s.forget id).rewind.runConnector kc .startInLoop = .ok s')) := by
  unfold closeCallback at h
  split at h
  · exact absurd h (by simp)
  · rename_i hfinished
    refine ⟨hfinished, ?_⟩
    dsimp only at h
    split at h
    · rename_i hflags
      refine Or.inr ⟨hflags, ?_⟩
      unfold restart at h
      split at h
      · exact absurd h (by simp)
      · rename_i c task hrestart
        obtain ⟨rfl, rfl⟩ := Connector.restart_inv hrestart
        exact h
    · rename_i hflags
      exact Or.inl ⟨Bool.eq_false_iff.mpr hflags, (Except.ok.inj h).symm⟩

theorem onConnection_ok {fd : Int} {kc : Connector.Kernel} (h : s.onConnection fd kc = .ok s') :
    s.destructor ≠ .finished ∧ ∃ c' es,
      PlainCall (s.client.newTcpConnection s.connector.loop fd) c' es ∧
      s' = (s.addConnection fd).absorbConn s.created c' es := by
  unfold onConnection at h
  split at h
  · exact absurd h (by simp)
  · rename_i hfinished
    exact ⟨hfinished, invokeConn_plain (fun _ _ => TcpConnection.connectionEstablished_plain) h⟩

theorem handedOver_destroySocket (socket : Option Int) :
    (Connector.destroySocket socket).findSome? handedOver = none := by
  unfold Connector.destroySocket
  split
  · rfl
  · split <;> rfl

theorem handedOver_removal (channel : Option (Nat × Channel Connector.Handler)) :
    (Connector.removal channel).findSome? handedOver = none := by
  cases channel <;> rfl

theorem handedOver_retryTimer (c : Connector) : c.retryTimer.findSome? handedOver = none := by
  unfold Connector.retryTimer
  split <;> rfl

/-- `handleWritable` of the connector, where it calls `onConnection`. -/
def handOver (s : World) (fd : Int) : World :=
  { s.absorb
      { s.connector with
        state := .connected
        channel := none
        socket := some Connector.invalidFd }
      (Connector.removal s.connector.channel ++ [Connector.Effect.newConnectionCallback fd]) with
    inCallback := true }

theorem handOver_client (s : World) (fd : Int) : (s.handOver fd).client = s.client := by
  unfold handOver
  rw [absorb_eq]

/-- The attempt settles, or its socket is handed to `onConnection`. -/
theorem handleWritable_ok {kc : Connector.Kernel} (h : s.handleWritable kc = .ok s') :
    ∃ fd, s.connector.socket = some fd ∧
      (((kc.socketError ≠ 0 ∨ s.connector.newConnectionCallback = false) ∧
          ∃ c es, Connector.Settled s.connector fd c es ∧ s' = s.absorb c es) ∨
        (kc.socketError = 0 ∧ (s.handOver fd).onConnection fd kc = .ok s')) := by
  unfold handleWritable at h
  split at h
  · exact absurd h (by simp)
  · rename_i c es hr
    obtain ⟨fd, hsocket, ⟨hfail, hsettled⟩ | ⟨herr, -, rfl, rfl⟩⟩ := Connector.handleWritable_inv hr
    · refine ⟨fd, hsocket, Or.inl ⟨hfail, c, es, hsettled, ?_⟩⟩
      have hnone : es.findSome? handedOver = none := by
        cases hsettled with
        | failed => simp [handedOver_removal, handedOver_destroySocket, handedOver_retryTimer]
        | ignored => simp [handedOver_removal, handedOver_destroySocket]
      rw [hnone] at h
      exact (Except.ok.inj h).symm
    · refine ⟨fd, hsocket, Or.inr ⟨herr, ?_⟩⟩
      have hsome : (Connector.removal s.connector.channel ++
          [Connector.Effect.newConnectionCallback fd]).findSome? handedOver = some fd := by
        simp [handedOver_removal, handedOver]
      rw [hsome] at h
      exact h

/-! ## Pieces of runs -/

/-- The answers of the kernel in a step that polls: what it reports. -/
def polled (reports : List Report) : Kernel := ⟨reports, ⟨Connector.invalidFd, .ok, 0⟩, none, 0⟩

/-- The answers of the kernel to an attempt. -/
def attempted (fd : Int) (result : Connector.ConnectResult) : Kernel := ⟨[], ⟨fd, result, 0⟩, none, 0⟩

/-- A client with a connection callback on loop 0. -/
def testConfig : Config := ⟨0, "client", true, true, false, false, 0⟩

/-- `connect()` on the loop thread. -/
def callConnect (k : Kernel) : List Label :=
  [.call (.loop 0) .connect, .proceed (.loop 0) k, .proceed (.loop 0) k]

/-- `stop()` on the loop thread. -/
def callStop : List Label :=
  [.call (.loop 0) .stop, .proceed (.loop 0) (polled []), .proceed (.loop 0) (polled [])]

/-- The attempt on this descriptor succeeds, and the connection callback returns. -/
def connected (fd : Int) : List Label :=
  [.loop (polled [.fd fd ⟨false, true, false, false, false, false⟩]), .loop (polled []),
    .callbackReturns, .loop (polled []), .loop (polled [])]

/-- The peer closes the connection on this descriptor, and `handleClose` runs. -/
def closedByPeer (fd : Int) : List Label :=
  [.loop (polled [.fd fd ⟨true, false, false, false, false, false⟩]),
    .loop { polled [] with read := some [] }]

end World

end HyperMuduo.Net.TcpClient
