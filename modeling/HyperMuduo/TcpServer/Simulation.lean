import HyperMuduo.TcpConnection.HalfClose
import HyperMuduo.TcpServer.Polling

/-!
# A server's connections, one by one

`TcpConnection.Sys` is one connection with its loop to itself. A server has any number of connections on
several loops, with one poller and one queue for each loop and one log. Here the two levels meet.

* `tasksOf` and `effectsOf` are what a connection has of the queues and of the log.
  `connectionEstablished` is not among the tasks: in `Sys` the owner calls it.
* `Simulates s id c t`: the connection alone, in state `t`, is as connection `id` is in the server. The
  poller of a loop may have a descriptor for another connection; what it has for this one is what the
  poller of the connection alone has.
* A step of the server is a few steps of the connection it is about (`*_simulates`), and leaves the
  others as they are (`Apart`). A call from another thread is one step here and two or three there, a
  closed connection comes back as `queueDestroyed` when the server removes it.

**`connection_simulated`**: every connection in every reachable state of a server is in a state that the
connection alone can reach, with the same effects so far. What is known of a connection alone holds of
the connections of a server by it; `never_half_closed` is one such result.
-/

namespace HyperMuduo.Net.TcpServer

open HyperMuduo.Lib
open HyperMuduo.Net.TcpConnection (Effect Handler ReadResult Result SendArg Sys)

/-! ## What a connection has of a server -/

/-- A closure on the connection, but for the one that establishes it. -/
def Task.on (id : Nat) : Task → Option TcpConnection.Task
  | .conn i task => if i = id ∧ task ≠ .connectionEstablished then some task else none
  | .removeConnectionInLoop _ => none

/-- The effect is outside the loop's queue. -/
def outward : Effect → Bool
  | .queueInLoop _ => false
  | _ => true

/-- What the member functions of a connection asked of the poller, the socket and the callbacks, in
order. -/
def effectsOf (id : Nat) (log : List Entry) : List Effect :=
  log.filterMap fun
    | .effect i e => if i = id ∧ outward e = true then some e else none
    | .called _ _ _ => none

theorem effectsOf_append (id : Nat) (log log' : List Entry) :
    effectsOf id (log ++ log') = effectsOf id log ++ effectsOf id log' := List.filterMap_append

@[simp] theorem effectsOf_called (id i : Nat) (m : Member) (t : ThreadId) :
    effectsOf id [.called m t i] = [] := rfl

theorem effectsOf_effect (id : Nat) (e : Effect) :
    effectsOf id [.effect id e] = [e].filter outward := by
  cases h : outward e <;> simp [effectsOf, h]

@[simp] theorem effectsOf_effect_ne {id i : Nat} (h : i ≠ id) (e : Effect) :
    effectsOf id [.effect i e] = [] := by
  simp [effectsOf, h]

@[simp] theorem Task.on_conn {id : Nat} {task : TcpConnection.Task} (h : task ≠ .connectionEstablished) :
    Task.on id (.conn id task) = some task := if_pos ⟨rfl, h⟩

@[simp] theorem Task.on_established (id i : Nat) : Task.on id (.conn i .connectionEstablished) = none :=
  if_neg (by simp)

theorem Task.on_of_ne {id : Nat} {task : Task} (h : task.captured ≠ id) : task.on id = none := by
  cases task with
  | conn i task => exact if_neg fun hi => h hi.1
  | removeConnectionInLoop i => rfl

namespace World

/-- The tasks of a connection on a loop that have not started. -/
def tasksOf (s : World) (l : LoopId) (id : Nat) : List TcpConnection.Task :=
  (s.loops l).pending.filterMap (Task.on id)

/-- Connection `id`, which is `c`, is in the server as it is alone in `t`. -/
structure Simulates (s : World) (id : Nat) (c : TcpConnection) (t : Sys) : Prop where
  here : s.conns id = some c
  conn : t.conn = c
  memory : t.memory = s.memory
  taskQueue : t.taskQueue = s.tasksOf c.loop id
  inFlight : t.inFlight = []
  effects : t.effects.filter outward = effectsOf id s.log
  synced : t.poller.Synced c.channel.fd
  kernel : ∀ fd ev, (s.loops c.loop).poller.kernel fd = some (id, ev) →
    t.poller.kernel fd = some ((), ev)
  /-- Its events are events of a registered channel. -/
  ready : ∀ ready revents, (s.loops c.loop).phase = .handling ready → .channel id revents ∈ ready →
    t.registered = true

variable {cfg : Config} {s s' s'' : World} {id i : Nat} {c c' : TcpConnection} {t : Sys}
  {th : ThreadId} {es : List Effect} {w : Int} {l : LoopId}

/-! ## The other connections -/

/-- From `s` to `s'` nothing happened to the connection, to its tasks and to its events. -/
structure Apart (id : Nat) (s s' : World) : Prop where
  conn : s'.conns id = s.conns id
  memory : s'.memory = s.memory
  tasks : ∀ l, s'.tasksOf l id = s.tasksOf l id
  effects : effectsOf id s'.log = effectsOf id s.log
  kernel : ∀ l fd ev, (s'.loops l).poller.kernel fd = some (id, ev) →
    (s.loops l).poller.kernel fd = some (id, ev)
  ready : ∀ l ready revents, (s'.loops l).phase = .handling ready → .channel id revents ∈ ready →
    ∃ ready', (s.loops l).phase = .handling ready' ∧ .channel id revents ∈ ready'

theorem Apart.refl (id : Nat) (s : World) : Apart id s s :=
  ⟨rfl, rfl, fun _ => rfl, rfl, fun _ _ _ h => h, fun _ ready _ hp hin => ⟨ready, hp, hin⟩⟩

theorem Apart.trans (h : Apart id s s') (h' : Apart id s' s'') : Apart id s s'' where
  conn := h'.conn.trans h.conn
  memory := h'.memory.trans h.memory
  tasks l := (h'.tasks l).trans (h.tasks l)
  effects := h'.effects.trans h.effects
  kernel l fd ev hk := h.kernel l fd ev (h'.kernel l fd ev hk)
  ready l ready revents hp hin := by
    obtain ⟨ready', hp', hin'⟩ := h'.ready l ready revents hp hin
    exact h.ready l ready' revents hp' hin'

/-- **What happens apart from a connection keeps the simulation.** -/
theorem Simulates.apart (h : Simulates s id c t) (ha : Apart id s s') : Simulates s' id c t where
  here := ha.conn.trans h.here
  conn := h.conn
  memory := h.memory.trans ha.memory.symm
  taskQueue := h.taskQueue.trans (ha.tasks c.loop).symm
  inFlight := h.inFlight
  effects := h.effects.trans ha.effects.symm
  synced := h.synced
  kernel fd ev hk := h.kernel fd ev (ha.kernel c.loop fd ev hk)
  ready ready revents hp hin := by
    obtain ⟨ready', hp', hin'⟩ := ha.ready c.loop ready revents hp hin
    exact h.ready ready' revents hp' hin'

/-- A change of one loop. -/
theorem apart_loop {x : Loop}
    (htasks : x.pending.filterMap (Task.on id) = (s.loops l).pending.filterMap (Task.on id))
    (hkernel : ∀ fd ev, x.poller.kernel fd = some (id, ev) →
      (s.loops l).poller.kernel fd = some (id, ev))
    (hready : ∀ ready revents, x.phase = .handling ready → .channel id revents ∈ ready →
      ∃ ready', (s.loops l).phase = .handling ready' ∧ .channel id revents ∈ ready') :
    Apart id s { s with loops := Function.update s.loops l x } := by
  refine ⟨rfl, rfl, ?_, rfl, ?_, ?_⟩
  · intro l'
    unfold tasksOf
    by_cases hl : l' = l
    · subst hl
      simp only [Function.update_self]
      exact htasks
    · simp only [Function.update_of_ne hl]
  · intro l' fd ev hk
    by_cases hl : l' = l
    · subst hl
      simp only [Function.update_self] at hk
      exact hkernel fd ev hk
    · simp only [Function.update_of_ne hl] at hk
      exact hk
  · intro l' ready revents hp hin
    by_cases hl : l' = l
    · subst hl
      simp only [Function.update_self] at hp
      exact hready ready revents hp hin
    · simp only [Function.update_of_ne hl] at hp
      exact ⟨ready, hp, hin⟩

/-- The loops are the same. -/
theorem apart_of_loops (hloops : s'.loops = s.loops) (hconn : s'.conns id = s.conns id)
    (hmemory : s'.memory = s.memory) (heffects : effectsOf id s'.log = effectsOf id s.log) :
    Apart id s s' where
  conn := hconn
  memory := hmemory
  tasks l := by
    unfold tasksOf
    rw [hloops]
  effects := heffects
  kernel := by
    rw [hloops]
    exact fun _ _ _ h => h
  ready := by
    rw [hloops]
    exact fun _ ready _ hp hin => ⟨ready, hp, hin⟩

theorem record_apart {e : Entry} (he : effectsOf id [e] = []) : Apart id s (s.record e) := by
  refine apart_of_loops rfl rfl rfl ?_
  unfold World.record
  rw [effectsOf_append, he, List.append_nil]

theorem setConn_apart (hi : i ≠ id) (c : TcpConnection) : Apart id s (s.setConn i c) :=
  apart_of_loops rfl (Function.update_of_ne hi.symm ..) rfl rfl

theorem server_apart (id : Nat) (s : World) (server : TcpServer) :
    Apart id s { s with server := server } :=
  apart_of_loops rfl rfl rfl rfl

theorem setPhase_apart {p : Phase} (htasks : p.tasks.filterMap (Task.on id) =
      (s.loops l).phase.tasks.filterMap (Task.on id))
    (hready : ∀ ready revents, p = .handling ready → .channel id revents ∈ ready →
      ∃ ready', (s.loops l).phase = .handling ready' ∧ .channel id revents ∈ ready') :
    Apart id s (s.setPhase l p) := by
  refine apart_loop ?_ (fun _ _ h => h) hready
  simp only [Loop.pending, List.filterMap_append, htasks]

theorem swapTasks_apart (hp : (s.loops l).phase.tasks = []) : Apart id s (s.swapTasks l) := by
  refine apart_loop ?_ (fun _ _ h => h) (fun ready _ h => absurd h (by simp))
  simp [Loop.pending, hp, show ∀ ts, (Phase.executing ts).tasks = ts from fun _ => rfl]

theorem queueInLoop_apart {task : Task} (h : task.on id = none) (l : LoopId) :
    Apart id s (s.queueInLoop l task) := by
  refine apart_loop ?_ (fun _ _ h => h) (fun ready _ hp hin => ⟨ready, hp, hin⟩)
  simp [Loop.pending, h]

theorem updateChannel_apart (hi : i ≠ id) (l : LoopId) (fd : Int) (events : PollEvents) :
    Apart id s (s.setPoller l ((s.loops l).poller.updateChannel i fd events)) := by
  refine apart_loop rfl ?_ (fun ready _ hp hin => ⟨ready, hp, hin⟩)
  intro fd' ev hk
  have hput : ∀ ep : Epoller Nat,
      Function.update ep.kernel fd (some (i, pollToEpollEvents events)) fd' = some (id, ev) →
        ep.kernel fd' = some (id, ev) := by
    intro ep hput
    rcases update_some_inv hput with ⟨-, heq⟩ | ⟨-, hold⟩
    · exact absurd (Prod.mk.inj heq).1.symm hi
    · exact hold
  unfold Epoller.updateChannel at hk
  split at hk
  · split at hk
    · exact hput _ hk
    · exact hk
  · split at hk
    · exact hk
    · exact hput _ hk

theorem removeChannel_apart (id : Nat) (l : LoopId) (fd : Int) :
    Apart id s (s.setPoller l ((s.loops l).poller.removeChannel fd)) := by
  refine apart_loop rfl ?_ (fun ready _ hp hin => ⟨ready, hp, hin⟩)
  intro fd' ev hk
  unfold Epoller.removeChannel at hk
  split at hk
  · exact (update_none_inv hk).2
  · exact hk

theorem removeConnectionInLoop_apart (hi : i ≠ id) (he : s.removeConnectionInLoop th i = .ok s') :
    Apart id s s' := by
  obtain ⟨_, -, he⟩ := bind_ok_inv he
  simp only at he
  split at he
  · exact absurd he (by simp)
  · rename_i c hc
    obtain rfl := Except.ok.inj he
    have hrecord : Apart id s (s.record (.called .removeConnectionInLoop th i)) := record_apart rfl
    have hother : Task.on id (.conn i .connectionDestroyed) = none := Task.on_of_ne hi
    exact (hrecord.trans (server_apart ..)).trans (queueInLoop_apart hother _)

theorem removeConnection_apart (hi : i ≠ id) (he : s.removeConnection th i = .ok s') :
    Apart id s s' := by
  unfold removeConnection at he
  split at he
  · exact removeConnectionInLoop_apart hi he
  · obtain rfl := Except.ok.inj he
    exact queueInLoop_apart rfl _

theorem perform_apart (hi : i ≠ id) {e : Effect}
    (hclose : e ≠ .closeCallback (.serverRemoveConnection id)) (he : s.perform th i c e = .ok s') :
    Apart id s s' := by
  have hrecord : Apart id s (s.record (.effect i e)) := record_apart (effectsOf_effect_ne hi e)
  refine hrecord.trans ?_
  unfold perform at he
  split at he
  · obtain ⟨_, -, he⟩ := bind_ok_inv he
    obtain rfl := Except.ok.inj he
    exact updateChannel_apart hi ..
  · obtain ⟨_, -, he⟩ := bind_ok_inv he
    obtain rfl := Except.ok.inj he
    exact removeChannel_apart ..
  · obtain rfl := Except.ok.inj he
    rename_i task
    have hother : Task.on id (.conn i task) = none := Task.on_of_ne hi
    exact queueInLoop_apart hother _
  · rename_i conn
    exact removeConnection_apart (fun h => hclose (by rw [h])) he
  · obtain rfl := Except.ok.inj he
    exact .refl id _

theorem performAll_apart (hi : i ≠ id) (hclose : .closeCallback (.serverRemoveConnection id) ∉ es)
    (he : performAll th i c s es = .ok s') : Apart id s s' := by
  induction es generalizing s with
  | nil =>
    obtain rfl := Except.ok.inj he
    exact .refl id s
  | cons e es ih =>
    obtain ⟨s₁, h1, h2⟩ := bind_ok_inv he
    rw [List.mem_cons, not_or] at hclose
    exact (perform_apart hi (fun h => hclose.1 h.symm) h1).trans (ih hclose.2 h2)

/-- The calls of a connection that close another one are none. -/
theorem invoke_apart (hi : i ≠ id) {r : Result}
    (hclose : ∀ {c' es}, r = .ok (c', es) → .closeCallback (.serverRemoveConnection id) ∉ es)
    (he : s.invoke th i r = .ok s') : Apart id s s' := by
  obtain ⟨⟨c', es⟩, hr, he⟩ := bind_ok_inv he
  exact (setConn_apart hi c').trans (performAll_apart hi (hclose hr) he)

/-- Routine effects do not remove a connection. -/
theorem not_closing_of_routine (h : es.all routine = true) (conn : Nat) :
    .closeCallback (.serverRemoveConnection conn) ∉ es := by
  intro hmem
  have hr := List.all_eq_true.mp h _ hmem
  exact absurd hr (by simp [routine])

theorem executeConn_apart (hi : i ≠ id) {task : TcpConnection.Task}
    (he : s.executeConn th i c w task = .ok s') : Apart id s s' := by
  cases task with
  | connectionEstablished =>
    have hrecord : Apart id s (s.record (.called .connectionEstablished th i)) := record_apart rfl
    exact hrecord.trans
      (invoke_apart hi (fun hr => not_closing_of_routine (connectionEstablished_routine hr) id) he)
  | connectionDestroyed =>
    have hrecord : Apart id s (s.record (.called .connectionDestroyed th i)) := record_apart rfl
    exact hrecord.trans
      (invoke_apart hi (fun hr => not_closing_of_routine (connectionDestroyed_routine hr) id) he)
  | shutdownInLoop =>
    exact invoke_apart hi (fun hr => not_closing_of_routine (shutdownInLoop_routine hr) id) he
  | sendString _ | sendBuffer _ | sendPointer _ _ =>
    exact invoke_apart hi (fun hr => not_closing_of_routine (sendArgInLoop_routine hr) id) he
  | writeCompleteCallback | highWaterCallback =>
    obtain rfl := Except.ok.inj he
    exact .refl id s

theorem execute_apart {task : Task} (hcap : task.captured ≠ id) (he : s.execute th w task = .ok s') :
    Apart id s s' := by
  cases task with
  | conn i task =>
    simp only [execute] at he
    split at he
    · exact absurd he (by simp)
    · exact executeConn_apart hcap he
  | removeConnectionInLoop i => exact removeConnectionInLoop_apart hcap he

theorem addConnection_apart (hi : s.accepted ≠ id) (fd : Int) : Apart id s (s.addConnection fd) :=
  apart_of_loops rfl (Function.update_of_ne hi.symm ..) rfl rfl

theorem handleReadable_apart (hi : i ≠ id) (hclose : c.closeCallback = some (.serverRemoveConnection i))
    {r : ReadResult} (he : s.invoke th i (c.handleReadable th r) = .ok s') : Apart id s s' := by
  refine invoke_apart hi (fun {c' es} hr hmem => ?_) he
  obtain ⟨-, rb, -, ⟨-, hcall⟩ | ⟨-, -, rfl⟩⟩ := TcpConnection.handleReadable_inv hr
  · obtain ⟨-, -, cb, hcb, -, rfl⟩ := TcpConnection.handleClose_inv hcall
    have hcb' : c.closeCallback = some cb := hcb
    rw [hclose] at hcb'
    obtain rfl := Option.some.inj hcb'
    simp only [List.mem_cons, reduceCtorEq, List.not_mem_nil, or_false, false_or] at hmem
    exact hi (TcpConnection.CloseCallback.serverRemoveConnection.inj
      (Effect.closeCallback.inj hmem)).symm
  · split at hmem <;> simp at hmem

theorem handle_channel_apart (hI : Inv cfg s none) (hi : i ≠ id) {k : Kernel} {revents : PollEvents}
    (he : s.handle th k (.channel i revents) = .ok s') : Apart id s s' := by
  simp only [handle] at he
  split at he
  · exact absurd he (by simp)
  · rename_i c hc
    rw [handleEvent_wired (hI.at hc).1] at he
    generalize hc₁ : { c with channel := c.channel.setReturnEvents revents } = c₁ at he
    have hclose : c₁.closeCallback = some (.serverRemoveConnection i) := by
      rw [← hc₁]
      exact (hI.at hc).1.closeCallback
    refine (setConn_apart hi c₁).trans ?_
    split at he
    · have he := runHandlers_read (Function.update_self ..) he
      split at he
      · exact (record_apart rfl).trans (handleReadable_apart hi hclose he)
      · exact handleReadable_apart hi hclose he
    · obtain rfl := Except.ok.inj he
      exact .refl id _

/-! ## The connection itself -/

/-- Every descriptor of every poller is as the kernel has it. -/
def AllSynced (s : World) : Prop := ∀ l fd, (s.loops l).poller.Synced fd

theorem AllSynced.setPoller (h : AllSynced s) {l : LoopId} {fd : Int} {ep : Epoller Nat}
    {ptr : Nat} (hw : Epoller.Within ptr fd (s.loops l).poller ep) : AllSynced (s.setPoller l ep) := by
  intro l' fd'
  by_cases hl : l' = l
  · subst hl
    simp only [World.setPoller, Function.update_self]
    by_cases hfd : fd' = fd
    · subst hfd
      exact hw.synced
    · unfold Epoller.Synced
      rw [hw.channelMap fd' hfd, hw.kernel fd' hfd]
      exact h l' fd'
  · simp only [World.setPoller, Function.update_of_ne hl]
    exact h l' fd'

theorem absorb_nil (h : t.conn = c) : t.absorb c [] = t := by
  subst h
  simp [Sys.absorb]

theorem absorb_cons (t : Sys) (c : TcpConnection) (e : Effect) (es : List Effect) :
    t.absorb c (e :: es) = (t.absorb c [e]).absorb c es := by
  simp [Sys.absorb]

theorem absorb_one (h : t.conn = c) (e : Effect) :
    t.absorb c [e] =
      { t.record (.effect e) with
        poller := e.onPoller c.channel.fd t.poller
        taskQueue := t.taskQueue ++ e.queued } := by
  subst h
  simp [Sys.absorb, Sys.record]

/-- An effect is logged on both sides. -/
theorem Simulates.logged (h : Simulates s id c t) (e : Effect) :
    Simulates (s.record (.effect id e)) id c (t.record (.effect e)) where
  here := h.here
  conn := h.conn
  memory := h.memory
  taskQueue := h.taskQueue
  inFlight := h.inFlight
  effects := by
    have hlog : (t.record (.effect e)).effects = t.effects ++ [e] := by
      simp [Sys.effects, Sys.record]
    unfold World.record
    rw [hlog, List.filter_append, effectsOf_append, effectsOf_effect, h.effects]
  synced := h.synced
  kernel := h.kernel
  ready := h.ready

/-- A closure on the connection is queued on its loop. -/
theorem Simulates.queue (h : Simulates s id c t) {task : TcpConnection.Task}
    (hne : task ≠ .connectionEstablished) :
    Simulates (s.queueInLoop c.loop (.conn id task)) id c
      { t with taskQueue := t.taskQueue ++ [task] } where
  here := h.here
  conn := h.conn
  memory := h.memory
  taskQueue := by
    rw [h.taskQueue]
    simp [tasksOf, World.queueInLoop, Loop.pending, Task.on_conn hne]
  inFlight := h.inFlight
  effects := h.effects
  synced := h.synced
  kernel fd ev hk := by
    simp only [World.queueInLoop, Function.update_self] at hk
    exact h.kernel fd ev hk
  ready ready revents hp hin := by
    simp only [World.queueInLoop, Function.update_self] at hp
    exact h.ready ready revents hp hin

/-- The poller of its loop has another interest of the connection. -/
theorem Simulates.updateChannel (h : Simulates s id c t) (hs : AllSynced s) (events : PollEvents) :
    Simulates (s.setPoller c.loop ((s.loops c.loop).poller.updateChannel id c.channel.fd events)) id c
      { t with poller := t.poller.updateChannel () c.channel.fd events } where
  here := h.here
  conn := h.conn
  memory := h.memory
  taskQueue := by
    rw [h.taskQueue]
    simp [tasksOf, World.setPoller, Loop.pending]
  inFlight := h.inFlight
  effects := h.effects
  synced := Epoller.updateChannel_synced h.synced events
  kernel fd ev hk := by
    simp only [World.setPoller, Function.update_self] at hk
    rw [Epoller.updateChannel_of_synced (hs c.loop c.channel.fd)] at hk
    rw [Epoller.updateChannel_of_synced h.synced]
    rcases update_some_inv hk with ⟨rfl, heq⟩ | ⟨hne, hold⟩
    · rw [(Prod.mk.inj heq).2]
      exact Function.update_self ..
    · exact (Function.update_of_ne hne ..).trans (h.kernel fd ev hold)
  ready ready revents hp hin := by
    unfold Sys.registered
    rw [Epoller.updateChannel_of_synced h.synced, h.conn]
    simp

/-- The channel is removed, and no event of it waits. -/
theorem Simulates.removeChannel (h : Simulates s id c t) (hs : AllSynced s) (habsent : Absent s id) :
    Simulates (s.setPoller c.loop ((s.loops c.loop).poller.removeChannel c.channel.fd)) id c
      { t with poller := t.poller.removeChannel c.channel.fd } where
  here := h.here
  conn := h.conn
  memory := h.memory
  taskQueue := by
    rw [h.taskQueue]
    simp [tasksOf, World.setPoller, Loop.pending]
  inFlight := h.inFlight
  effects := h.effects
  synced := Epoller.removeChannel_synced h.synced
  kernel fd ev hk := by
    simp only [World.setPoller, Function.update_self] at hk
    rw [Epoller.removeChannel_eq_clear (hs c.loop c.channel.fd)] at hk
    rw [Epoller.removeChannel_eq_clear h.synced]
    obtain ⟨hne, hold⟩ := update_none_inv hk
    exact (Function.update_of_ne hne ..).trans (h.kernel fd ev hold)
  ready ready revents hp hin := by
    rw [phase_setPoller] at hp
    exact absurd hin (habsent _ ready revents hp)

/-! ## Calls of its member functions -/

theorem queueInLoop_loops (s : World) (l : LoopId) (task : Task) (l' : LoopId) :
    ((s.queueInLoop l task).loops l').poller = (s.loops l').poller ∧
      ((s.queueInLoop l task).loops l').phase = (s.loops l').phase := by
  unfold World.queueInLoop
  by_cases hl : l' = l
  · subst hl
    simp
  · simp [hl]

/-- A routine effect keeps the pollers in step with the kernel, and the batches. -/
theorem perform_steady (hs : AllSynced s) {e : Effect} (hr : routine e = true)
    (he : s.perform th i c e = .ok s') :
    AllSynced s' ∧ ∀ l, (s'.loops l).phase = (s.loops l).phase := by
  have hs₁ : AllSynced (s.record (.effect i e)) := hs
  cases e with
  | updateChannel events =>
    obtain ⟨_, -, he⟩ := bind_ok_inv he
    obtain rfl := Except.ok.inj he
    exact ⟨hs₁.setPoller (Epoller.updateChannel_within (hs _ _) events), phase_setPoller _ _ _⟩
  | removeChannel =>
    obtain ⟨_, -, he⟩ := bind_ok_inv he
    obtain rfl := Except.ok.inj he
    have hwithin : Epoller.Within 0 c.channel.fd (s.loops c.loop).poller
        ((s.loops c.loop).poller.removeChannel c.channel.fd) := Epoller.removeChannel_within (hs _ _)
    exact ⟨hs₁.setPoller hwithin, phase_setPoller _ _ _⟩
  | queueInLoop task =>
    obtain rfl := Except.ok.inj he
    refine ⟨?_, fun l => (queueInLoop_loops _ _ _ l).2⟩
    intro l fd
    unfold Epoller.Synced
    rw [(queueInLoop_loops _ _ _ l).1]
    exact hs l fd
  | closeCallback cb => exact absurd hr (by simp [routine])
  | _ =>
    obtain rfl := Except.ok.inj he
    exact ⟨hs₁, fun _ => rfl⟩

/-- A routine effect of the connection is carried out. -/
theorem perform_simulates (h : Simulates s id c t) (hs : AllSynced s) {e : Effect}
    (hr : routine e = true) (hremove : e = .removeChannel → Absent s id)
    (he : s.perform th id c e = .ok s') : Simulates s' id c (t.absorb c [e]) := by
  have h₁ := h.logged e
  have hs₁ : AllSynced (s.record (.effect id e)) := hs
  rw [absorb_one h.conn]
  cases e with
  | updateChannel events =>
    obtain ⟨_, -, he⟩ := bind_ok_inv he
    obtain rfl := Except.ok.inj he
    simp only [Effect.queued, List.append_nil]
    exact h₁.updateChannel hs₁ events
  | removeChannel =>
    obtain ⟨_, -, he⟩ := bind_ok_inv he
    obtain rfl := Except.ok.inj he
    simp only [Effect.queued, List.append_nil]
    exact h₁.removeChannel hs₁ (hremove rfl)
  | queueInLoop task =>
    obtain rfl := Except.ok.inj he
    have hne : task ≠ .connectionEstablished := by
      rintro rfl
      exact absurd hr (by simp [routine])
    exact h₁.queue hne
  | closeCallback cb => exact absurd hr (by simp [routine])
  | _ =>
    obtain rfl := Except.ok.inj he
    simp only [Effect.queued, List.append_nil]
    exact h₁

theorem performAll_simulates (h : Simulates s id c t) (hs : AllSynced s) (hr : es.all routine = true)
    (hremove : .removeChannel ∈ es → Absent s id) (he : performAll th id c s es = .ok s') :
    Simulates s' id c (t.absorb c es) := by
  induction es generalizing s t with
  | nil =>
    obtain rfl := Except.ok.inj he
    rw [absorb_nil h.conn]
    exact h
  | cons e es ih =>
    rw [List.all_cons, Bool.and_eq_true] at hr
    obtain ⟨s₁, h1, h2⟩ := bind_ok_inv he
    have h₁ := perform_simulates h hs hr.1 (fun heq => hremove (by rw [heq]; exact List.mem_cons_self)) h1
    obtain ⟨hs₁, hphase⟩ := perform_steady hs hr.1 h1
    rw [absorb_cons]
    refine ih h₁ hs₁ hr.2 ?_ h2
    intro hmem l ready revents hp
    rw [hphase] at hp
    exact hremove (List.mem_cons_of_mem _ hmem) l ready revents hp

/-- The connection is replaced by one with the same wiring. -/
theorem Simulates.setConn (h : Simulates s id c t) (hw : c'.wiring = c.wiring) :
    Simulates (s.setConn id c') id c' { t with conn := c' } where
  here := Function.update_self ..
  conn := rfl
  memory := h.memory
  taskQueue := by
    rw [TcpConnection.wiring_loop hw]
    exact h.taskQueue
  inFlight := h.inFlight
  effects := h.effects
  synced := by
    rw [TcpConnection.wiring_fd hw]
    exact h.synced
  kernel := by
    rw [TcpConnection.wiring_loop hw]
    exact h.kernel
  ready ready revents hp hin := by
    rw [TcpConnection.wiring_loop hw] at hp
    have hreg := h.ready ready revents hp hin
    unfold Sys.registered at hreg ⊢
    rw [h.conn] at hreg
    rw [← TcpConnection.wiring_fd hw] at hreg
    exact hreg

/-- A member function of the connection returns, with routine effects. -/
theorem invoke_simulates (h : Simulates s id c t) (hs : AllSynced s) {r : Result}
    (hr : r = .ok (c', es)) (hw : c'.wiring = c.wiring) (hes : es.all routine = true)
    (hremove : .removeChannel ∈ es → Absent s id) (he : s.invoke th id r = .ok s') :
    ∃ t', t.invoke r = .ok t' ∧ Simulates s' id c' t' := by
  rw [hr] at he
  subst hr
  have h₁ := performAll_simulates (h.setConn hw) hs hes hremove he
  exact ⟨t.absorb c' es, rfl, h₁⟩

/-! ## Runs of the connection alone -/

/-- A step that a server or its user has the connection take: no `InLoop` function is called from
outside, and nobody else uses the send buffer. -/
def served : TcpConnection.Label → Bool
  | .sendInLoop _ _ | .shutdownInLoop | .useSendBuffer _ => false
  | _ => true

/-- Alone, the connection gets from `t` to `t'`. -/
def Leads (t t' : Sys) : Prop := ∃ labels, labels.all served = true ∧ run Sys.step t labels = .ok t'

/-- A state that a connection alone can be in. -/
def Alone (t : Sys) : Prop := ∃ u loop name fd, Leads (Sys.start u loop name fd) t

theorem Leads.refl (t : Sys) : Leads t t := ⟨[], rfl, rfl⟩

theorem Leads.trans {t t' t'' : Sys} (h : Leads t t') (h' : Leads t' t'') : Leads t t'' := by
  obtain ⟨as, has, hrun⟩ := h
  obtain ⟨bs, hbs, hrun'⟩ := h'
  refine ⟨as ++ bs, ?_, ?_⟩
  · rw [List.all_append, has, hbs]
    rfl
  · rw [run_append hrun]
    exact hrun'

theorem leads_step {t t' : Sys} (x : TcpConnection.Label) (hx : served x = true)
    (h : t.step x = .ok t') : Leads t t' :=
  ⟨[x], by simp [hx], (run_cons_ok h).mpr rfl⟩

theorem Leads.alone {t t' : Sys} (h : Leads t t') (ht : Alone t) : Alone t' := by
  obtain ⟨u, loop, name, fd, hl⟩ := ht
  exact ⟨u, loop, name, fd, hl.trans h⟩

/-- Alone, the connection gets from `t` to where connection `id` is in the server. -/
def Follows (s : World) (id : Nat) (t : Sys) : Prop := ∃ c t', Leads t t' ∧ Simulates s id c t'

theorem Simulates.follows (h : Simulates s id c t) : Follows s id t := ⟨c, t, .refl t, h⟩

theorem Follows.apart (h : Follows s id t) (ha : Apart id s s') : Follows s' id t := by
  obtain ⟨c, t', hl, hs⟩ := h
  exact ⟨c, t', hl, hs.apart ha⟩

theorem Follows.after {t t' : Sys} (h : Follows s id t') (hl : Leads t t') : Follows s id t := by
  obtain ⟨c, t'', hl', hs⟩ := h
  exact ⟨c, t'', hl.trans hl', hs⟩

/-- A step of the connection alone that calls a member function with routine effects. -/
theorem invoke_follows (h : Simulates s id c t) (hs : AllSynced s) {r : Result}
    (hr : r = .ok (c', es)) (hw : c'.wiring = c.wiring) (hes : es.all routine = true)
    (hremove : .removeChannel ∈ es → Absent s id) (x : TcpConnection.Label) (hx : served x = true)
    (hstep : t.step x = t.invoke r) (he : s.invoke th id r = .ok s') : Follows s' id t := by
  obtain ⟨t', ht, h'⟩ := invoke_simulates h hs hr hw hes hremove he
  exact h'.follows.after (leads_step x hx (hstep.trans ht))

/-! ## Removal -/

theorem removeConnectionInLoop_follows (h : Simulates s id c t)
    (he : s.removeConnectionInLoop th id = .ok s') : Follows s' id t := by
  obtain ⟨_, -, he⟩ := bind_ok_inv he
  have hc : (s.record (.called .removeConnectionInLoop th id)).conns id = some c := h.here
  simp only [hc] at he
  obtain rfl := Except.ok.inj he
  have hlogged : Apart id s (s.record (.called .removeConnectionInLoop th id)) := record_apart rfl
  refine Follows.after ?_ (leads_step .queueDestroyed rfl rfl)
  exact ((h.apart (hlogged.trans (server_apart ..))).queue (by simp)).follows

theorem removeConnection_follows (h : Simulates s id c t) (he : s.removeConnection th id = .ok s') :
    Follows s' id t := by
  unfold removeConnection at he
  split at he
  · exact removeConnectionInLoop_follows h he
  · obtain rfl := Except.ok.inj he
    exact (h.apart (queueInLoop_apart rfl _)).follows

/-! ## Tasks -/

/-- The task that the loop takes is the first of the connection's. -/
theorem Simulates.take (h : Simulates s id c t) {task : TcpConnection.Task} {tasks : List Task}
    (hne : task ≠ .connectionEstablished)
    (hp : (s.loops c.loop).phase = .executing (.conn id task :: tasks)) :
    ∃ rest, t.taskQueue = task :: rest ∧ Simulates (s.setPhase c.loop (.executing tasks)) id c
      ({ t with taskQueue := rest }.record (.ran task)) := by
  have hqueue : t.taskQueue = task :: (s.setPhase c.loop (.executing tasks)).tasksOf c.loop id := by
    rw [h.taskQueue]
    simp [tasksOf, World.setPhase, Loop.pending, hp, Task.on_conn hne,
      show ∀ ts, (Phase.executing ts).tasks = ts from fun _ => rfl]
  refine ⟨_, hqueue, h.here, h.conn, h.memory, rfl, h.inFlight, ?_, h.synced, ?_, ?_⟩
  · rw [Sys.effects_record (by simp)]
    exact h.effects
  · intro fd ev hk
    rw [poller_setPhase] at hk
    exact h.kernel fd ev hk
  · intro ready revents hp'
    rcases setPhase_handling hp' with ⟨-, heq⟩ | ⟨hl, -⟩
    · exact absurd heq (by simp)
    · exact absurd rfl hl

theorem not_removing_of_output (h : es.all Effect.output = true) : .removeChannel ∉ es := by
  intro hmem
  exact absurd (List.all_eq_true.mp h _ hmem) (by simp [Effect.output])

/-- A task runs while its loop handles no events. -/
theorem executeConn_simulates (h : Simulates s id c t) (hs : AllSynced s) (habsent : Absent s id)
    {task : TcpConnection.Task} (hne : task ≠ .connectionEstablished)
    (he : s.executeConn (.loop c.loop) id c w task = .ok s') :
    ∃ c' t', t.execute w task = .ok t' ∧ Simulates s' id c' t' := by
  obtain rfl := h.conn
  have hsend : ∀ arg, s.invoke (.loop t.conn.loop) id
      (t.conn.sendArgInLoop (.loop t.conn.loop) s.memory arg w) = .ok s' →
      ∃ c' t', t.invoke (t.conn.sendArgInLoop t.thread t.memory arg w) = .ok t' ∧
        Simulates s' id c' t' := by
    intro arg he
    rw [← h.memory] at he
    obtain ⟨⟨c', es⟩, hr, -⟩ := bind_ok_inv he
    exact ⟨c', invoke_simulates h hs hr (TcpConnection.sendArgInLoop_wiring hr).1
      (sendArgInLoop_routine hr) (fun _ => habsent) he⟩
  cases task with
  | connectionEstablished => exact absurd rfl hne
  | connectionDestroyed =>
    have hlogged : Apart id s (s.record (.called .connectionDestroyed (.loop t.conn.loop) id)) :=
      record_apart rfl
    obtain ⟨⟨c', es⟩, hr, -⟩ := bind_ok_inv he
    have hw : c'.wiring = t.conn.wiring := by
      obtain ⟨-, rfl, -⟩ := TcpConnection.connectionDestroyed_inv hr
      rfl
    exact ⟨c', invoke_simulates (h.apart hlogged) hs hr hw (connectionDestroyed_routine hr)
      (fun _ => habsent) he⟩
  | shutdownInLoop =>
    obtain ⟨⟨c', es⟩, hr, -⟩ := bind_ok_inv he
    exact ⟨c', invoke_simulates h hs hr (TcpConnection.shutdownInLoop_wiring hr)
      (shutdownInLoop_routine hr) (fun _ => habsent) he⟩
  | sendString msg => exact hsend _ he
  | sendBuffer buf => exact hsend _ he
  | sendPointer addr len => exact hsend _ he
  | writeCompleteCallback | highWaterCallback =>
    obtain rfl := Except.ok.inj he
    exact ⟨t.conn, t, rfl, h⟩

theorem connectionEstablished_follows (h : Simulates s id c t) (hs : AllSynced s)
    (he : s.executeConn (.loop c.loop) id c w .connectionEstablished = .ok s') : Follows s' id t := by
  obtain rfl := h.conn
  have hlogged : Apart id s (s.record (.called .connectionEstablished (.loop t.conn.loop) id)) :=
    record_apart rfl
  obtain ⟨⟨c', es⟩, hr, -⟩ := bind_ok_inv he
  have hes := connectionEstablished_routine hr
  obtain ⟨-, -, rfl, rfl⟩ := TcpConnection.connectionEstablished_inv hr
  refine invoke_follows (h.apart hlogged) hs hr rfl hes ?_ .connectionEstablished rfl rfl he
  intro hmem
  unfold TcpConnection.connectionNotice at hmem
  split at hmem <;> simp at hmem

/-! ## Events -/

/-- The channel a poller reports is registered. -/
theorem Simulates.poll (h : Simulates s id c t) (hP : Polled s none) (l : LoopId)
    (reports : List Report) (hp : (s.loops l).phase = .polling) :
    Simulates (s.setPhase l (.handling (s.poll l reports))) id c t where
  here := h.here
  conn := h.conn
  memory := h.memory
  taskQueue := by
    rw [h.taskQueue]
    unfold tasksOf Loop.pending World.setPhase
    by_cases hl : c.loop = l
    · subst hl
      simp [hp, Phase.tasks]
    · simp [hl]
  inFlight := h.inFlight
  effects := h.effects
  synced := h.synced
  kernel fd ev hk := by
    rw [poller_setPhase] at hk
    exact h.kernel fd ev hk
  ready ready revents hp' hin := by
    rcases setPhase_handling hp' with ⟨rfl, heq⟩ | ⟨-, hold⟩
    · obtain rfl := Phase.handling.inj heq
      unfold World.poll at hin
      split at hin
      · obtain ⟨report, -, hready⟩ := List.mem_filterMap.mp hin
        obtain ⟨fd, asked, -, hk, -⟩ := readyOf_channel hready
        obtain ⟨ci, hci, rfl, -⟩ := hP.kernel _ _ _ _ hk
        rw [h.here] at hci
        obtain rfl := Option.some.inj hci
        unfold Sys.registered
        rw [h.conn, h.kernel _ _ hk]
        rfl
      · exact absurd hin List.not_mem_nil
    · exact h.ready ready revents hold hin

/-- The read callback brings bytes, an error or the end of the stream. -/
theorem handleReadable_follows (h : Simulates s id c t) (hs : AllSynced s) (hw : Wired cfg id c)
    (habsent : Absent s id) {r : ReadResult}
    (he : s.invoke (.loop c.loop) id (c.handleReadable (.loop c.loop) r) = .ok s') :
    ∃ t', t.invoke (c.handleReadable (.loop c.loop) r) = .ok t' ∧ Follows s' id t' := by
  obtain ⟨⟨c', es⟩, hr, he'⟩ := bind_ok_inv he
  have hw' := (TcpConnection.handleReadable_wiring hr).1
  obtain ⟨-, rb, -, ⟨-, hclose⟩ | ⟨-, -, heq⟩⟩ := TcpConnection.handleReadable_inv hr
  · obtain ⟨-, -, cb, hcb, -, rfl⟩ := TcpConnection.handleClose_inv hclose
    have hcb' : c.closeCallback = some cb := hcb
    rw [hw.closeCallback] at hcb'
    obtain rfl := Option.some.inj hcb'
    -- the interest goes first, then the server takes the connection out
    obtain ⟨s₁, hupdate, he'⟩ := bind_ok_inv he'
    obtain ⟨s₂, hcall, he'⟩ := bind_ok_inv he'
    obtain rfl := Except.ok.inj he'
    have h₁ := perform_simulates (h.setConn hw') hs rfl (by simp) hupdate
    have h₂ := h₁.logged (.closeCallback (.serverRemoveConnection id))
    refine ⟨t.absorb c' _, by rw [hr]; rfl, ?_⟩
    rw [absorb_cons, absorb_one (show (t.absorb c' _).conn = c' from rfl)]
    simp only [Effect.queued, List.append_nil]
    exact removeConnection_follows h₂ hcall
  · have hes : es.all routine = true := by
      rw [heq]
      split <;> rfl
    obtain ⟨t', ht, h'⟩ := invoke_simulates h hs hr hw' hes (fun _ => habsent) he
    exact ⟨t', ht, h'.follows⟩

theorem runHandlers_follows (h : Simulates s id c t) (hs : AllSynced s) (hw : Wired cfg id c)
    (habsent : Absent s id) {r : ReadResult}
    (he : s.runHandlers (.loop c.loop) id r w [.handleReadable] = .ok s') :
    ∃ t', t.runHandlers r w [.handleReadable] = .ok t' ∧ Follows s' id t' := by
  obtain rfl := h.conn
  have hread : ∃ t', t.invoke (t.conn.handleReadable t.thread r) = .ok t' ∧ Follows s' id t' := by
    have he := runHandlers_read h.here he
    split at he
    · exact handleReadable_follows (h.apart (record_apart rfl)) hs hw habsent he
    · exact handleReadable_follows h hs hw habsent he
  obtain ⟨t', ht, h'⟩ := hread
  refine ⟨t', ?_, h'⟩
  simp only [Sys.runHandlers, TcpConnection.runHandler, ht, ok_bind]

theorem handle_channel_follows (h : Simulates s id c t) (hI : Inv cfg s none) (hs : AllSynced s)
    (habsent : Absent s id) (hreg : t.registered = true) {k : Kernel} {revents : PollEvents}
    (he : s.handle (.loop c.loop) k (.channel id revents) = .ok s') : Follows s' id t := by
  simp only [handle, h.here] at he
  have hw := (hI.at h.here).1
  have hhandlers := handleEvent_wired hw revents
  have h₁ : Simulates (s.setConn id { c with channel := c.channel.setReturnEvents revents }) id
      { c with channel := c.channel.setReturnEvents revents }
      { t with conn := { c with channel := c.channel.setReturnEvents revents } } := h.setConn rfl
  -- alone: the same event, on a registered channel
  suffices ∃ t', t.dispatch revents k.read k.written = .ok t' ∧ Follows s' id t' by
    obtain ⟨t', ht, h'⟩ := this
    refine h'.after (leads_step (.event revents k.read k.written) rfl ?_)
    simp only [Sys.step, hreg, if_true]
    exact ht
  unfold Sys.dispatch
  rw [h.conn]
  simp only [hhandlers] at he ⊢
  split at he
  · rename_i hreads
    rw [if_pos hreads]
    exact runHandlers_follows h₁ hs (hw.of_wiring rfl) habsent he
  · rename_i hreads
    rw [if_neg hreads]
    obtain rfl := Except.ok.inj he
    exact ⟨_, rfl, h₁.follows⟩

/-! ## A new connection -/

/-- What the new-connection callback sets on a connection. -/
def setupOf (sv : TcpServer) (id : Nat) : TcpConnection.Setup where
  messageCallback := sv.messageCallback
  connectionCallback := sv.connectionCallback
  highWaterMark := if sv.highWatermarkCallback then sv.highWaterMark else 0
  highWaterCallback := sv.highWatermarkCallback
  writeCompleteCallback := sv.writeCompleteCallback
  closeCallback := some (.serverRemoveConnection id)

theorem setupOf_apply (sv : TcpServer) (id : Nat) (loop : LoopId) (fd : Int) :
    (setupOf sv id).apply (TcpConnection.construct loop (connectionName sv.serverName sv.nextConnId) fd) =
      sv.newTcpConnection id loop fd := rfl

/-- No task waits for a connection that has not been accepted. -/
theorem tasksOf_fresh (hI : Inv cfg s none) (hid : s.accepted ≤ id) (l : LoopId) :
    s.tasksOf l id = [] := by
  refine List.filterMap_eq_nil_iff.mpr ?_
  intro task hmem
  refine Task.on_of_ne ?_
  rintro rfl
  have hpos : 0 < tokens s none l task := tokens_pos_of_mem hmem
  rw [hI.tokens_fresh hid] at hpos
  exact absurd hpos (Nat.lt_irrefl 0)

/-- **A new connection is in the server as it is constructed alone.** -/
theorem addConnection_simulates (hI : Inv cfg s none) (hP : Polled s none)
    (hlog : effectsOf s.accepted s.log = []) (fd : Int) :
    ∃ c t, Alone t ∧ c.loop = s.server.threadPool.getNextLoop.1 ∧
      Simulates (s.addConnection fd) s.accepted c t := by
  have hnone := hI.fresh _ (Nat.le_refl s.accepted)
  refine ⟨s.server.newTcpConnection s.accepted s.server.threadPool.getNextLoop.1 fd,
    { Sys.start (setupOf s.server s.accepted) s.server.threadPool.getNextLoop.1
        (connectionName s.server.serverName s.server.nextConnId) fd with memory := s.memory },
    ⟨_, _, _, _, leads_step (.store s.memory) rfl rfl⟩, rfl, ?_⟩
  refine ⟨Function.update_self .., setupOf_apply .., rfl, ?_, rfl, hlog.symm, rfl, ?_, ?_⟩
  · exact (tasksOf_fresh hI (Nat.le_refl _) _).symm
  · intro fd' ev hk
    obtain ⟨ci, hci, -⟩ := hP.kernel _ _ _ _ hk
    rw [hnone] at hci
    exact absurd hci (by simp)
  · intro ready revents hp hin
    obtain ⟨ci, hci, -⟩ := (hP.ready _ _ hp).2 _ _ hin
    rw [hnone] at hci
    exact absurd hci (by simp)

/-! ## Calls of the user -/

/-- What a call notes alone. -/
theorem Simulates.noted (h : Simulates s id c t) {e : TcpConnection.Entry}
    (he : ∀ e', e ≠ .effect e') : Simulates s id c (t.record e) where
  here := h.here
  conn := h.conn
  memory := h.memory
  taskQueue := h.taskQueue
  inFlight := h.inFlight
  effects := by
    rw [Sys.effects_record he]
    exact h.effects
  synced := h.synced
  kernel := h.kernel
  ready := h.ready

/-- A call that did nothing. -/
theorem invoke_nothing (h : Simulates s id c t) {r : Result} (hr : r = .ok (c, []))
    (he : s.invoke th id r = .ok s') : Follows s' id t := by
  rw [hr] at he
  obtain rfl := Except.ok.inj he
  obtain rfl := h.conn
  exact (h.setConn rfl).follows

/-- A call from another thread has queued its task. -/
theorem invoke_queued (h : Simulates s id c t) {r : Result} {task : TcpConnection.Task}
    (hr : r = .ok (c', [.queueInLoop task])) (hw : c'.wiring = c.wiring)
    (hne : task ≠ .connectionEstablished) (he : s.invoke th id r = .ok s') :
    Simulates s' id c' { t with conn := c', taskQueue := t.taskQueue ++ [task] } := by
  rw [hr] at he
  obtain rfl := Except.ok.inj he
  have hlogged : Apart id (s.setConn id c') ((s.setConn id c').record (.effect id (.queueInLoop task))) :=
    record_apart (effectsOf_effect ..)
  exact ((h.setConn hw).apart hlogged).queue hne

theorem send_follows (h : Simulates s id c t) (hs : AllSynced s) {arg : SendArg}
    (he : s.invoke th id (c.send th s.memory arg w) = .ok s') : Follows s' id t := by
  obtain ⟨⟨c', es⟩, hr, -⟩ := bind_ok_inv he
  rcases TcpConnection.send_inv hr with ⟨-, rfl, rfl⟩ | ⟨hcon, hin, hcall⟩ | ⟨hcon, -, rfl, rfl⟩
  · exact invoke_nothing h hr he
  · obtain rfl := eq_loop hin
    obtain rfl := h.conn
    have hconnected : t.conn.connected = true := by simp [TcpConnection.connected, hcon]
    have h₁ := h.noted (e := .sendCalled (t.argBytes arg)) (by simp)
    obtain ⟨t', ht, h'⟩ := invoke_simulates h₁ hs hr (TcpConnection.sendArgInLoop_wiring hcall).1
      (sendArgInLoop_routine hcall)
      (fun hmem => absurd hmem (not_removing_of_output (TcpConnection.sendArgInLoop_output hcall))) he
    refine h'.follows.after (leads_step (.send arg w) rfl ?_)
    rw [← h.memory] at ht
    simp only [Sys.step, hconnected, if_true]
    exact ht
  · have hne : arg.task ≠ .connectionEstablished := by cases arg <;> simp [SendArg.task]
    have h' := invoke_queued (h.noted (e := .sendCalled (t.argBytes arg)) (by simp)) hr rfl hne he
    obtain rfl := h.conn
    refine h'.follows.after ⟨[.sendCheck arg, .advance 0], rfl, ?_⟩
    simp [run, Sys.step, Sys.advance, Sys.record, TcpConnection.connected, hcon, h.inFlight]

theorem shutdown_follows (h : Simulates s id c t) (hs : AllSynced s)
    (he : s.invoke th id (c.shutdown th) = .ok s') : Follows s' id t := by
  obtain ⟨⟨c', es⟩, hr, -⟩ := bind_ok_inv he
  rcases TcpConnection.shutdown_inv hr with ⟨-, rfl, rfl⟩ | ⟨hcon, rfl, heq⟩
  · exact invoke_nothing h hr he
  · obtain rfl := h.conn
    by_cases hin : isInLoopThread t.conn.loop th = true
    · obtain rfl := eq_loop hin
      rw [if_pos hin] at heq
      subst heq
      have hconnected : t.conn.connected = true := by simp [TcpConnection.connected, hcon]
      have h₁ := (h.noted (e := .shutdownCalled) (by simp)).noted (e := .ran .shutdownInLoop) (by simp)
      obtain ⟨t', ht, h'⟩ := invoke_simulates h₁ hs hr rfl rfl (by simp) he
      refine h'.follows.after (leads_step .shutdown rfl ?_)
      simp only [Sys.step, hconnected, if_true]
      exact ht
    · rw [if_neg hin] at heq
      subst heq
      have h' := invoke_queued (h.noted (e := .shutdownCalled) (by simp)) hr rfl (by simp) he
      refine h'.follows.after ⟨[.shutdownCheck, .advance 0, .advance 0], rfl, ?_⟩
      simp [run, Sys.step, Sys.advance, Sys.record, TcpConnection.connected, hcon, h.inFlight]

/-! ## Steps and runs -/

/-- Alone, a connection of the server can be where it is there. Of one that was not accepted nothing
is logged. -/
structure Tracked (s : World) (id : Nat) : Prop where
  unseen : s.conns id = none → effectsOf id s.log = []
  known : ∀ c, s.conns id = some c → ∃ t, Alone t ∧ Simulates s id c t

theorem Tracked.apart (h : Tracked s id) (ha : Apart id s s') : Tracked s' id where
  unseen hnone := by
    rw [ha.effects]
    exact h.unseen (ha.conn.symm.trans hnone)
  known c hc := by
    obtain ⟨t, hr, hs⟩ := h.known c (ha.conn.symm.trans hc)
    exact ⟨t, hr, hs.apart ha⟩

theorem Follows.tracked (h : Follows s id t) (ht : Alone t) : Tracked s id := by
  obtain ⟨c, t', hl, hs⟩ := h
  refine ⟨fun hnone => absurd (hs.here.symm.trans hnone) (by simp), fun c' hc => ?_⟩
  obtain rfl := Option.some.inj (hs.here.symm.trans hc)
  exact ⟨t', hl.alone ht, hs⟩

theorem Tracked.follows (h : Tracked s id) (hc : s.conns id = some c)
    (hstep : ∀ t, Simulates s id c t → Follows s' id t) : Tracked s' id := by
  obtain ⟨t, hr, hs⟩ := h.known c hc
  exact (hstep t hs).tracked hr

/-- A loop that handles no events has none of its connections'. -/
theorem Polled.absent_of_idle (h : Polled s none) (hc : s.conns id = some c)
    (hidle : ∀ ready, (s.loops c.loop).phase ≠ .handling ready) : Absent s id := by
  intro l ready revents hp hin
  obtain ⟨ci, hci, rfl, -⟩ := (h.ready l ready hp).2 id revents hin
  rw [hc] at hci
  obtain rfl := Option.some.inj hci
  exact hidle ready hp

theorem newConnection_tracked (h : Tracked s id) (hI : Inv cfg s none) (hP : Polled s none) {fd : Int}
    (he : s.newConnection th fd w = .ok s') : Tracked s' id := by
  obtain ⟨_, -, he⟩ := bind_ok_inv he
  by_cases hid : s.accepted = id
  · subst hid
    have hnone := hI.fresh _ (Nat.le_refl s.accepted)
    obtain ⟨c, t, hr, hloop, hs⟩ := addConnection_simulates hI hP (h.unseen hnone) fd
    refine Follows.tracked ?_ hr
    unfold runInLoop at he
    split at he
    · rename_i hin
      obtain rfl := eq_loop hin
      simp only [execute, hs.here] at he
      rw [← hloop] at he
      exact connectionEstablished_follows hs hP.synced he
    · obtain rfl := Except.ok.inj he
      exact (hs.apart (queueInLoop_apart (Task.on_established ..) _)).follows
  · have hadd : Apart id s (s.addConnection fd) := addConnection_apart hid fd
    have hcap : Task.captured (.conn s.accepted .connectionEstablished) ≠ id := hid
    unfold runInLoop at he
    split at he
    · exact h.apart (hadd.trans (execute_apart hcap he))
    · obtain rfl := Except.ok.inj he
      exact h.apart (hadd.trans (queueInLoop_apart (Task.on_of_ne hcap) _))

/-- The loop executes the next task of its batch. -/
theorem execute_tracked (h : Tracked s id) (hI : Inv cfg s none) (hP : Polled s none) {task : Task}
    {tasks : List Task} (hp : (s.loops l).phase = .executing (task :: tasks))
    (he : (s.setPhase l (.executing tasks)).execute (.loop l) w task = .ok s') : Tracked s' id := by
  have hdrop : task.on id = none → Apart id s (s.setPhase l (.executing tasks)) := by
    intro hon
    refine setPhase_apart ?_ (fun ready _ heq => absurd heq (by simp))
    simp [hp, Phase.tasks, hon]
  have hmem : task ∈ (s.loops l).pending := by simp [Loop.pending, hp, Phase.tasks]
  obtain ⟨c, hc, hhome⟩ := hI.home l task (tokens_pos_of_mem hmem)
  by_cases hcap : task.captured = id
  · subst hcap
    cases task with
    | removeConnectionInLoop i =>
      exact h.follows hc fun t hs => removeConnectionInLoop_follows (hs.apart (hdrop rfl)) he
    | conn i task =>
      obtain rfl : c.loop = l := hhome
      have hc : s.conns i = some c := hc
      have hc₁ : (s.setPhase c.loop (.executing tasks)).conns i = some c := hc
      simp only [execute, hc₁] at he
      have hsynced : AllSynced (s.setPhase c.loop (.executing tasks)) := by
        intro l' fd
        unfold Epoller.Synced
        rw [poller_setPhase]
        exact hP.synced l' fd
      refine h.follows hc fun t hs => ?_
      by_cases hne : task = .connectionEstablished
      · subst hne
        exact connectionEstablished_follows (hs.apart (hdrop (Task.on_established ..))) hsynced he
      · obtain ⟨rest, hqueue, hs₁⟩ := hs.take hne hp
        have habsent : Absent (s.setPhase c.loop (.executing tasks)) i := by
          have hidle := hP.absent_of_idle hc (by simp [hp])
          intro l' ready revents hp'
          rcases setPhase_handling hp' with ⟨-, heq⟩ | ⟨-, hold⟩
          · exact absurd heq (by simp)
          · exact hidle l' ready revents hold
        obtain ⟨c', t', ht, h'⟩ := executeConn_simulates hs₁ hsynced habsent hne he
        refine h'.follows.after (leads_step (.runTask w) rfl ?_)
        simp only [Sys.step, hqueue]
        exact ht
  · exact h.apart ((hdrop (Task.on_of_ne hcap)).trans (execute_apart hcap he))

theorem loopStep_tracked (h : Tracked s id) (hI : Inv cfg s none) (hP : Polled s none) {k : Kernel}
    (he : s.loopStep l k = .ok s') : Tracked s' id := by
  unfold loopStep at he
  split at he
  · rename_i hp
    obtain rfl := Except.ok.inj he
    refine ⟨h.unseen, fun c hc => ?_⟩
    obtain ⟨t, hr, hs⟩ := h.known c hc
    exact ⟨t, hr, hs.poll hP l _ hp⟩
  · rename_i x xs hp
    have ha : Apart id s (s.setPhase l (.handling xs)) := by
      refine setPhase_apart (by rw [hp]; rfl) ?_
      rintro ready revents heq hin
      obtain rfl := Phase.handling.inj heq
      exact ⟨_, hp, List.mem_cons_of_mem _ hin⟩
    have hI₁ : Inv cfg (s.setPhase l (.handling xs)) none := hI.setPhase (by rw [hp]; rfl)
    have hP₁ : Polled (s.setPhase l (.handling xs)) none := by
      refine hP.setPhase ?_
      rintro ready heq
      obtain rfl := Phase.handling.inj heq
      exact ⟨_, hp, List.sublist_cons_self ..⟩
    cases x with
    | acceptor =>
      simp only [handle] at he
      obtain ⟨_, -, he⟩ := bind_ok_inv he
      split at he
      · obtain rfl := Except.ok.inj he
        exact h.apart ha
      · exact newConnection_tracked (h.apart ha) hI₁ hP₁ he
    | channel i revents =>
      by_cases hid : i = id
      · subst hid
        obtain ⟨c, hc, rfl, -⟩ := (hP.ready _ _ hp).2 _ _ List.mem_cons_self
        refine h.follows hc fun t hs => ?_
        have hreg := hs.ready _ revents hp List.mem_cons_self
        exact handle_channel_follows (hs.apart ha) hI₁ hP₁.synced (hP.absent_of_head hp) hreg he
      · exact h.apart (ha.trans (handle_channel_apart hI₁ hid he))
  · rename_i hp
    obtain rfl := Except.ok.inj he
    exact h.apart (swapTasks_apart (by rw [hp]; rfl))
  · rename_i task tasks hp
    exact execute_tracked h hI hP hp he
  · rename_i hp
    obtain rfl := Except.ok.inj he
    exact h.apart (setPhase_apart (by rw [hp]; rfl) (fun ready _ heq => absurd heq (by simp)))

/-- **Every step of the server is a few steps of each connection alone.** -/
theorem step_tracked {lb : Label} (h : Tracked s id) (hI : Inv cfg s none) (hP : Polled s none)
    (he : s.step lb = .ok s') : Tracked s' id := by
  cases lb with
  | loop l k => exact loopStep_tracked h hI hP he
  | send t i arg w =>
    simp only [step] at he
    split at he
    · obtain rfl := Except.ok.inj he
      exact h
    · rename_i c hc
      by_cases hid : i = id
      · subst hid
        exact h.follows hc fun t hs => send_follows hs hP.synced he
      · exact h.apart (invoke_apart hid (fun hr => not_closing_of_routine (send_routine hr) id) he)
  | shutdown t i =>
    simp only [step] at he
    split at he
    · obtain rfl := Except.ok.inj he
      exact h
    · rename_i c hc
      by_cases hid : i = id
      · subst hid
        exact h.follows hc fun t hs => shutdown_follows hs hP.synced he
      · exact h.apart (invoke_apart hid (fun hr => not_closing_of_routine (shutdown_routine hr) id) he)
  | store m =>
    obtain rfl := Except.ok.inj he
    refine ⟨h.unseen, fun c hc => ?_⟩
    obtain ⟨t, hr, hs⟩ := h.known c hc
    refine ⟨{ t with memory := m }, (leads_step (.store m) rfl rfl).alone hr, ?_⟩
    exact ⟨hs.here, hs.conn, rfl, hs.taskQueue, hs.inFlight, hs.effects, hs.synced, hs.kernel, hs.ready⟩

theorem reachable_tracked (h : Reachable cfg s) (id : Nat) : Tracked s id := by
  obtain ⟨labels, hr⟩ := h
  have hstart : Tracked (start cfg) id := ⟨fun _ => rfl, fun _ hc => absurd hc (by simp [start])⟩
  refine (run_preserves (I := fun s => Inv cfg s none ∧ Polled s none ∧ Tracked s id) ?_
    ⟨start_inv cfg, start_polled cfg, hstart⟩ hr).2.2
  rintro s s' lb ⟨hI, hP, ht⟩ he
  exact ⟨(step_inv hI he).1, step_polled hP hI he, step_tracked ht hI hP he⟩

def oneWorker : Config where
  serverName := "echo"
  connectionCallback := true
  messageCallback := true
  writeCompleteCallback := false
  highWatermarkCallback := false
  highWaterMark := 0
  threadNum := 1

/-- The loop has nothing to ask the kernel. -/
def quietTurn (l : LoopId) : Label := .loop l ⟨[], none, none, 0⟩

/-- Two connections come to one worker and are established. Another thread sends on the first and
shuts the second down; then the second one's peer closes and the first one's sends. -/
def twoOnOneLoop : List Label :=
  [.loop 0 ⟨[.acceptor], none, none, 0⟩, .loop 0 ⟨[], some 7, none, 0⟩, quietTurn 0, quietTurn 0,
    .loop 0 ⟨[.acceptor], none, none, 0⟩, .loop 0 ⟨[], some 8, none, 0⟩,
    quietTurn 1, quietTurn 1, quietTurn 1, quietTurn 1, quietTurn 1,
    .send (.user 0) 0 (.string [65]) 0, .shutdown (.user 0) 1,
    .loop 1 ⟨[.fd 8 .read, .fd 7 .read], none, none, 0⟩, .loop 1 ⟨[], none, some [], 0⟩,
    .loop 1 ⟨[], none, some [66], 0⟩]

/-- While `shutdownWrite` is not called, the socket is open in both directions. -/
def OpenSocket (t : Sys) : Prop :=
  .shutdownWrite ∉ t.effects → t.conn.socket.readOpen = true ∧ t.conn.socket.writeOpen = true

theorem OpenSocket.absorb (h : OpenSocket t) (hs : c.socket = t.conn.socket) :
    OpenSocket (t.absorb c es) := by
  unfold OpenSocket
  rw [Sys.effects_absorb, List.mem_append, not_or]
  rintro ⟨hnot, -⟩
  rw [show (t.absorb c es).conn.socket = t.conn.socket from hs]
  exact h hnot

theorem step_openSocket {t t' : Sys} {x : TcpConnection.Label} (h : OpenSocket t)
    (he : t.step x = .ok t') : OpenSocket t' := by
  refine Sys.step_rule (I := OpenSocket) ?_ ?_ h he
  · intro t t' h ht _ heff
    unfold OpenSocket
    rw [ht.socket, heff]
    exact h
  · intro t c es h hcall
    cases hcall with
    | connectionEstablished hr =>
      obtain ⟨-, -, rfl, -⟩ := TcpConnection.connectionEstablished_inv hr
      exact h.absorb rfl
    | shutdownInLoop hr =>
      obtain ⟨-, ⟨-, rfl, -⟩ | ⟨-, -, rfl, -⟩ | ⟨-, -, rfl, rfl⟩⟩ :=
        TcpConnection.shutdownInLoop_inv hr
      · exact h.absorb rfl
      · exact h.absorb rfl
      · intro hnot
        exact absurd (by simp) hnot
    | connectionDestroyed hr => exact h.absorb (TcpConnection.connectionDestroyed_calm hr).socket
    | sendInLoop _ _ _ _ hr => exact h.absorb (TcpConnection.sendArgInLoop_calm hr).socket
    | handler _ hr => exact h.absorb (TcpConnection.runHandler_calm hr).socket

theorem Alone.socket_open (h : Alone t) : .shutdownWrite ∉ t.effects ∧ t.conn.socket.readOpen = true ∧
    t.conn.socket.writeOpen = true := by
  obtain ⟨u, loop, name, fd, labels, hserved, hrun⟩ := h
  have hdirect : .shutdownInLoop ∉ labels := by
    intro hmem
    exact absurd (List.all_eq_true.mp hserved _ hmem) (by simp [served])
  have hnot := Sys.shutdown_closes_nothing hdirect hrun
  have hstart : OpenSocket (Sys.start u loop name fd) := fun _ => ⟨rfl, rfl⟩
  exact ⟨hnot, run_preserves (I := OpenSocket) step_openSocket hstart hrun hnot⟩

/-- **A server never half-closes a connection.** However its users call `shutdown`, on any thread, no
connection's socket is ever shut down: in every reachable state all are open in both directions. -/
theorem never_half_closed (h : Reachable cfg s) :
    (∀ id, .effect id .shutdownWrite ∉ s.log) ∧
      ∀ id c, s.conns id = some c → c.socket.readOpen = true ∧ c.socket.writeOpen = true := by
  constructor
  · intro id hmem
    have hours : .shutdownWrite ∈ effectsOf id s.log :=
      List.mem_filterMap.mpr ⟨_, hmem, if_pos ⟨rfl, rfl⟩⟩
    have htracked := reachable_tracked h id
    cases hc : s.conns id with
    | none =>
      rw [htracked.unseen hc] at hours
      exact absurd hours List.not_mem_nil
    | some c =>
      obtain ⟨t, ht, hs⟩ := htracked.known c hc
      rw [← hs.effects] at hours
      exact ht.socket_open.1 (List.mem_filter.mp hours).1
  · intro id c hc
    obtain ⟨t, ht, hs⟩ := (reachable_tracked h id).known c hc
    obtain rfl := hs.conn
    exact ht.socket_open.2

theorem never_half_closed_twoOnOneLoop :
    ∃ s, run step (start oneWorker) twoOnOneLoop = .ok s ∧ .shutdown (.user 0) 1 ∈ twoOnOneLoop ∧
      .effect 1 .shutdownWrite ∉ s.log := by
  obtain ⟨s, hrun, -⟩ : ∃ s, run step (start oneWorker) twoOnOneLoop = .ok s ∧ s.accepted = 2 := by
    decide +kernel
  exact ⟨s, hrun, by simp [twoOnOneLoop], (never_half_closed ⟨twoOnOneLoop, hrun⟩).1 1⟩

end World

end HyperMuduo.Net.TcpServer
