import HyperMuduo.TcpConnection.Backlog

/-!
# The half-close never happens

`shutdown` stores `Disconnecting` and then has `shutdownInLoop` run on the loop thread, which only
acts in `Connected`; `handleWritable` calls it in `Disconnecting` as well. No state leads back to
`Connected`, so neither call ever reaches `Socket::shutdownWrite` (`shutdown_closes_nothing`). The
one way there is a direct call of `shutdownInLoop` on the loop thread, and `shutdownWrite` is
`::shutdown(fd, SHUT_RDWR)`: it closes the read direction too (`step_closedBoth`).

`Calm` is what every member function but `connectionEstablished` and `shutdownInLoop` satisfies: the
state moves forward if at all, and neither the socket nor a pending half-close is touched.
-/

namespace HyperMuduo.Net.TcpConnection

open HyperMuduo.Lib

/-- The connection has left `Connected` for good. -/
def Past (c : TcpConnection) : Prop := c.state = .disconnecting ∨ c.state = .disconnected

/-- The effects of a half-close: the call itself, and its task. -/
def Effect.isHalfClose : Effect → Bool
  | .shutdownWrite => true
  | .queueInLoop .shutdownInLoop => true
  | _ => false

/-- A call that is no part of a half-close. -/
structure Calm (c c' : TcpConnection) (es : List Effect) : Prop where
  ages : c'.state = c.state ∨ Past c'
  quiet : es.any Effect.isHalfClose = false
  socket : c'.socket = c.socket

variable {c c' : TcpConnection} {t : ThreadId} {es : List Effect} {w : Int}

theorem Calm.past (h : Calm c c' es) (hc : Past c) : Past c' := by
  rcases h.ages with hs | hp
  · unfold Past
    rw [hs]
    exact hc
  · exact hp

theorem Past.not_connected (h : Past c) : c.state ≠ .connecting ∧ c.state ≠ .connected := by
  rcases h with h | h <;> rw [h] <;> decide

theorem Calm.not_connecting (h : Calm c c' es) (hc : c.state ≠ .connecting) :
    c'.state ≠ .connecting := by
  rcases h.ages with hs | hp
  · rw [hs]
    exact hc
  · exact hp.not_connected.1

/-! ## The member functions -/

theorem quiet_of_ordinary (h : es.all Effect.ordinary = true) :
    es.any Effect.isHalfClose = false := by
  rw [List.any_eq_false]
  intro e he
  have hord := List.all_eq_true.mp h e he
  unfold Effect.isHalfClose
  split <;> simp_all [Effect.ordinary, Effect.output]

theorem sendArgInLoop_calm {m : Memory} {arg : SendArg}
    (he : c.sendArgInLoop t m arg w = .ok (c', es)) : Calm c c' es := by
  obtain ⟨-, hstate, hsocket⟩ := sendArgInLoop_wiring he
  exact ⟨Or.inl hstate, quiet_of_ordinary (sendArgInLoop_ordinary he), hsocket⟩

theorem connectionDestroyed_calm (he : c.connectionDestroyed t = .ok (c', es)) : Calm c c' es := by
  obtain ⟨-, rfl, rfl⟩ := connectionDestroyed_inv he
  refine ⟨Or.inr (Or.inr rfl), ?_, rfl⟩
  rw [List.cons_append, List.any_cons, List.any_append,
    quiet_of_ordinary (connectionNotice_ordinary c false)]
  rfl

theorem runHandler_calm {r : ReadResult} {x : Handler} (he : c.runHandler t r w x = .ok (c', es)) :
    Calm c c' es := by
  have hquiet := quiet_of_ordinary (runHandler_ordinary he)
  cases x with
  | handleReadable =>
    obtain ⟨-, rb, -, ⟨-, hclose⟩ | ⟨-, rfl, -⟩⟩ := handleReadable_inv he
    · obtain ⟨-, -, cb, -, rfl, -⟩ := handleClose_inv hclose
      exact ⟨Or.inr (Or.inr rfl), hquiet, rfl⟩
    · exact ⟨Or.inl rfl, hquiet, rfl⟩
  | handleWritable =>
    obtain ⟨-, ⟨rfl, -⟩ | ⟨-, -, offered, -, ⟨-, rfl, -⟩ | ⟨-, rfl, -⟩⟩⟩ := handleWritable_inv he <;>
      exact ⟨Or.inl rfl, hquiet, rfl⟩

theorem quiet_effects (h : es.any Effect.isHalfClose = false) : Effect.shutdownWrite ∉ es := by
  intro hmem
  exact absurd (List.any_eq_false.mp h _ hmem) (by decide)

theorem quiet_queued (h : es.any Effect.isHalfClose = false) :
    Task.shutdownInLoop ∉ es.flatMap Effect.queued := by
  intro hmem
  obtain ⟨e, he, hq⟩ := List.mem_flatMap.mp hmem
  have hne := List.any_eq_false.mp h e he
  cases e with
  | queueInLoop task =>
    obtain rfl : Task.shutdownInLoop = task := by simpa [Effect.queued] using hq
    exact hne rfl
  | _ => exact absurd hq (by simp [Effect.queued])

namespace Sys

variable {s s' : Sys} {l : Label}

/-! ## Without a direct call of `shutdownInLoop` -/

/-- No half-close has happened, and a pending one will find the connection past `Connected`. -/
structure NoHalfClose (s : Sys) : Prop where
  effects : Effect.shutdownWrite ∉ s.effects
  queue : Task.shutdownInLoop ∈ s.taskQueue → Past s.conn
  pushing : InFlight.shutdownPush ∈ s.inFlight → Past s.conn
  storing : InFlight.shutdownStore ∈ s.inFlight → s.conn.state ≠ .connecting

theorem NoHalfClose.record (h : NoHalfClose s) {e : Entry} (he : ∀ e', e ≠ .effect e') :
    NoHalfClose (s.record e) := by
  refine ⟨?_, h.queue, h.pushing, h.storing⟩
  rw [effects_record he]
  exact h.effects

/-- A calm call keeps the invariant. -/
theorem NoHalfClose.absorb (h : NoHalfClose s) {c : TcpConnection} {es : List Effect}
    (hc : Calm s.conn c es) : NoHalfClose (s.absorb c es) := by
  refine ⟨?_, ?_, fun hp => hc.past (h.pushing hp), fun hp => hc.not_connecting (h.storing hp)⟩
  · rw [effects_absorb, List.mem_append]
    rintro (hmem | hmem)
    · exact h.effects hmem
    · exact quiet_effects hc.quiet hmem
  · simp only [Sys.absorb, List.mem_append]
    rintro (hmem | hmem)
    · exact hc.past (h.queue hmem)
    · exact absurd hmem (quiet_queued hc.quiet)

theorem NoHalfClose.established (h : NoHalfClose s)
    (he : s.invoke (s.conn.connectionEstablished s.thread) = .ok s') : NoHalfClose s' := by
  obtain ⟨c, es, hr, rfl⟩ := invoke_inv he
  have hquiet := quiet_of_ordinary (connectionEstablished_ordinary hr)
  obtain ⟨-, hconn, rfl, rfl⟩ := connectionEstablished_inv hr
  have hpast : ¬ Past s.conn := fun hp => hp.not_connected.1 hconn
  refine ⟨?_, ?_, fun hp => absurd (h.pushing hp) hpast, fun hp => absurd hconn (h.storing hp)⟩
  · rw [effects_absorb, List.mem_append]
    rintro (hmem | hmem)
    · exact h.effects hmem
    · exact quiet_effects hquiet hmem
  · simp only [Sys.absorb, List.mem_append]
    rintro (hmem | hmem)
    · exact absurd (h.queue hmem) hpast
    · exact absurd hmem (quiet_queued hquiet)

/-- `shutdownInLoop` finds the connection past `Connected` and does nothing. -/
theorem invoke_shutdownInLoop_past (hp : Past s.conn)
    (he : s.invoke (s.conn.shutdownInLoop s.thread) = .ok s') : s' = s.absorb s.conn [] := by
  obtain ⟨c, es, hr, rfl⟩ := invoke_inv he
  rw [shutdownInLoop_of_ne s.inLoopThread hp.not_connected.2] at hr
  simp only [Except.ok.injEq, Prod.mk.injEq] at hr
  obtain ⟨rfl, rfl⟩ := hr
  rfl

theorem calm_refl (c : TcpConnection) : Calm c c [] := ⟨Or.inl rfl, rfl, rfl⟩

/-- The task at the front of the queue. -/
theorem NoHalfClose.execute (h : NoHalfClose s) {task : Task}
    (htask : task = .shutdownInLoop → Past s.conn) {w : Int} (he : s.execute w task = .ok s') :
    NoHalfClose s' := by
  cases task with
  | connectionEstablished => exact h.established he
  | connectionDestroyed =>
    obtain ⟨c, es, hr, rfl⟩ := invoke_inv he
    exact h.absorb (connectionDestroyed_calm hr)
  | shutdownInLoop =>
    rw [invoke_shutdownInLoop_past (htask rfl) he]
    exact h.absorb (calm_refl _)
  | sendString msg =>
    obtain ⟨c, es, hr, rfl⟩ := invoke_inv he
    exact h.absorb (sendArgInLoop_calm hr)
  | sendBuffer buf =>
    obtain ⟨c, es, hr, rfl⟩ := invoke_inv he
    exact h.absorb (sendArgInLoop_calm hr)
  | sendPointer addr len =>
    obtain ⟨c, es, hr, rfl⟩ := invoke_inv he
    exact h.absorb (sendArgInLoop_calm hr)
  | writeCompleteCallback =>
    obtain rfl := Except.ok.inj he
    exact h
  | highWaterCallback =>
    obtain rfl := Except.ok.inj he
    exact h

theorem NoHalfClose.advance (h : NoHalfClose s) (i : Nat) : NoHalfClose (s.advance i) := by
  unfold Sys.advance
  split
  · rename_i arg hi
    refine ⟨h.effects, ?_, fun hp => h.pushing (List.mem_of_mem_eraseIdx hp),
      fun hp => h.storing (List.mem_of_mem_eraseIdx hp)⟩
    simp only [List.mem_append, List.mem_singleton]
    rintro (hmem | hmem)
    · exact h.queue hmem
    · cases arg <;> exact absurd hmem (by simp [SendArg.task])
  · -- the store itself puts the connection past `Connected`
    exact ⟨h.effects, fun _ => Or.inl rfl, fun _ => Or.inl rfl, fun _ => by simp⟩
  · rename_i hi
    exact ⟨h.effects, fun _ => h.pushing (List.mem_of_getElem? hi),
      fun hp => h.pushing (List.mem_of_mem_eraseIdx hp),
      fun hp => h.storing (List.mem_of_mem_eraseIdx hp)⟩
  · exact h

/-- One step keeps the invariant, unless it is a direct call of `shutdownInLoop`. -/
theorem NoHalfClose.step (h : NoHalfClose s) (hl : l ≠ .shutdownInLoop) (he : s.step l = .ok s') :
    NoHalfClose s' := by
  cases l with
  | connectionEstablished => exact h.established he
  | event revents r w =>
    simp only [Sys.step] at he
    split at he
    · have h₀ : NoHalfClose
          { s with conn := { s.conn with channel := s.conn.channel.setReturnEvents revents } } :=
        ⟨h.effects, h.queue, h.pushing, h.storing⟩
      exact runHandlers_rule (fun hI hr => hI.absorb (runHandler_calm hr)) h₀ he
    · obtain rfl := Except.ok.inj he
      exact h
  | runTask w =>
    simp only [Sys.step] at he
    split at he
    · obtain rfl := Except.ok.inj he
      exact h
    · rename_i task rest hq
      have hrest : NoHalfClose { s with taskQueue := rest } :=
        ⟨h.effects, fun hmem => h.queue (by rw [hq]; exact List.mem_cons_of_mem _ hmem), h.pushing,
          h.storing⟩
      refine NoHalfClose.execute (hrest.record (e := .ran task) (by simp)) ?_ he
      rintro rfl
      exact h.queue (by rw [hq]; exact List.mem_cons_self)
  | send arg w =>
    obtain ⟨c, es, hr, rfl⟩ := invoke_inv he
    generalize hs₀ : (if s.conn.connected then s.record (.sendCalled (s.argBytes arg)) else s) = s₀
      at hr
    have h₀ : NoHalfClose s₀ := by
      rw [← hs₀]
      split
      · exact h.record (by simp)
      · exact h
    rcases send_inv hr with ⟨-, rfl, rfl⟩ | ⟨-, -, hr⟩ | ⟨-, ht, -, -⟩
    · exact h₀.absorb (calm_refl _)
    · exact h₀.absorb (sendArgInLoop_calm hr)
    · exact absurd s₀.inLoopThread (by simp [ht])
  | sendInLoop arg w =>
    obtain ⟨c, es, hr, rfl⟩ := invoke_inv he
    exact h.absorb (sendArgInLoop_calm hr)
  | shutdown =>
    obtain ⟨c, es, hr, rfl⟩ := invoke_inv he
    generalize hs₀ : (if s.conn.connected then
      (s.record .shutdownCalled).record (.ran .shutdownInLoop) else s) = s₀ at hr
    have h₀ : NoHalfClose s₀ := by
      rw [← hs₀]
      split
      · exact (h.record (by simp)).record (by simp)
      · exact h
    rcases shutdown_inv hr with ⟨-, rfl, rfl⟩ | ⟨-, rfl, rfl⟩
    · exact h₀.absorb (calm_refl _)
    · rw [if_pos s₀.inLoopThread]
      exact h₀.absorb ⟨Or.inr (Or.inl rfl), rfl, rfl⟩
  | shutdownInLoop => exact absurd rfl hl
  | useSendBuffer buf =>
    obtain rfl := Except.ok.inj he
    exact ⟨h.effects, h.queue, h.pushing, h.storing⟩
  | sendCheck arg =>
    simp only [Sys.step] at he
    split at he
    · obtain rfl := Except.ok.inj he
      have h₀ : NoHalfClose { s with inFlight := s.inFlight ++ [InFlight.sendPush arg] } :=
        ⟨h.effects, h.queue, fun hp => h.pushing (by simpa using hp),
          fun hp => h.storing (by simpa using hp)⟩
      exact h₀.record (by simp)
    · obtain rfl := Except.ok.inj he
      exact h
  | shutdownCheck =>
    simp only [Sys.step] at he
    split at he
    · rename_i hconn
      obtain rfl := Except.ok.inj he
      have hstate : s.conn.state ≠ .connecting := by
        intro hstate
        simp [connected, hstate] at hconn
      have h₀ : NoHalfClose { s with inFlight := s.inFlight ++ [InFlight.shutdownStore] } :=
        ⟨h.effects, h.queue, fun hp => h.pushing (by simpa using hp), fun _ => hstate⟩
      exact h₀.record (by simp)
    · obtain rfl := Except.ok.inj he
      exact h
  | advance i =>
    obtain rfl := Except.ok.inj he
    exact h.advance i
  | queueDestroyed =>
    obtain rfl := Except.ok.inj he
    exact ⟨h.effects, fun hmem => h.queue (by simpa using hmem), h.pushing, h.storing⟩
  | store m =>
    obtain rfl := Except.ok.inj he
    exact ⟨h.effects, h.queue, h.pushing, h.storing⟩

theorem start_noHalfClose (u : Setup) (loop : LoopId) (name : String) (fd : Int) :
    NoHalfClose (start u loop name fd) := by
  refine ⟨?_, ?_, ?_, ?_⟩ <;> intro h <;> exact absurd h List.not_mem_nil

/-- **`shutdown` closes nothing.** In a run without a direct call of `shutdownInLoop`,
`Socket::shutdownWrite` is never called. -/
theorem shutdown_closes_nothing {u : Setup} {loop : LoopId} {name : String} {fd : Int}
    {labels : List Label} (hl : .shutdownInLoop ∉ labels)
    (hr : run step (start u loop name fd) labels = .ok s) : Effect.shutdownWrite ∉ s.effects := by
  have hstart := start_noHalfClose u loop name fd
  suffices h : NoHalfClose s from h.effects
  generalize start u loop name fd = s₀ at hr hstart
  induction labels generalizing s₀ with
  | nil =>
    obtain rfl := Except.ok.inj hr
    exact hstart
  | cons l labels ih =>
    obtain ⟨s₁, hs, hr⟩ := run_cons_inv hr
    rw [List.mem_cons, not_or] at hl
    exact ih hl.2 s₁ hr (hstart.step (Ne.symm hl.1) hs)

/-! ## With one -/

/-- Once `shutdownWrite` was called, the read direction is closed. -/
def ClosedBoth (s : Sys) : Prop :=
  Effect.shutdownWrite ∈ s.effects → s.conn.socket.readOpen = false

theorem ClosedBoth.absorb (h : ClosedBoth s) {c : TcpConnection} {es : List Effect}
    (hq : es.any Effect.isHalfClose = false) (hs : c.socket = s.conn.socket) :
    ClosedBoth (s.absorb c es) := by
  unfold ClosedBoth
  rw [effects_absorb, List.mem_append]
  rintro (hmem | hmem)
  · rw [show (s.absorb c es).conn.socket = s.conn.socket from hs]
    exact h hmem
  · exact absurd hmem (quiet_effects hq)

theorem step_closedBoth (h : ClosedBoth s) (he : s.step l = .ok s') : ClosedBoth s' := by
  refine step_rule (I := ClosedBoth) ?_ ?_ h he
  · intro s s' h ht _ heff
    unfold ClosedBoth
    rw [ht.socket, heff]
    exact h
  · intro s₁ c es h hcall
    cases hcall with
    | connectionEstablished hr =>
      have hquiet := quiet_of_ordinary (connectionEstablished_ordinary hr)
      obtain ⟨-, -, rfl, -⟩ := connectionEstablished_inv hr
      exact h.absorb hquiet rfl
    | shutdownInLoop hr =>
      obtain ⟨-, ⟨-, rfl, rfl⟩ | ⟨-, -, rfl, rfl⟩ | ⟨-, -, rfl, rfl⟩⟩ := shutdownInLoop_inv hr
      · exact h.absorb rfl rfl
      · exact h.absorb rfl rfl
      · exact fun _ => rfl
    | connectionDestroyed hr =>
      have hc := connectionDestroyed_calm hr
      exact h.absorb hc.quiet hc.socket
    | sendInLoop _ _ _ _ hr =>
      have hc := sendArgInLoop_calm hr
      exact h.absorb hc.quiet hc.socket
    | handler _ hr =>
      have hc := runHandler_calm hr
      exact h.absorb hc.quiet hc.socket

/-! ## Graceful shutdown -/

/-- The bytes of the `send` calls that passed their test. -/
def calledBytes (log : List Entry) : List Byte :=
  log.flatMap fun e =>
    match e with
    | .sendCalled bytes => bytes
    | _ => []

/-- The bytes `::write` took. -/
def writtenBytes (log : List Entry) : List Byte :=
  log.flatMap fun e =>
    match e with
    | .effect (.write bytes) => bytes
    | _ => []

/-- `shutdown` was called, its task has run, and nothing is left to write. -/
structure ShutdownSettled (s : Sys) : Prop where
  called : .shutdownCalled ∈ s.log
  ran : .ran .shutdownInLoop ∈ s.log
  drained : s.conn.sendBuffer.readable = []
  idle : s.conn.channel.isWriting = false

instance (s : Sys) : Decidable (ShutdownSettled s) :=
  decidable_of_iff (.shutdownCalled ∈ s.log ∧ .ran .shutdownInLoop ∈ s.log ∧
      s.conn.sendBuffer.readable = [] ∧ s.conn.channel.isWriting = false)
    ⟨fun ⟨h1, h2, h3, h4⟩ => ⟨h1, h2, h3, h4⟩, fun ⟨h1, h2, h3, h4⟩ => ⟨h1, h2, h3, h4⟩⟩

/-- The half-close happened once, after every byte of an earlier `send` was written, and left the
read direction open. -/
structure GracefullyShut (s : Sys) : Prop where
  once : s.effects.count .shutdownWrite = 1
  afterWrites : ∀ before after, s.log = before ++ .effect .shutdownWrite :: after →
    ∀ b, (calledBytes before).count b ≤ (writtenBytes before).count b
  writeClosed : s.conn.socket.writeOpen = false
  readOpen : s.conn.socket.readOpen = true

/-- **No shutdown is graceful.** In every state of every run, settled shutdowns included, the
half-close either did not happen or closed both directions; and unless `shutdownInLoop` was called
directly, it did not happen. -/
theorem shutdown_never_graceful {u : Setup} {loop : LoopId} {name : String} {fd : Int}
    {labels : List Label} (hr : run step (start u loop name fd) labels = .ok s) :
    ¬ GracefullyShut s ∧ (.shutdownInLoop ∉ labels → s.effects.count .shutdownWrite = 0) := by
  refine ⟨?_, fun hl => List.count_eq_zero.mpr (shutdown_closes_nothing hl hr)⟩
  intro hg
  have hstart : ClosedBoth (start u loop name fd) := fun h => absurd h List.not_mem_nil
  have hclosed : ClosedBoth s := run_preserves (I := ClosedBoth) step_closedBoth hstart hr
  have hmem : Effect.shutdownWrite ∈ s.effects := by
    rw [← List.count_pos_iff, hg.once]
    exact Nat.one_pos
  exact absurd (hclosed hmem) (by simp [hg.readOpen])

/-- Establish, send a byte that is written at once, and shut down from another thread. -/
def sendThenShutdown : List Label :=
  [.connectionEstablished, .send (.string [1]) 1, .shutdownCheck, .advance 0, .advance 0, .runTask 0]

theorem sendThenShutdown_settled :
    ∃ s, run step (start plainSetup 0 "server#1" 5) sendThenShutdown = .ok s ∧
      (ShutdownSettled s ∧ s.effects.count .shutdownWrite = 0) := by
  decide +kernel

theorem shutdown_never_graceful_sendThenShutdown :
    ∃ s, run step (start plainSetup 0 "server#1" 5) sendThenShutdown = .ok s ∧
      ShutdownSettled s ∧ ¬ GracefullyShut s := by
  obtain ⟨s, hr, hs, -⟩ := sendThenShutdown_settled
  exact ⟨s, hr, hs, (shutdown_never_graceful hr).1⟩

/-- A shutdown from another thread of a connection with nothing left to write does not half-close
it. -/
theorem shutdown_not_always_graceful :
    ¬ ∀ (u : Setup) (loop : LoopId) (name : String) (fd : Int) (labels : List Label) (s : Sys),
      run step (start u loop name fd) labels = .ok s → ShutdownSettled s → GracefullyShut s := by
  intro hall
  obtain ⟨s, hr, hs, hcount⟩ := sendThenShutdown_settled
  have hone := (hall _ _ _ _ _ s hr hs).once
  rw [hcount] at hone
  exact absurd hone (by decide)

end Sys

end HyperMuduo.Net.TcpConnection
