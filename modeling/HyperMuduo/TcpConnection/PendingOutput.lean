import HyperMuduo.Codec.Encoding
import HyperMuduo.TcpConnection.Deregistration

/-!
# Pending output and the write interest

Bytes wait in `send_buffer_` until the poller reports that the socket is writable, so the channel has
to be registered for write events exactly while there are any. `sendInLoop` and `handleWritable` see to
it. `ProtobufHandler::Send` encodes into `sendBuffer()` and does not: what it puts into an empty buffer
nobody watches, and `sendInLoop` no longer writes directly since the buffer is not empty.

The system is the one of `Sys`, with the output side of the connection only: the `send` overloads and
`shutdown` on the loop thread and on others, the queued tasks, `ProtobufHandler::Send`, and
`handleWritable`, called as if the poller reported every time it may.

**`pending_watched_iff`**: pending output is watched in every state of a run exactly when every message
that `ProtobufHandler::Send` encodes finds the interest raised.
-/

namespace HyperMuduo.Net.TcpConnection

open HyperMuduo.Lib HyperMuduo.Net.Buffer HyperMuduo.Net.Codec

variable {M : Type}

/-- A string and a byte range fit in memory, and a `Buffer` is one the class can produce. -/
def SendArg.Valid : SendArg → Prop
  | .string msg => msg.length ≤ maxSize
  | .buffer buf => Buffer.Usable buf
  | .pointer _ len => len ≤ maxSize

namespace Sys

/-- A step of the output side. -/
inductive OutputAct (M : Type) where
  /-- Calls on the loop thread. -/
  | send (arg : SendArg) (valid : arg.Valid) (w : Int)
  | shutdown
  | handleWritable (w : Int)
  /-- Calls on another thread, up to the test of `state_`, and their next steps. -/
  | sendCheck (arg : SendArg) (valid : arg.Valid)
  | shutdownCheck
  | advance (i : Nat)
  /-- The loop executes the task at the front of the queue. -/
  | runTask (w : Int)
  /-- A thread writes its memory. -/
  | store (m : Memory)
  /-- `ProtobufHandler::Send`. -/
  | protobufSend (msg : M)

/-- `ProtobufHandler::Send`: `Encode` into `sendBuffer()`. -/
def protobufSend (P : Protobuf M) (s : Sys) (msg : M) : Except Fault Sys := do
  let sendBuffer ← encode P msg s.conn.sendBuffer
  return { s with conn := { s.conn with sendBuffer := sendBuffer } }

def outputStep (P : Protobuf M) (s : Sys) : OutputAct M → Except Fault Sys
  | .send arg _ w => s.step (.send arg w)
  | .shutdown => s.step .shutdown
  | .handleWritable w => s.invoke (s.conn.handleWritable s.thread w)
  | .sendCheck arg _ => s.step (.sendCheck arg)
  | .shutdownCheck => s.step .shutdownCheck
  | .advance i => s.step (.advance i)
  | .runTask w => s.step (.runTask w)
  | .store m => s.step (.store m)
  | .protobufSend msg => s.protobufSend P msg

/-- The poller watches the descriptor for write events. -/
def watchesWrite (s : Sys) : Bool :=
  match s.poller.kernel s.conn.channel.fd with
  | some (_, events) => events.epollout
  | none => false

/-- While the connection is up, pending output is watched, and nothing else is. -/
def PendingWatched (s : Sys) : Prop :=
  s.conn.state = .connected ∨ s.conn.state = .disconnecting →
    (s.conn.sendBuffer.readable ≠ [] ↔ s.watchesWrite = true)

instance (s : Sys) : Decidable (PendingWatched s) := inferInstanceAs (Decidable (_ → (_ ↔ _)))

/-- The condition on a step: a message is encoded only while the write interest is raised, unless
nothing comes of it. -/
def SendsWatched (P : Protobuf M) (s : Sys) : OutputAct M → Prop
  | .protobufSend msg =>
    s.conn.channel.isWriting = true ∨
      P.serializeToArray msg (toInt32 (P.byteSizeLong msg)) = none ∨ room P msg = 0
  | _ => True

instance (P : Protobuf M) (s : Sys) : ∀ a : OutputAct M, Decidable (SendsWatched P s a)
  | .protobufSend _ => inferInstanceAs (Decidable (_ ∨ _ ∨ _))
  | .send _ _ _ | .shutdown | .handleWritable _ | .sendCheck _ _ | .shutdownCheck | .advance _
  | .runTask _ | .store _ => isTrue trivial

end Sys

/-! ## The member functions -/

variable {c c' : TcpConnection} {t : ThreadId} {es : List Effect} {w : Int}

/-- The effects leave the interest as it was, or end with the one that is registered. -/
def Registers (events events' : PollEvents) (es : List Effect) : Prop :=
  events' = events ∧ es.any Effect.touchesPoller = false ∨
    ∃ before after, es = before ++ .updateChannel events' :: after ∧
      before.any Effect.touchesPoller = false ∧ after.any Effect.touchesPoller = false

/-- The poller has the interest `events` for `fd`. -/
def HasInterest (ep : Epoller Unit) (fd : Int) (events : PollEvents) : Prop :=
  ep.Synced fd ∧ ep.kernel fd = some ((), pollToEpollEvents events)

theorem Registers.hasInterest {events events' : PollEvents} {fd : Int} {ep : Epoller Unit}
    (h : Registers events events' es) (hep : HasInterest ep fd events) :
    HasInterest (es.foldl (fun ep e => e.onPoller fd ep) ep) fd events' := by
  refine ⟨foldl_onPoller_synced hep.1 es, ?_⟩
  rcases h with ⟨rfl, hquiet⟩ | ⟨before, after, rfl, hbefore, hafter⟩
  · rw [foldl_onPoller_quiet hquiet]
    exact hep.2
  · rw [List.foldl_append, foldl_onPoller_quiet hbefore, List.foldl_cons,
      foldl_onPoller_quiet hafter]
    simp only [Effect.onPoller]
    rw [Epoller.updateChannel_of_synced hep.1]
    exact Function.update_self _ _ _

theorem highWaterTasks_poller (c : TcpConnection) :
    c.highWaterTasks.any Effect.touchesPoller = false := by
  unfold highWaterTasks
  split <;> rfl

/-- Raising the interest, between effects that do not touch the poller. -/
theorem raiseWriteInterest_registers {before after : List Effect}
    (hbefore : before.any Effect.touchesPoller = false)
    (hafter : after.any Effect.touchesPoller = false) (c : TcpConnection) :
    c.raiseWriteInterest.1.channel.isWriting = true ∧
      Registers c.channel.events c.raiseWriteInterest.1.channel.events
        (before ++ c.raiseWriteInterest.2 ++ after) := by
  unfold raiseWriteInterest
  split
  · rename_i hw
    refine ⟨hw, Or.inl ⟨rfl, ?_⟩⟩
    rw [List.append_nil, List.any_append, hbefore, hafter]
    rfl
  · refine ⟨?_, Or.inr ⟨before, after, ?_, hbefore, hafter⟩⟩
    · simp [Channel.isWriting, Channel.listenTillWritable, PollEvents.union, PollEvents.write]
    · rw [List.append_assoc]
      rfl

/-- The backlog is there exactly while the interest is raised. -/
structure Coupled (c : TcpConnection) : Prop where
  usable : Usable c.sendBuffer
  pending : c.sendBuffer.readable ≠ [] ↔ c.channel.isWriting = true

theorem sendInLoop_coupled {msg : List Byte} (h : Coupled c) (hlen : msg.length ≤ maxSize)
    (he : c.sendInLoop t msg w = .ok (c', es)) :
    Coupled c' ∧ Registers c.channel.events c'.channel.events es := by
  obtain ⟨-, ⟨-, rfl, rfl⟩ | ⟨hlt, sb, happ, rfl, rfl⟩⟩ := sendInLoop_inv he
  · exact ⟨h, Or.inl ⟨rfl, directWrite_poller _ _ _⟩⟩
  · have hdrop : (msg.drop (c.directlyWritten w)).length = msg.length - c.directlyWritten w :=
      List.length_drop
    obtain ⟨hus, hread, -⟩ := append_usable h.usable (by omega) happ
    obtain ⟨hw, hreg⟩ := raiseWriteInterest_registers (directWrite_poller c msg w)
      (highWaterTasks_poller { c with sendBuffer := sb }.raiseWriteInterest.1)
      { c with sendBuffer := sb }
    refine ⟨⟨?_, ?_⟩, hreg⟩
    · rw [raiseWriteInterest_sendBuffer]
      exact hus
    · rw [raiseWriteInterest_sendBuffer]
      refine ⟨fun _ => hw, fun _ hnil => ?_⟩
      have hlen' := congrArg List.length (hread.symm.trans hnil)
      rw [List.length_append, hdrop, List.length_nil] at hlen'
      omega

theorem directBufferWrite_poller {buf buf₁ : Buffer} {written : List Effect}
    (h : c.directBufferWrite buf w = .ok (buf₁, written)) :
    written.any Effect.touchesPoller = false := by
  rcases directBufferWrite_effects h with rfl | ⟨bytes, rfl⟩ <;> rfl

theorem sendBufferInLoop_coupled {buf buf' : Buffer} (h : Coupled c) (hb : Usable buf)
    (he : c.sendBufferInLoop t buf w = .ok (c', buf', es)) :
    Coupled c' ∧ Registers c.channel.events c'.channel.events es := by
  obtain ⟨-, buf₁, written, hdir, ⟨-, rfl, -, rfl⟩ | ⟨hpos, sb, htake, rfl, rfl⟩⟩ :=
    sendBufferInLoop_inv he
  · exact ⟨h, Or.inl ⟨rfl, directBufferWrite_poller hdir⟩⟩
  · obtain ⟨x, y, hdir', -, hus₁, -⟩ := directBufferWrite_ok hb c w
    obtain ⟨rfl, rfl⟩ := Prod.mk.inj (Except.ok.inj (hdir.symm.trans hdir'))
    obtain ⟨hus, hread, -⟩ := takeOver_ok h.usable hus₁ htake
    have hbefore : (written ++ { c with sendBuffer := sb }.highWaterTasks).any
        Effect.touchesPoller = false := by
      rw [List.any_append, directBufferWrite_poller hdir, highWaterTasks_poller]
      rfl
    have hafter : ([] : List Effect).any Effect.touchesPoller = false := rfl
    obtain ⟨hw, hreg⟩ := raiseWriteInterest_registers hbefore hafter { c with sendBuffer := sb }
    rw [List.append_nil] at hreg
    refine ⟨⟨?_, ?_⟩, hreg⟩
    · rw [raiseWriteInterest_sendBuffer]
      exact hus
    · rw [raiseWriteInterest_sendBuffer]
      refine ⟨fun _ => hw, fun _ hnil => ?_⟩
      have hlen := congrArg List.length (hread.symm.trans hnil)
      rw [List.length_append, ← hus₁.readableBytes_eq_length, List.length_nil] at hlen
      omega

theorem sendArgInLoop_coupled {m : Memory} {arg : SendArg} (h : Coupled c) (harg : arg.Valid)
    (he : c.sendArgInLoop t m arg w = .ok (c', es)) :
    Coupled c' ∧ Registers c.channel.events c'.channel.events es := by
  cases arg with
  | string msg => exact sendInLoop_coupled h harg he
  | pointer addr len =>
    exact sendInLoop_coupled h (by rw [Memory.length_read]; exact harg) he
  | buffer buf =>
    obtain ⟨buf', hbuf⟩ := sendArgInLoop_buffer_inv he
    exact sendBufferInLoop_coupled h harg hbuf

theorem handleWritable_coupled (h : Coupled c) (he : c.handleWritable t w = .ok (c', es)) :
    Coupled c' ∧ Registers c.channel.events c'.channel.events es := by
  obtain ⟨hus, -⟩ := handleWritable_bytes h.usable he
  obtain ⟨-, ⟨rfl, rfl⟩ | ⟨hw, -, offered, -, ⟨hpos, rfl, rfl⟩ | ⟨hz, rfl, rfl⟩⟩⟩ :=
    handleWritable_inv he
  · exact ⟨h, Or.inl ⟨rfl, rfl⟩⟩
  · refine ⟨⟨hus, fun _ => hw, fun _ hnil => ?_⟩, Or.inl ⟨rfl, rfl⟩⟩
    rw [hus.readableBytes_eq_length, hnil] at hpos
    exact absurd hpos (by simp)
  · have hnone : (c.sendBuffer.retrieve w.toNat).readable = [] := by
      rw [hus.readableBytes_eq_length] at hz
      exact List.length_eq_zero_iff.mp hz
    refine ⟨⟨hus, ?_⟩, Or.inr ⟨[.write (offered.take w.toNat)], writeCompleteTasks _, rfl, rfl,
      writeCompleteTasks_poller _⟩⟩
    simp [hnone, Channel.isWriting, Channel.ignoreWritable, PollEvents.diff, PollEvents.write]

theorem shutdownInLoop_coupled (h : Coupled c) (he : c.shutdownInLoop t = .ok (c', es)) :
    Coupled c' ∧ Registers c.channel.events c'.channel.events es := by
  obtain ⟨-, ⟨-, rfl, rfl⟩ | ⟨-, -, rfl, rfl⟩ | ⟨-, -, rfl, rfl⟩⟩ := shutdownInLoop_inv he
  · exact ⟨h, Or.inl ⟨rfl, rfl⟩⟩
  · exact ⟨⟨h.usable, h.pending⟩, Or.inl ⟨rfl, rfl⟩⟩
  · exact ⟨⟨h.usable, h.pending⟩, Or.inl ⟨rfl, rfl⟩⟩

/-- A call of the output side that returned. -/
structure OutputCallOk (c c' : TcpConnection) (es : List Effect) : Prop where
  coupled : Coupled c'
  registers : Registers c.channel.events c'.channel.events es
  wiring : c'.wiring = c.wiring
  up : c'.state = c.state ∨ c'.state = .disconnecting
  queued : ∀ task ∈ es.flatMap Effect.queued,
    task = .writeCompleteCallback ∨ task = .highWaterCallback

theorem sendArgInLoop_callOk {m : Memory} {arg : SendArg} (h : Coupled c) (harg : arg.Valid)
    (he : c.sendArgInLoop t m arg w = .ok (c', es)) : OutputCallOk c c' es := by
  obtain ⟨hc, hr⟩ := sendArgInLoop_coupled h harg he
  obtain ⟨hwiring, hstate, -⟩ := sendArgInLoop_wiring he
  exact ⟨hc, hr, hwiring, Or.inl hstate, queued_of_ordinary (sendArgInLoop_ordinary he)⟩

theorem handleWritable_callOk (h : Coupled c) (he : c.handleWritable t w = .ok (c', es)) :
    OutputCallOk c c' es := by
  obtain ⟨hc, hr⟩ := handleWritable_coupled h he
  refine ⟨hc, hr, handleWritable_wiring he, Or.inl ?_,
    queued_of_ordinary (handleWritable_ordinary he)⟩
  obtain ⟨-, ⟨rfl, -⟩ | ⟨-, -, offered, -, ⟨-, rfl, -⟩ | ⟨-, rfl, -⟩⟩⟩ := handleWritable_inv he <;>
    rfl

theorem shutdownInLoop_callOk (h : Coupled c) (he : c.shutdownInLoop t = .ok (c', es)) :
    OutputCallOk c c' es := by
  obtain ⟨hc, hr⟩ := shutdownInLoop_coupled h he
  refine ⟨hc, hr, shutdownInLoop_wiring he, ?_, ?_⟩
  · obtain ⟨-, ⟨-, rfl, -⟩ | ⟨-, -, rfl, -⟩ | ⟨-, -, rfl, -⟩⟩ := shutdownInLoop_inv he
    · exact Or.inl rfl
    · exact Or.inr rfl
    · exact Or.inr rfl
  · obtain ⟨-, ⟨-, -, rfl⟩ | ⟨-, -, -, rfl⟩ | ⟨-, -, -, rfl⟩⟩ := shutdownInLoop_inv he <;> simp [Effect.queued]

/-! ## Runs -/

namespace Sys

variable {P : Protobuf M} {s s' : Sys} {a : OutputAct M}

/-- A task of the output side. -/
structure OutputTask (task : Task) : Prop where
  not_established : task ≠ .connectionEstablished
  not_destroyed : task ≠ .connectionDestroyed
  valid : ∀ arg, Task.sends task = some arg → arg.Valid

/-- The invariant: the connection is up, its backlog and its interest go together, and the poller has
the interest. -/
structure Watching (s : Sys) : Prop where
  up : s.conn.state = .connected ∨ s.conn.state = .disconnecting
  coupled : Coupled s.conn
  interest : HasInterest s.poller s.conn.channel.fd s.conn.channel.events
  tasks : ∀ task ∈ s.taskQueue, OutputTask task
  flights : ∀ arg, .sendPush arg ∈ s.inFlight → arg.Valid

theorem outputTask_of_arg {arg : SendArg} (h : arg.Valid) : OutputTask arg.task := by
  cases arg <;> refine ⟨by simp [SendArg.task], by simp [SendArg.task], ?_⟩ <;>
    · intro arg' harg
      obtain rfl := Option.some.inj harg
      exact h

theorem outputTask_of_callback {task : Task}
    (h : task = .writeCompleteCallback ∨ task = .highWaterCallback) : OutputTask task := by
  rcases h with rfl | rfl <;> exact ⟨by simp, by simp, fun arg harg => absurd harg (by simp [Task.sends])⟩

theorem outputTask_shutdownInLoop : OutputTask .shutdownInLoop :=
  ⟨by simp, by simp, fun arg harg => absurd harg (by simp [Task.sends])⟩

/-- In such a state the poller watches for write events exactly while the interest is raised. -/
theorem Watching.watchesWrite (h : Watching s) : s.watchesWrite = s.conn.channel.isWriting := by
  unfold Sys.watchesWrite
  rw [h.interest.2]
  rfl

theorem Watching.pendingWatched (h : Watching s) : PendingWatched s := by
  intro _
  rw [h.watchesWrite]
  exact h.coupled.pending

theorem Watching.absorb (h : Watching s) {c : TcpConnection} {es : List Effect}
    (hc : OutputCallOk s.conn c es) : Watching (s.absorb c es) := by
  refine ⟨?_, hc.coupled, ?_, ?_, h.flights⟩
  · rcases hc.up with hsame | hdown
    · simp only [Sys.absorb, hsame]
      exact h.up
    · exact Or.inr hdown
  · have hfd := wiring_fd hc.wiring
    simp only [Sys.absorb, hfd]
    exact hc.registers.hasInterest h.interest
  · intro task hmem
    rcases List.mem_append.mp hmem with hold | hnew
    · exact h.tasks task hold
    · exact outputTask_of_callback (hc.queued task hnew)

theorem Watching.record (h : Watching s) (e : Entry) : Watching (s.record e) :=
  ⟨h.up, h.coupled, h.interest, h.tasks, h.flights⟩

theorem Watching.invoke (h : Watching s) {r : Result} (he : s.invoke r = .ok s')
    (hr : ∀ c es, r = .ok (c, es) → OutputCallOk s.conn c es) : Watching s' := by
  obtain ⟨c, es, hok, rfl⟩ := invoke_inv he
  exact h.absorb (hr c es hok)

theorem Watching.execute (h : Watching s) {task : Task} (htask : OutputTask task) {w : Int}
    (he : s.execute w task = .ok s') : Watching s' := by
  cases task with
  | connectionEstablished => exact absurd rfl htask.not_established
  | connectionDestroyed => exact absurd rfl htask.not_destroyed
  | shutdownInLoop => exact h.invoke he fun c es hr => shutdownInLoop_callOk h.coupled hr
  | sendString msg =>
    exact h.invoke he fun c es hr => sendArgInLoop_callOk h.coupled (htask.valid _ rfl) hr
  | sendBuffer buf =>
    exact h.invoke he fun c es hr => sendArgInLoop_callOk h.coupled (htask.valid _ rfl) hr
  | sendPointer addr len =>
    exact h.invoke he fun c es hr => sendArgInLoop_callOk h.coupled (htask.valid _ rfl) hr
  | writeCompleteCallback =>
    obtain rfl := Except.ok.inj he
    exact h
  | highWaterCallback =>
    obtain rfl := Except.ok.inj he
    exact h

theorem Watching.disconnecting (h : Watching s) :
    Watching { s with conn := { s.conn with state := .disconnecting } } :=
  ⟨Or.inr rfl, ⟨h.coupled.usable, h.coupled.pending⟩, h.interest, h.tasks, h.flights⟩

theorem Watching.push (h : Watching s) {task : Task} (htask : OutputTask task) :
    Watching { s with taskQueue := s.taskQueue ++ [task] } := by
  refine ⟨h.up, h.coupled, h.interest, ?_, h.flights⟩
  intro x hmem
  rcases List.mem_append.mp hmem with hold | hnew
  · exact h.tasks x hold
  · obtain rfl := List.mem_singleton.mp hnew
    exact htask

theorem Watching.flight (h : Watching s) (fs : List InFlight)
    (hfs : ∀ arg, .sendPush arg ∈ fs → arg.Valid) : Watching { s with inFlight := fs } :=
  ⟨h.up, h.coupled, h.interest, h.tasks, hfs⟩

theorem Watching.advance (h : Watching s) (i : Nat) : Watching (s.advance i) := by
  have herase : ∀ arg, .sendPush arg ∈ s.inFlight.eraseIdx i → arg.Valid :=
    fun arg hmem => h.flights arg (List.mem_of_mem_eraseIdx hmem)
  unfold Sys.advance
  split
  · rename_i arg hi
    exact (h.push (outputTask_of_arg (h.flights arg (List.mem_of_getElem? hi)))).flight _ herase
  · refine h.disconnecting.flight _ ?_
    intro arg hmem
    rcases List.mem_or_eq_of_mem_set hmem with hold | hnew
    · exact h.flights arg hold
    · exact absurd hnew (by simp)
  · exact (h.push outputTask_shutdownInLoop).flight _ herase
  · exact h

/-- A call that does nothing. -/
theorem callOk_refl {c : TcpConnection} (h : Coupled c) : OutputCallOk c c [] :=
  ⟨h, Or.inl ⟨rfl, rfl⟩, rfl, Or.inl rfl, by simp⟩

theorem Watching.send (h : Watching s) {arg : SendArg} (harg : arg.Valid) {w : Int}
    (he : s.step (.send arg w) = .ok s') : Watching s' := by
  have hrec : Watching (if s.conn.connected then s.record (.sendCalled (s.argBytes arg)) else s) := by
    split
    · exact h.record _
    · exact h
  refine hrec.invoke he fun c es hr => ?_
  rcases send_inv hr with ⟨-, rfl, rfl⟩ | ⟨-, -, hsend⟩ | ⟨-, ht, -⟩
  · exact callOk_refl hrec.coupled
  · exact sendArgInLoop_callOk hrec.coupled harg hsend
  · exact absurd (ht.symm.trans (inLoopThread _)) (by simp)

theorem Watching.shutdown (h : Watching s) (he : s.step .shutdown = .ok s') : Watching s' := by
  have hrec : Watching (if s.conn.connected then
      (s.record .shutdownCalled).record (.ran .shutdownInLoop) else s) := by
    split
    · exact (h.record _).record _
    · exact h
  refine hrec.invoke he fun c es hr => ?_
  rcases shutdown_inv hr with ⟨-, rfl, rfl⟩ | ⟨-, rfl, rfl⟩
  · exact callOk_refl hrec.coupled
  · rw [if_pos (inLoopThread _)]
    exact ⟨⟨hrec.coupled.usable, hrec.coupled.pending⟩, Or.inl ⟨rfl, rfl⟩, rfl, Or.inr rfl, by simp⟩

/-- A message that is encoded onto raised interest, or not at all. -/
theorem Watching.protobufSend (h : Watching s) {msg : M}
    (hsend : SendsWatched P s (.protobufSend msg)) (he : s.protobufSend P msg = .ok s') :
    Watching s' := by
  obtain ⟨sb, henc, he⟩ := bind_ok_inv he
  obtain rfl := Except.ok.inj he
  obtain ⟨hus, hlen⟩ := encode_adds h.coupled.usable henc
  refine ⟨h.up, ⟨hus, ?_⟩, h.interest, h.tasks, h.flights⟩
  have hpos : ∀ l : List Byte, l ≠ [] ↔ 0 < l.length := fun l => List.length_pos_iff.symm
  have hpending := h.coupled.pending
  rw [hpos] at hpending
  change sb.readable ≠ [] ↔ s.conn.channel.isWriting = true
  rw [hpos, ← hpending, hlen]
  rcases hsend with hw | hnone | hzero
  · have := hpending.mpr hw
    omega
  · rw [hnone]
    rfl
  · rw [hzero, ite_self, Nat.add_zero]

theorem step_watching (h : Watching s) (hsend : SendsWatched P s a)
    (he : s.outputStep P a = .ok s') : Watching s' := by
  cases a with
  | send arg valid w => exact h.send valid he
  | shutdown => exact h.shutdown he
  | handleWritable w => exact h.invoke he fun c es hr => handleWritable_callOk h.coupled hr
  | sendCheck arg valid =>
    simp only [outputStep, step] at he
    split at he
    · obtain rfl := Except.ok.inj he
      refine (h.flight (s.inFlight ++ [.sendPush arg]) ?_).record _
      intro arg' hmem
      rcases List.mem_append.mp hmem with hold | hnew
      · exact h.flights arg' hold
      · obtain rfl := InFlight.sendPush.inj (List.mem_singleton.mp hnew)
        exact valid
    · obtain rfl := Except.ok.inj he
      exact h
  | shutdownCheck =>
    simp only [outputStep, step] at he
    split at he
    · obtain rfl := Except.ok.inj he
      refine (h.flight (s.inFlight ++ [.shutdownStore]) ?_).record _
      intro arg hmem
      rcases List.mem_append.mp hmem with hold | hnew
      · exact h.flights arg hold
      · exact absurd (List.mem_singleton.mp hnew) (by simp)
    · obtain rfl := Except.ok.inj he
      exact h
  | advance i =>
    obtain rfl := Except.ok.inj he
    exact h.advance i
  | runTask w =>
    simp only [outputStep, step] at he
    split at he
    · obtain rfl := Except.ok.inj he
      exact h
    · rename_i task rest hq
      have hrest : Watching ({ s with taskQueue := rest }.record (.ran task)) := by
        refine ⟨h.up, h.coupled, h.interest, ?_, h.flights⟩
        intro x hx
        exact h.tasks x (by rw [hq]; exact List.mem_cons_of_mem _ hx)
      exact hrest.execute (h.tasks task (by rw [hq]; exact List.mem_cons_self)) he
  | store m =>
    obtain rfl := Except.ok.inj he
    exact ⟨h.up, h.coupled, h.interest, h.tasks, h.flights⟩
  | protobufSend msg => exact h.protobufSend hsend he

/-- A message that is encoded while the interest is not raised is not watched. -/
theorem sendsWatched_of_pendingWatched (h : Watching s) (he : s.outputStep P a = .ok s')
    (hw : PendingWatched s') : SendsWatched P s a := by
  cases a with
  | protobufSend msg =>
    obtain ⟨sb, henc, he⟩ := bind_ok_inv he
    obtain rfl := Except.ok.inj he
    obtain ⟨-, hlen⟩ := encode_adds h.coupled.usable henc
    by_contra hnot
    simp only [SendsWatched, not_or] at hnot
    obtain ⟨hidle, hser, hroom⟩ := hnot
    have hsome : (P.serializeToArray msg (toInt32 (P.byteSizeLong msg))).isSome = true :=
      Option.isSome_iff_ne_none.mpr hser
    rw [if_pos hsome] at hlen
    have hwatched : sb.readable ≠ [] ↔ s.watchesWrite = true := hw h.up
    rw [h.watchesWrite] at hwatched
    refine hidle (hwatched.mp ?_)
    rw [← List.length_pos_iff]
    omega
  | _ => trivial

theorem established_watching {u : Setup} {loop : LoopId} {name : String} {fd : Int}
    (he : (start u loop name fd).step .connectionEstablished = .ok s) : Watching s := by
  obtain ⟨c, es, hr, rfl⟩ := invoke_inv he
  obtain ⟨-, -, rfl, rfl⟩ := connectionEstablished_inv hr
  have hquiet : ((start u loop name fd).conn.connectionNotice true).any Effect.touchesPoller = false := by
    unfold connectionNotice
    split <;> rfl
  have hsynced : (Epoller.empty : Epoller Unit).Synced fd := rfl
  refine ⟨Or.inl rfl, ⟨fresh_sound.1.roomy.usable, ?_⟩, ⟨foldl_onPoller_synced hsynced _, ?_⟩, ?_, ?_⟩
  · change Buffer.fresh.readable ≠ [] ↔ false = true
    simp [fresh_sound.2]
  · simp only [Sys.absorb, List.foldl_cons, foldl_onPoller_quiet hquiet]
    exact congrFun (congrArg Epoller.kernel (Epoller.updateChannel_of_synced hsynced _)) fd |>.trans
      (Function.update_self _ _ _)
  · intro task hmem
    unfold connectionNotice at hmem
    simp only [Sys.absorb] at hmem
    split at hmem <;> exact absurd hmem (by simp [Effect.queued, start])
  · exact fun arg hmem => absurd hmem List.not_mem_nil

/-- **Pending output is watched exactly when** every message that `ProtobufHandler::Send` encodes
finds the write interest raised. -/
theorem pending_watched_iff {u : Setup} {loop : LoopId} {name : String} {fd : Int} {s₀ t : Sys}
    (hstart : (start u loop name fd).step .connectionEstablished = .ok s₀)
    {acts : List (OutputAct M)} (hrun : run (outputStep P) s₀ acts = .ok t) :
    (∀ before after s, acts = before ++ after → run (outputStep P) s₀ before = .ok s →
      PendingWatched s) ↔ Along (outputStep P) (SendsWatched P) s₀ acts := by
  have h₀ := established_watching hstart
  constructor
  · intro hall
    exact along_of_prefixes (I := Watching) step_watching sendsWatched_of_pendingWatched h₀ hrun hall
  · rintro halong before after s rfl hs
    have hbefore := ((along_append hs).mp halong).1
    exact (run_invariant (I := Watching) step_watching h₀ hbefore hs).pendingWatched

/-- A short write leaves a backlog, a query is encoded behind it, and all of it is drained. -/
def queryOnBacklog : List (OutputAct (Fin 128)) :=
  [.send (.string [1, 2, 3]) (show 3 ≤ maxSize by decide) 1,
    .protobufSend ProtobufHandler.someQuery, .shutdown, .handleWritable 27]

theorem pending_watched_iff_queryOnBacklog :
    ∃ s₀ t, (start plainSetup 0 "server#1" 5).step .connectionEstablished = .ok s₀ ∧
      run (outputStep ProtobufHandler.queryProtobuf) s₀ queryOnBacklog = .ok t ∧
      ∀ before after s, queryOnBacklog = before ++ after →
        run (outputStep ProtobufHandler.queryProtobuf) s₀ before = .ok s → PendingWatched s := by
  obtain ⟨s₀, hstart, halong, t, hrun, -⟩ :
      ∃ s₀, (start plainSetup 0 "server#1" 5).step .connectionEstablished = .ok s₀ ∧
        Along (outputStep ProtobufHandler.queryProtobuf) (SendsWatched ProtobufHandler.queryProtobuf)
          s₀ queryOnBacklog ∧
        ∃ t, run (outputStep ProtobufHandler.queryProtobuf) s₀ queryOnBacklog = .ok t ∧
          t.conn.sendBuffer.readable = [] := by decide +kernel
  exact ⟨s₀, t, hstart, hrun, (pending_watched_iff hstart hrun).mpr halong⟩

/-- A query that is sent on an idle connection waits in `send_buffer_`, and nobody watches. -/
theorem pending_not_watched_queryOnIdle :
    ∃ s₀, (start plainSetup 0 "server#1" 5).step .connectionEstablished = .ok s₀ ∧
      ∃ t, run (outputStep ProtobufHandler.queryProtobuf) s₀ [.protobufSend 5] = .ok t ∧
        ¬ PendingWatched t := by
  decide +kernel

end Sys

end HyperMuduo.Net.TcpConnection
