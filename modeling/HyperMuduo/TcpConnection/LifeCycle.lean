import HyperMuduo.TcpConnection.Send

/-!
# What the other members of `TcpConnection` do

Inversion lemmas for the life cycle (`connectionEstablished`, `connectionDestroyed`, `handleClose`),
for `handleReadable` and for the public `send` and `shutdown`; and what no member function touches.

`Effect.output` are the effects of sending (`sendArgInLoop_output`); `Effect.ordinary` are those of
everyday calls: sends, events and `connectionEstablished` ask for nothing else (`*_ordinary`). A
`PlainCall` neither closes nor destroys the connection; all are (`*_plain`) but `handleClose` and
`connectionDestroyed`.

`wiring` is the part of a connection that is set up before it is used: the loop, the names and
descriptors, the callbacks in the slots of the channel and of the connection. Every member function
leaves it alone (`*_wiring`): in particular the set of callbacks `Channel::handleEvent` can reach is
the one the constructor installed.
-/

namespace HyperMuduo.Net.TcpConnection

open HyperMuduo.Lib HyperMuduo.Net.Buffer

/-- The connection with everything the member functions write reset. -/
def wiring (c : TcpConnection) : TcpConnection :=
  { c with
    state := .connecting
    socket := ⟨c.socket.fd, true, true⟩
    channel := { c.channel with events := .none, returnEvents := .none }
    receiveBuffer := .fresh
    sendBuffer := .fresh }

variable {c c' : TcpConnection} {t : ThreadId} {es : List Effect} {w : Int}

theorem wiring_loop (h : c'.wiring = c.wiring) : c'.loop = c.loop :=
  congrArg (fun c => c.loop) h

theorem wiring_name (h : c'.wiring = c.wiring) : c'.name = c.name :=
  congrArg (fun c => c.name) h

theorem wiring_closeCallback (h : c'.wiring = c.wiring) : c'.closeCallback = c.closeCallback :=
  congrArg (fun c => c.closeCallback) h

theorem wiring_fd (h : c'.wiring = c.wiring) : c'.channel.fd = c.channel.fd :=
  congrArg (fun c => c.channel.fd) h

theorem wiring_socketFd (h : c'.wiring = c.wiring) : c'.socket.fd = c.socket.fd :=
  congrArg (fun c => c.socket.fd) h

theorem wiring_readCallback (h : c'.wiring = c.wiring) :
    c'.channel.readCallback = c.channel.readCallback :=
  congrArg (fun c => c.channel.readCallback) h

theorem wiring_writeCallback (h : c'.wiring = c.wiring) :
    c'.channel.writeCallback = c.channel.writeCallback :=
  congrArg (fun c => c.channel.writeCallback) h

theorem wiring_errorCallback (h : c'.wiring = c.wiring) :
    c'.channel.errorCallback = c.channel.errorCallback :=
  congrArg (fun c => c.channel.errorCallback) h

/-! ## Sending and shutting down -/

theorem sendInLoop_wiring {msg : List Byte} (he : c.sendInLoop t msg w = .ok (c', es)) :
    c'.wiring = c.wiring ∧ c'.state = c.state ∧ c'.socket = c.socket := by
  obtain ⟨-, ⟨-, rfl, -⟩ | ⟨-, sb, -, rfl, -⟩⟩ := sendInLoop_inv he
  · exact ⟨rfl, rfl, rfl⟩
  · rw [raiseWriteInterest_eq]
    exact ⟨rfl, rfl, rfl⟩

theorem sendBufferInLoop_wiring {buf buf' : Buffer}
    (he : c.sendBufferInLoop t buf w = .ok (c', buf', es)) :
    c'.wiring = c.wiring ∧ c'.state = c.state ∧ c'.socket = c.socket := by
  obtain ⟨-, buf₁, written, -, ⟨-, rfl, -⟩ | ⟨-, sb, -, rfl, -⟩⟩ := sendBufferInLoop_inv he
  · exact ⟨rfl, rfl, rfl⟩
  · rw [raiseWriteInterest_eq]
    exact ⟨rfl, rfl, rfl⟩

theorem sendArgInLoop_buffer_inv {m : Memory} {buf : Buffer}
    (he : c.sendArgInLoop t m (.buffer buf) w = .ok (c', es)) :
    ∃ buf', c.sendBufferInLoop t buf w = .ok (c', buf', es) := by
  obtain ⟨⟨c₁, buf', es₁⟩, hbuf, hret⟩ := bind_ok_inv he
  simp only [pure, Except.pure, Except.ok.injEq, Prod.mk.injEq] at hret
  obtain ⟨rfl, rfl⟩ := hret
  exact ⟨buf', hbuf⟩

/-- No `sendInLoop` moves the state, the socket or the wiring. -/
theorem sendArgInLoop_wiring {m : Memory} {arg : SendArg}
    (he : c.sendArgInLoop t m arg w = .ok (c', es)) :
    c'.wiring = c.wiring ∧ c'.state = c.state ∧ c'.socket = c.socket := by
  cases arg with
  | string msg => exact sendInLoop_wiring he
  | pointer addr len => exact sendInLoop_wiring (show c.sendInLoop t (m.read addr len) w = _ from he)
  | buffer buf =>
    obtain ⟨buf', hbuf⟩ := sendArgInLoop_buffer_inv he
    exact sendBufferInLoop_wiring hbuf

theorem send_inv {m : Memory} {arg : SendArg} (he : c.send t m arg w = .ok (c', es)) :
    (c.state ≠ .connected ∧ c' = c ∧ es = []) ∨
      (c.state = .connected ∧ isInLoopThread c.loop t = true ∧
        c.sendArgInLoop t m arg w = .ok (c', es)) ∨
      (c.state = .connected ∧ isInLoopThread c.loop t = false ∧ c' = c ∧
        es = [.queueInLoop arg.task]) := by
  unfold send at he
  split at he
  · rename_i hc
    split at he
    · rename_i ht
      exact Or.inr (Or.inl ⟨hc, ht, he⟩)
    · rename_i ht
      simp only [Except.ok.injEq, Prod.mk.injEq] at he
      obtain ⟨rfl, rfl⟩ := he
      exact Or.inr (Or.inr ⟨hc, by simpa using ht, rfl, rfl⟩)
  · rename_i hc
    simp only [Except.ok.injEq, Prod.mk.injEq] at he
    obtain ⟨rfl, rfl⟩ := he
    exact Or.inl ⟨hc, rfl, rfl⟩

theorem shutdownInLoop_wiring (he : c.shutdownInLoop t = .ok (c', es)) : c'.wiring = c.wiring := by
  obtain ⟨-, ⟨-, rfl, -⟩ | ⟨-, -, rfl, -⟩ | ⟨-, -, rfl, -⟩⟩ := shutdownInLoop_inv he <;> rfl

/-- **`shutdown` leaves `Connected` before `shutdownInLoop` looks at it**, so the call on the loop
thread moves the state and does nothing else. -/
theorem shutdown_inv (he : c.shutdown t = .ok (c', es)) :
    (c.state ≠ .connected ∧ c' = c ∧ es = []) ∨
      (c.state = .connected ∧ c' = { c with state := .disconnecting } ∧
        es = if isInLoopThread c.loop t then [] else [.queueInLoop .shutdownInLoop]) := by
  unfold shutdown at he
  split at he
  · rename_i hc
    right
    simp only at he
    split at he
    · rename_i ht
      have hno := shutdownInLoop_of_ne (c := { c with state := .disconnecting }) ht (by simp)
      rw [hno] at he
      simp only [Except.ok.injEq, Prod.mk.injEq] at he
      obtain ⟨rfl, rfl⟩ := he
      exact ⟨hc, rfl, (if_pos ht).symm⟩
    · rename_i ht
      simp only [Except.ok.injEq, Prod.mk.injEq] at he
      obtain ⟨rfl, rfl⟩ := he
      exact ⟨hc, rfl, (if_neg ht).symm⟩
  · rename_i hc
    left
    simp only [Except.ok.injEq, Prod.mk.injEq] at he
    obtain ⟨rfl, rfl⟩ := he
    exact ⟨hc, rfl, rfl⟩

/-! ## Life cycle -/

/-- The notification of a state change: the connection callback, when it is set. -/
def connectionNotice (c : TcpConnection) (connected : Bool) : List Effect :=
  if c.connectionCallback then [.connectionCallback connected] else []

theorem connectionEstablished_eq (ht : isInLoopThread c.loop t = true)
    (hc : c.state = .connecting) :
    c.connectionEstablished t =
      .ok ({ c with state := .connected, channel := c.channel.listenTillReadable },
        .updateChannel c.channel.listenTillReadable.events :: c.connectionNotice true) := by
  unfold connectionEstablished connectionNotice
  rw [assertInLoopThread, if_pos ht]
  simp only [bind, Except.bind, if_pos hc]
  rfl

theorem connectionEstablished_inv (he : c.connectionEstablished t = .ok (c', es)) :
    isInLoopThread c.loop t = true ∧ c.state = .connecting ∧
      c' = { c with state := .connected, channel := c.channel.listenTillReadable } ∧
      es = .updateChannel c.channel.listenTillReadable.events :: c.connectionNotice true := by
  have ht : isInLoopThread c.loop t = true := by
    unfold connectionEstablished at he
    obtain ⟨_, hin, -⟩ := bind_ok_inv he
    exact assert_inv hin
  have hc : c.state = .connecting := by
    by_contra hc
    unfold connectionEstablished at he
    rw [assertInLoopThread, if_pos ht] at he
    simp only [bind, Except.bind, if_neg hc] at he
    exact absurd he (by simp)
  rw [connectionEstablished_eq ht hc] at he
  simp only [Except.ok.injEq, Prod.mk.injEq] at he
  exact ⟨ht, hc, he.1.symm, he.2.symm⟩

theorem connectionDestroyed_eq (ht : isInLoopThread c.loop t = true) :
    c.connectionDestroyed t =
      .ok ({ c with state := .disconnected, channel := c.channel.ignoreAll },
        .updateChannel .none :: c.connectionNotice false ++ [.removeChannel]) := by
  unfold connectionDestroyed connectionNotice
  rw [assertInLoopThread, if_pos ht]
  rfl

theorem connectionDestroyed_inv (he : c.connectionDestroyed t = .ok (c', es)) :
    isInLoopThread c.loop t = true ∧
      c' = { c with state := .disconnected, channel := c.channel.ignoreAll } ∧
      es = .updateChannel .none :: c.connectionNotice false ++ [.removeChannel] := by
  have ht : isInLoopThread c.loop t = true := by
    unfold connectionDestroyed at he
    obtain ⟨_, hin, -⟩ := bind_ok_inv he
    exact assert_inv hin
  rw [connectionDestroyed_eq ht] at he
  simp only [Except.ok.injEq, Prod.mk.injEq] at he
  exact ⟨ht, he.1.symm, he.2.symm⟩

theorem handleClose_eq (ht : isInLoopThread c.loop t = true)
    (hc : c.state = .connected ∨ c.state = .disconnecting) {cb : CloseCallback}
    (hcb : c.closeCallback = some cb) :
    c.handleClose t =
      .ok ({ c with state := .disconnected, channel := c.channel.ignoreAll },
        [.updateChannel .none, .closeCallback cb]) := by
  unfold handleClose
  rw [assertInLoopThread, if_pos ht]
  simp only [bind, Except.bind, if_pos hc, hcb]
  rfl

theorem handleClose_inv (he : c.handleClose t = .ok (c', es)) :
    isInLoopThread c.loop t = true ∧ (c.state = .connected ∨ c.state = .disconnecting) ∧
      ∃ cb, c.closeCallback = some cb ∧
        c' = { c with state := .disconnected, channel := c.channel.ignoreAll } ∧
        es = [.updateChannel .none, .closeCallback cb] := by
  unfold handleClose at he
  obtain ⟨_, hin, he⟩ := bind_ok_inv he
  refine ⟨assert_inv hin, ?_⟩
  split at he
  · rename_i hc
    simp only at he
    split at he
    · rename_i cb hcb
      simp only [pure, Except.pure, Except.ok.injEq, Prod.mk.injEq] at he
      obtain ⟨rfl, rfl⟩ := he
      exact ⟨hc, cb, hcb, rfl, rfl⟩
    · exact absurd he (by simp)
  · exact absurd he (by simp)

/-! ## Reading -/

/-- `handleReadable` moves the receive buffer; at the end of the stream it closes. -/
theorem handleReadable_inv {r : ReadResult} (he : c.handleReadable t r = .ok (c', es)) :
    isInLoopThread c.loop t = true ∧ ∃ rb, c.receiveBuffer.readFd r = .ok rb ∧
      ((r = some [] ∧ { c with receiveBuffer := rb }.handleClose t = .ok (c', es)) ∨
        (r ≠ some [] ∧ c' = { c with receiveBuffer := rb } ∧
          es = if r.isSome && c.messageCallback then [.messageCallback] else [])) := by
  unfold handleReadable at he
  obtain ⟨_, hin, he⟩ := bind_ok_inv he
  obtain ⟨rb, hrb, he⟩ := bind_ok_inv he
  refine ⟨assert_inv hin, rb, hrb, ?_⟩
  cases r with
  | none =>
    simp only [pure, Except.pure, Except.ok.injEq, Prod.mk.injEq] at he
    obtain ⟨rfl, rfl⟩ := he
    exact Or.inr ⟨by simp, rfl, rfl⟩
  | some data =>
    cases data with
    | nil => exact Or.inl ⟨rfl, he⟩
    | cons b bs =>
      simp only [pure, Except.pure, Except.ok.injEq, Prod.mk.injEq] at he
      obtain ⟨rfl, rfl⟩ := he
      exact Or.inr ⟨by simp, rfl, by simp⟩

theorem handleReadable_wiring {r : ReadResult} (he : c.handleReadable t r = .ok (c', es)) :
    c'.wiring = c.wiring ∧ c'.sendBuffer = c.sendBuffer := by
  obtain ⟨-, rb, -, ⟨-, hclose⟩ | ⟨-, rfl, -⟩⟩ := handleReadable_inv he
  · obtain ⟨-, -, cb, -, rfl, -⟩ := handleClose_inv hclose
    exact ⟨rfl, rfl⟩
  · exact ⟨rfl, rfl⟩

theorem handleWritable_wiring (he : c.handleWritable t w = .ok (c', es)) : c'.wiring = c.wiring := by
  obtain ⟨-, ⟨rfl, -⟩ | ⟨-, -, offered, -, ⟨-, rfl, -⟩ | ⟨-, rfl, -⟩⟩⟩ := handleWritable_inv he <;>
    rfl

theorem runHandler_wiring {r : ReadResult} {x : Handler} (he : c.runHandler t r w x = .ok (c', es)) :
    c'.wiring = c.wiring := by
  cases x with
  | handleReadable => exact (handleReadable_wiring he).1
  | handleWritable => exact handleWritable_wiring he

/-! ## Output and ordinary effects -/

/-- What sending asks for: interest, bytes written, and the tasks of the two output callbacks. -/
def Effect.output : Effect → Bool
  | .updateChannel _ | .write _ => true
  | .queueInLoop .writeCompleteCallback | .queueInLoop .highWaterCallback => true
  | _ => false

/-- Neither a half-close, nor a deregistration, nor a task of the life cycle. -/
def Effect.ordinary : Effect → Bool
  | .connectionCallback _ | .messageCallback | .closeCallback _ => true
  | e => e.output

theorem Effect.ordinary_of_output {e : Effect} (h : e.output = true) : e.ordinary = true := by
  cases e with
  | connectionCallback | messageCallback | closeCallback => rfl
  | _ => exact h

@[simp] theorem raiseWriteInterest_output (c : TcpConnection) :
    c.raiseWriteInterest.2.all Effect.output = true := by
  unfold raiseWriteInterest
  split <;> rfl

@[simp] theorem highWaterTasks_output (c : TcpConnection) :
    c.highWaterTasks.all Effect.output = true := by
  unfold highWaterTasks
  split <;> rfl

@[simp] theorem writeCompleteTasks_output (c : TcpConnection) :
    c.writeCompleteTasks.all Effect.output = true := by
  unfold writeCompleteTasks
  split <;> rfl

@[simp] theorem directWrite_output (c : TcpConnection) (msg : List Byte) (w : Int) :
    (c.directWrite msg w).all Effect.output = true := by
  unfold directWrite
  split
  · split
    · rfl
    · rw [List.all_cons, writeCompleteTasks_output]
      rfl
  · rfl

/-- The direct write of `sendInLoop(Buffer&)` is at most a write. -/
theorem directBufferWrite_effects {buf buf₁ : Buffer} {written : List Effect}
    (h : c.directBufferWrite buf w = .ok (buf₁, written)) :
    written = [] ∨ ∃ bytes, written = [.write bytes] := by
  unfold directBufferWrite at h
  split at h
  · obtain ⟨offered, -, h⟩ := bind_ok_inv h
    split at h
    · simp only [pure, Except.pure, Except.ok.injEq, Prod.mk.injEq] at h
      exact Or.inr ⟨_, h.2.symm⟩
    · simp only [pure, Except.pure, Except.ok.injEq, Prod.mk.injEq] at h
      exact Or.inl h.2.symm
  · simp only [Except.ok.injEq, Prod.mk.injEq] at h
    exact Or.inl h.2.symm

theorem sendInLoop_output {msg : List Byte} (he : c.sendInLoop t msg w = .ok (c', es)) :
    es.all Effect.output = true := by
  obtain ⟨-, ⟨-, -, rfl⟩ | ⟨-, sb, -, -, rfl⟩⟩ := sendInLoop_inv he
  · exact directWrite_output _ _ _
  · simp only [List.all_append, directWrite_output, raiseWriteInterest_output,
      highWaterTasks_output, Bool.and_self]

/-- **Sending asks for output effects only.** -/
theorem sendArgInLoop_output {m : Memory} {arg : SendArg}
    (he : c.sendArgInLoop t m arg w = .ok (c', es)) : es.all Effect.output = true := by
  cases arg with
  | string msg => exact sendInLoop_output he
  | pointer addr len =>
    exact sendInLoop_output (show c.sendInLoop t (m.read addr len) w = _ from he)
  | buffer buf =>
    obtain ⟨buf', hbuf⟩ := sendArgInLoop_buffer_inv he
    obtain ⟨-, buf₁, written, hdir, hcase⟩ := sendBufferInLoop_inv hbuf
    have hwritten : written.all Effect.output = true := by
      rcases directBufferWrite_effects hdir with rfl | ⟨bytes, rfl⟩ <;> rfl
    rcases hcase with ⟨-, -, -, rfl⟩ | ⟨-, sb, -, -, rfl⟩
    · exact hwritten
    · simp only [List.all_append, hwritten, highWaterTasks_output, raiseWriteInterest_output,
        Bool.and_self]

theorem ordinary_of_all_output (h : es.all Effect.output = true) :
    es.all Effect.ordinary = true := by
  rw [List.all_eq_true] at h ⊢
  exact fun e he => Effect.ordinary_of_output (h e he)

theorem sendArgInLoop_ordinary {m : Memory} {arg : SendArg}
    (he : c.sendArgInLoop t m arg w = .ok (c', es)) : es.all Effect.ordinary = true :=
  ordinary_of_all_output (sendArgInLoop_output he)

@[simp] theorem connectionNotice_ordinary (c : TcpConnection) (b : Bool) :
    (c.connectionNotice b).all Effect.ordinary = true := by
  unfold connectionNotice
  split <;> rfl

theorem handleReadable_ordinary {r : ReadResult} (he : c.handleReadable t r = .ok (c', es)) :
    es.all Effect.ordinary = true := by
  obtain ⟨-, rb, -, ⟨-, hclose⟩ | ⟨-, -, rfl⟩⟩ := handleReadable_inv he
  · obtain ⟨-, -, cb, -, -, rfl⟩ := handleClose_inv hclose
    rfl
  · split <;> rfl

theorem handleWritable_ordinary (he : c.handleWritable t w = .ok (c', es)) :
    es.all Effect.ordinary = true := by
  obtain ⟨-, ⟨-, rfl⟩ | ⟨-, -, offered, -, ⟨-, -, rfl⟩ | ⟨-, -, rfl⟩⟩⟩ := handleWritable_inv he
  · rfl
  · rfl
  · rw [List.all_append, ordinary_of_all_output (writeCompleteTasks_output _)]
    rfl

theorem runHandler_ordinary {r : ReadResult} {x : Handler}
    (he : c.runHandler t r w x = .ok (c', es)) : es.all Effect.ordinary = true := by
  cases x with
  | handleReadable => exact handleReadable_ordinary he
  | handleWritable => exact handleWritable_ordinary he

theorem connectionEstablished_ordinary (he : c.connectionEstablished t = .ok (c', es)) :
    es.all Effect.ordinary = true := by
  obtain ⟨-, -, -, rfl⟩ := connectionEstablished_inv he
  rw [List.all_cons, connectionNotice_ordinary]
  rfl

/-- An effect that is not ordinary is not among ordinary ones. -/
theorem not_mem_of_ordinary (h : es.all Effect.ordinary = true) {e : Effect}
    (he : e.ordinary = false) : e ∉ es := by
  intro hmem
  have htrue := List.all_eq_true.mp h e hmem
  rw [he] at htrue
  exact absurd htrue (by simp)

/-! ## Calls that neither close nor destroy -/

/-- Neither the close callback, nor the notification of a disconnect, nor the deregistration, nor the
task for both. -/
def Effect.plain : Effect → Bool
  | .closeCallback _ | .connectionCallback false | .removeChannel => false
  | .queueInLoop .connectionDestroyed => false
  | _ => true

structure PlainCall (c c' : TcpConnection) (es : List Effect) : Prop where
  wiring : c'.wiring = c.wiring
  closed : c'.state = .disconnected ↔ c.state = .disconnected
  effects : ∀ e ∈ es, e.plain = true

theorem PlainCall.not_destroying (h : PlainCall c c' es) :
    Effect.queueInLoop .connectionDestroyed ∉ es := by
  intro hmem
  exact absurd (h.effects _ hmem) (by simp [Effect.plain])

theorem Effect.plain_of_output {e : Effect} (h : e.output = true) : e.plain = true := by
  cases e with
  | updateChannel | write => rfl
  | queueInLoop task => cases task <;> first | rfl | exact absurd h (by simp [Effect.output])
  | _ => exact absurd h (by simp [Effect.output])

theorem plain_of_all_output (h : es.all Effect.output = true) : ∀ e ∈ es, e.plain = true :=
  fun e he => Effect.plain_of_output (List.all_eq_true.mp h e he)

theorem sendArgInLoop_plain {m : Memory} {arg : SendArg}
    (he : c.sendArgInLoop t m arg w = .ok (c', es)) : PlainCall c c' es := by
  obtain ⟨hwiring, hstate, -⟩ := sendArgInLoop_wiring he
  exact ⟨hwiring, by rw [hstate], plain_of_all_output (sendArgInLoop_output he)⟩

theorem send_plain {m : Memory} {arg : SendArg} (he : c.send t m arg w = .ok (c', es)) :
    PlainCall c c' es := by
  obtain ⟨-, rfl, rfl⟩ | ⟨-, -, hsend⟩ | ⟨-, -, rfl, rfl⟩ := send_inv he
  · exact ⟨rfl, Iff.rfl, by simp⟩
  · exact sendArgInLoop_plain hsend
  · refine ⟨rfl, Iff.rfl, ?_⟩
    cases arg <;> simp [SendArg.task, Effect.plain]

theorem shutdownInLoop_plain (he : c.shutdownInLoop t = .ok (c', es)) : PlainCall c c' es := by
  obtain ⟨-, ⟨-, rfl, rfl⟩ | ⟨hc, -, rfl, rfl⟩ | ⟨hc, -, rfl, rfl⟩⟩ := shutdownInLoop_inv he
  · exact ⟨rfl, Iff.rfl, by simp⟩
  · exact ⟨rfl, by simp [hc], by simp⟩
  · exact ⟨rfl, by simp [hc], by simp [Effect.plain]⟩

theorem shutdown_plain (he : c.shutdown t = .ok (c', es)) : PlainCall c c' es := by
  obtain ⟨-, rfl, rfl⟩ | ⟨hc, rfl, rfl⟩ := shutdown_inv he
  · exact ⟨rfl, Iff.rfl, by simp⟩
  · refine ⟨rfl, by simp [hc], ?_⟩
    split <;> simp [Effect.plain]

theorem connectionEstablished_plain (he : c.connectionEstablished t = .ok (c', es)) :
    PlainCall c c' es := by
  obtain ⟨-, hc, rfl, rfl⟩ := connectionEstablished_inv he
  refine ⟨rfl, by simp [hc], ?_⟩
  unfold connectionNotice
  split <;> simp [Effect.plain]

theorem handleReadable_plain {r : ReadResult} (hr : r ≠ some [])
    (he : c.handleReadable t r = .ok (c', es)) : PlainCall c c' es := by
  obtain ⟨-, rb, -, ⟨hend, -⟩ | ⟨-, rfl, rfl⟩⟩ := handleReadable_inv he
  · exact absurd hend hr
  · refine ⟨rfl, Iff.rfl, ?_⟩
    split <;> simp [Effect.plain]

theorem handleWritable_plain (he : c.handleWritable t w = .ok (c', es)) : PlainCall c c' es := by
  obtain ⟨-, ⟨rfl, rfl⟩ | ⟨-, -, offered, -, ⟨-, rfl, rfl⟩ | ⟨-, rfl, rfl⟩⟩⟩ := handleWritable_inv he
  · exact ⟨rfl, Iff.rfl, by simp⟩
  · exact ⟨rfl, Iff.rfl, by simp [Effect.plain]⟩
  · refine ⟨rfl, Iff.rfl, ?_⟩
    intro e he
    rcases List.mem_append.mp he with hmem | hmem
    · simp only [List.mem_cons, List.not_mem_nil, or_false] at hmem
      rcases hmem with rfl | rfl <;> rfl
    · exact plain_of_all_output (writeCompleteTasks_output _) e hmem

end HyperMuduo.Net.TcpConnection
