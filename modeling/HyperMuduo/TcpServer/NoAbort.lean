import HyperMuduo.TcpServer.Polling

/-!
# No step aborts

`std::abort` is called when a function of a loop runs on another thread, when
`connectionEstablished` finds a state other than `Connecting`, and when `handleClose` finds the
connection not open. `step_spares_abort`: from a reachable state no step takes one of these branches.

Tasks wait on the loop of their connection and `connectionEstablished` waits once (`Inv`); a read
condition is only ever brought to an open connection (`Polled`). The buffers can fail, but not that
way.
-/

namespace HyperMuduo.Net

open HyperMuduo.Lib

/-! ## Buffers -/

namespace Buffer

theorem vecRead_spares {β : Type} (v : List β) (off len : Nat) : Spares .abort (vecRead v off len) := by
  unfold vecRead Spares
  split <;> simp

theorem vecWrite_spares {β : Type} (v : List β) (off : Nat) (d : List β) :
    Spares .abort (vecWrite v off d) := by
  unfold vecWrite Spares
  split <;> simp

theorem vecResize_spares {β : Type} (x : β) (v : List β) (n : Nat) :
    Spares .abort (vecResize x v n) := by
  unfold vecResize Spares
  split <;> simp

theorem ensureWritableBytes_spares (b : Buffer) (len : Nat) :
    Spares .abort (b.ensureWritableBytes len) := by
  unfold ensureWritableBytes makeSpace
  split
  · exact spares_ok _
  · simp only
    split
    · refine (vecRead_spares _ _ _).bind fun data _ => ?_
      exact (vecWrite_spares _ _ _).bind fun _ _ => spares_ok _
    · exact (vecResize_spares _ _ _).bind fun _ _ => spares_ok _

theorem writeAt_spares (b : Buffer) (off : Nat) (data : List Byte) :
    Spares .abort (b.writeAt off data) :=
  (vecWrite_spares _ _ _).bind fun _ _ => spares_ok _

theorem append_spares (b : Buffer) (data : List Byte) : Spares .abort (b.append data) := by
  refine (ensureWritableBytes_spares _ _).bind fun b₁ _ => ?_
  exact (writeAt_spares _ _ _).bind fun _ _ => spares_ok _

theorem readFd_spares (b : Buffer) (delivered : Option (List Byte)) :
    Spares .abort (b.readFd delivered) := by
  cases delivered with
  | none => exact spares_ok _
  | some data =>
    refine (writeAt_spares _ _ _).bind fun b₁ _ => ?_
    split
    · exact spares_ok _
    · exact append_spares _ _

end Buffer

/-! ## Member functions of a connection -/

namespace TcpConnection

variable {c : TcpConnection} {t : ThreadId} {w : Int} (ht : isInLoopThread c.loop t = true)
include ht

theorem assert_spares : Spares .abort (assertInLoopThread c.loop t) := by
  unfold assertInLoopThread
  rw [if_pos ht]
  exact spares_ok _

theorem sendInLoop_spares (msg : List Byte) : Spares .abort (c.sendInLoop t msg w) := by
  refine (assert_spares ht).bind fun _ _ => ?_
  split
  · exact (Buffer.append_spares _ _).bind fun _ _ => spares_ok _
  · exact spares_ok _

theorem sendBufferInLoop_spares (buf : Buffer) : Spares .abort (c.sendBufferInLoop t buf w) := by
  refine (assert_spares ht).bind fun _ _ => ?_
  refine Spares.bind ?_ fun r _ => ?_
  · unfold directBufferWrite
    split
    · refine (Buffer.vecRead_spares _ _ _).bind fun offered _ => ?_
      split <;> exact spares_ok _
    · exact spares_ok _
  · simp only
    split
    · refine Spares.bind ?_ fun _ _ => spares_ok _
      unfold takeOver
      split
      · exact spares_ok _
      · refine (Buffer.vecRead_spares _ _ _).bind fun rest _ => ?_
        exact (Buffer.append_spares _ _).bind fun _ _ => spares_ok _
    · exact spares_ok _

theorem sendArgInLoop_spares (m : Memory) (arg : SendArg) :
    Spares .abort (c.sendArgInLoop t m arg w) := by
  cases arg with
  | string msg => exact sendInLoop_spares ht msg
  | pointer addr len => exact sendInLoop_spares ht (m.read addr len)
  | buffer buf => exact (sendBufferInLoop_spares ht buf).bind fun _ _ => spares_ok _

theorem shutdownInLoop_spares : Spares .abort (c.shutdownInLoop t) := by
  refine (assert_spares ht).bind fun _ _ => ?_
  split
  · simp only
    split <;> exact spares_ok _
  · exact spares_ok _

/-- Reading an open connection that has a close callback. -/
theorem handleReadable_spares (ho : Open c) {cb : CloseCallback} (hcb : c.closeCallback = some cb)
    (r : ReadResult) : Spares .abort (c.handleReadable t r) := by
  refine (assert_spares ht).bind fun _ _ => ?_
  refine (Buffer.readFd_spares _ _).bind fun rb _ => ?_
  cases r with
  | none => exact spares_ok _
  | some data =>
    cases data with
    | nil =>
      have hclose := handleClose_eq (c := { c with receiveBuffer := rb }) ht ho hcb
      simp only
      rw [hclose]
      exact spares_ok _
    | cons b bs => exact spares_ok _

end TcpConnection

/-! ## The world -/

namespace TcpServer

open HyperMuduo.Net.TcpConnection (Effect ReadResult Result Open)

namespace World

variable {cfg : Config} {s s' : World} {id : Nat} {c c' : TcpConnection} {t : ThreadId}
  {es : List Effect} {w : Int} {l : LoopId}

theorem removeConnectionInLoop_spares (ht : isInLoopThread baseLoop t = true) (id : Nat) :
    Spares .abort (s.removeConnectionInLoop t id) := by
  unfold removeConnectionInLoop assertInLoopThread
  rw [if_pos ht, ok_bind]
  simp only
  split
  · unfold Spares
    simp
  · exact spares_ok _

/-- An effect is carried out where it may be: on the thread of the loop, or it only queues. -/
theorem perform_spares {e : Effect}
    (h : isInLoopThread c.loop t = true ∨ ∃ task, e = .queueInLoop task) :
    Spares .abort (s.perform t id c e) := by
  rcases h with ht | ⟨task, rfl⟩
  · cases e with
    | updateChannel events => exact (TcpConnection.assert_spares ht).bind fun _ _ => spares_ok _
    | removeChannel => exact (TcpConnection.assert_spares ht).bind fun _ _ => spares_ok _
    | closeCallback cb =>
      cases cb with
      | serverRemoveConnection conn =>
        simp only [perform, removeConnection]
        split
        · rename_i hbase
          exact removeConnectionInLoop_spares hbase conn
        · exact spares_ok _
      | _ => exact spares_ok _
    | _ => exact spares_ok _
  · exact spares_ok _

theorem performAll_spares
    (h : isInLoopThread c.loop t = true ∨ ∀ e ∈ es, ∃ task, e = .queueInLoop task) :
    Spares .abort (performAll t id c s es) := by
  induction es generalizing s with
  | nil => exact spares_ok _
  | cons e es ih =>
    refine Spares.bind (perform_spares ?_) fun s₁ _ => ih ?_
    · exact h.imp (fun ht => ht) fun hall => hall e List.mem_cons_self
    · exact h.imp (fun ht => ht) fun hall e' he' => hall e' (List.mem_cons_of_mem _ he')

/-- A call on the thread of the connection's loop. -/
theorem invoke_spares {r : Result} (ht : isInLoopThread c.loop t = true) (hr : Spares .abort r)
    (hw : ∀ c' es, r = .ok (c', es) → c'.loop = c.loop) : Spares .abort (s.invoke t id r) := by
  refine hr.bind fun a ha => performAll_spares (Or.inl ?_)
  rw [hw a.1 a.2 ha]
  exact ht

theorem sendArgInLoop_invoke_spares (ht : isInLoopThread c.loop t = true) (m : Memory)
    (arg : TcpConnection.SendArg) : Spares .abort (s.invoke t id (c.sendArgInLoop t m arg w)) :=
  invoke_spares ht (TcpConnection.sendArgInLoop_spares ht m arg) fun _ _ hr =>
    TcpConnection.wiring_loop (TcpConnection.sendArgInLoop_wiring hr).1

theorem execute_spares {task : Task} (h : Inv cfg s (some (l, task))) :
    Spares .abort (s.execute (.loop l) w task) := by
  have hpos : 0 < tokens s (some (l, task)) l task := by
    unfold tokens
    rw [if_pos rfl]
    exact Nat.succ_pos _
  obtain ⟨c, hc, hl⟩ := h.home l task hpos
  cases task with
  | removeConnectionInLoop id =>
    obtain rfl : baseLoop = l := hl
    exact removeConnectionInLoop_spares (isInLoopThread_self _) id
  | conn id task =>
    obtain rfl : c.loop = l := hl
    have hlook : s.conns id = some c := hc
    have ht := isInLoopThread_self c.loop
    simp only [execute, hlook]
    cases task with
    | connectionEstablished =>
      obtain ⟨c₀, n, hc₀, hat, hnext⟩ := h.stage rfl
      rw [hc] at hc₀
      obtain rfl := Option.some.inj hc₀
      obtain rfl := nextTask_established hnext
      refine invoke_spares ht ?_ ?_
      · rw [TcpConnection.connectionEstablished_eq ht hat.state]
        exact spares_ok _
      · intro c' es hr
        obtain ⟨-, -, rfl, -⟩ := TcpConnection.connectionEstablished_inv hr
        rfl
    | connectionDestroyed =>
      refine invoke_spares ht ?_ ?_
      · rw [TcpConnection.connectionDestroyed_eq ht]
        exact spares_ok _
      · intro c' es hr
        obtain ⟨-, rfl, -⟩ := TcpConnection.connectionDestroyed_inv hr
        rfl
    | shutdownInLoop =>
      exact invoke_spares ht (TcpConnection.shutdownInLoop_spares ht) fun _ _ hr =>
        TcpConnection.wiring_loop (TcpConnection.shutdownInLoop_wiring hr)
    | sendString msg => exact sendArgInLoop_invoke_spares ht _ _
    | sendBuffer buf => exact sendArgInLoop_invoke_spares ht _ _
    | sendPointer addr len => exact sendArgInLoop_invoke_spares ht _ _
    | writeCompleteCallback | highWaterCallback => exact spares_ok _

theorem handle_channel_spares (hI : Inv cfg s none) (hc : s.conns id = some c) (hl : c.loop = l)
    {revents : PollEvents} (ho : revents.reads = true → Open c) (k : Kernel) :
    Spares .abort (s.handle (.loop l) k (.channel id revents)) := by
  obtain rfl := hl
  simp only [handle, hc]
  rw [handleEvent_wired (hI.at hc).1]
  split
  · rename_i hread
    have ht := isInLoopThread_self c.loop
    unfold runHandlers
    simp only [conns_setConn, Function.update_self]
    refine Spares.bind (invoke_spares ht ?_ ?_) fun _ _ => spares_ok _
    · exact TcpConnection.handleReadable_spares
        (c := { c with channel := c.channel.setReturnEvents revents }) ht (ho hread)
        (hI.at hc).1.closeCallback _
    · intro c' es hr
      exact TcpConnection.wiring_loop (TcpConnection.handleReadable_wiring hr).1
  · exact spares_ok _

theorem loopStep_spares (hI : Inv cfg s none) (hP : Polled s none) (l : LoopId) (k : Kernel) :
    Spares .abort (s.loopStep l k) := by
  unfold loopStep
  split
  · exact spares_ok _
  · rename_i x xs hp
    have hI₁ : Inv cfg (s.setPhase l (.handling xs)) none := hI.setPhase (by rw [hp]; rfl)
    cases x with
    | acceptor =>
      obtain rfl := hP.acceptor l _ hp List.mem_cons_self
      have hassert : Spares .abort (assertInLoopThread baseLoop (.loop baseLoop)) := by
        rw [assertInLoopThread_self]
        exact spares_ok _
      refine hassert.bind fun _ _ => ?_
      split
      · exact spares_ok _
      · rename_i fd _
        refine hassert.bind fun _ _ => ?_
        unfold runInLoop
        split
        · rename_i hin
          have hacc := hI₁.accept fd
          rw [show (s.setPhase baseLoop (.handling xs)).server.threadPool.getNextLoop.1 = baseLoop
            from (ThreadId.loop.inj (eq_loop hin)).symm] at hacc
          exact execute_spares hacc
        · exact spares_ok _
    | channel id revents =>
      obtain ⟨c, hc, hl, ho⟩ := (hP.ready l _ hp).2 id revents List.mem_cons_self
      exact handle_channel_spares hI₁ hc hl ho k
  · exact spares_ok _
  · rename_i task tasks hp
    exact execute_spares (hI.take hp)
  · exact spares_ok _

/-- **No step of a reachable state aborts.** -/
theorem step_spares_abort (hI : Inv cfg s none) (hP : Polled s none) (lb : Label) :
    Spares .abort (s.step lb) := by
  cases lb with
  | loop l k => exact loopStep_spares hI hP l k
  | send t id arg w =>
    simp only [step]
    split
    · exact spares_ok _
    · rename_i c hc
      unfold TcpConnection.send
      split
      · split
        · rename_i ht
          exact sendArgInLoop_invoke_spares ht _ _
        · exact performAll_spares (Or.inr (by simp))
      · exact performAll_spares (Or.inr (by simp))
  | shutdown t id =>
    simp only [step]
    split
    · exact spares_ok _
    · rename_i c hc
      unfold TcpConnection.shutdown
      split
      · simp only
        split
        · rename_i ht
          exact invoke_spares (c := { c with state := .disconnecting }) ht
            (TcpConnection.shutdownInLoop_spares ht) fun _ _ hr =>
              TcpConnection.wiring_loop (TcpConnection.shutdownInLoop_wiring hr)
        · exact performAll_spares (Or.inr (by simp))
      · exact performAll_spares (Or.inr (by simp))
  | store m => exact spares_ok _

end World

end TcpServer

end HyperMuduo.Net
