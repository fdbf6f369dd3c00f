import HyperMuduo.TcpClient.Steps

/-!
# When `startInLoop` aborts

`startInLoop` aborts unless `state_` is `Disconnected`. Three things call it: the closure of a
`connect()`, `restart` in the close callback, and a retry timer. `restart` sets `state_` first. The
client looks at nothing: a `connect()` can find an attempt in progress, or a connection that was
established, and a timer armed before a `stop()` can find the attempt of a later `connect()`.

* `Orderly`: at most one retry timer is armed, and while one is the connector is `Disconnected`.
* `step_error`: a step that fails in `startInLoop` runs it for a `connect()`, for a timer, or in
  `Disconnected`.
* **`startInLoop_no_abort`**: no run aborts there in which `connect()` finds the connector idle and no
  restart finds a timer armed.
-/

namespace HyperMuduo.Net.TcpClient

open HyperMuduo.Lib

namespace World

/-! ## Timers -/

theorem absorb_armed (s : World) (c : Connector) (es : List Connector.Effect) :
    (s.absorb c es).armed = s.armed + (es.filterMap (deadline s.now)).length := by
  rw [absorb_eq]
  simp only [armed, List.length_append]
  omega

theorem deadline_destroySocket (now : Nat) (socket : Option Int) :
    (Connector.destroySocket socket).filterMap (deadline now) = [] := by
  unfold Connector.destroySocket
  split
  · rfl
  · split <;> rfl

theorem deadline_destroyChannel (now : Nat) (channel : Option (Nat × Channel Connector.Handler)) :
    (Connector.destroyChannel channel).filterMap (deadline now) = [] := by
  cases channel <;> rfl

theorem deadline_removal (now : Nat) (channel : Option (Nat × Channel Connector.Handler)) :
    (Connector.removal channel).filterMap (deadline now) = [] := by
  cases channel <;> rfl

theorem deadline_retryTimer (now : Nat) (c : Connector) :
    (c.retryTimer.filterMap (deadline now)).length ≤ 1 := by
  unfold Connector.retryTimer
  split <;> simp [deadline]

/-- **An attempt arms one timer at most**, and then ends `Disconnected`. -/
theorem attempted_timers {c c' : Connector} {fd : Int} {es : List Connector.Effect} (now : Nat)
    (h : Connector.Attempted c fd c' es) :
    (es.filterMap (deadline now)).length ≤ 1 ∧
      (es.filterMap (deadline now) ≠ [] → c'.state = .disconnected) ∧
      (c'.socket.isSome → c'.state = .connecting) := by
  cases h with
  | inProgress =>
    refine ⟨?_, fun hne => absurd ?_ hne, fun _ => rfl⟩
    · simp [List.filterMap_cons, deadline_destroySocket, deadline_destroyChannel, deadline]
    · simp [List.filterMap_cons, deadline_destroySocket, deadline_destroyChannel, deadline]
  | retried =>
    refine ⟨?_, fun _ => rfl, fun h => absurd h (by simp)⟩
    simpa [List.filterMap_cons, deadline_destroySocket, deadline] using deadline_retryTimer now c
  | gaveUp =>
    refine ⟨?_, fun _ => rfl, fun h => absurd h (by simp)⟩
    simp [List.filterMap_cons, deadline_destroySocket, deadline]

theorem settled_timers {c c' : Connector} {fd : Int} {es : List Connector.Effect} (now : Nat)
    (h : Connector.Settled c fd c' es) :
    (es.filterMap (deadline now)).length ≤ 1 ∧
      (es.filterMap (deadline now) ≠ [] → c'.state = .disconnected) ∧ c'.socket = none := by
  cases h with
  | failed =>
    refine ⟨?_, fun _ => rfl, rfl⟩
    simpa [deadline_removal, deadline_destroySocket] using deadline_retryTimer now c
  | ignored =>
    rw [List.filterMap_append, deadline_removal, deadline_destroySocket]
    exact ⟨Nat.zero_le 1, fun h => absurd rfl h, rfl⟩

/-! ## The invariant -/

/-- At most one retry timer is armed, and none during an attempt. -/
structure Orderly (s : World) : Prop where
  one : s.armed ≤ 1
  waiting : 0 < s.armed → s.connector.state = .disconnected
  /-- A socket is there for an attempt, or moved from during `onConnection`. -/
  socket : s.connector.socket.isSome → s.inCallback = true ∨ s.connector.state = .connecting

/-- `connect()` finds the connector `Disconnected` and no timer armed; no restart finds one armed. -/
def StartsIdle (s : World) (l : Label) : Prop :=
  (s.connects l = true → s.connector.state = .disconnected ∧ s.armed = 0) ∧
    (s.restarts l = true → s.armed = 0)

instance (s : World) (l : Label) : Decidable (s.StartsIdle l) :=
  inferInstanceAs (Decidable (_ ∧ _))

variable {s s₀ s' : World} {l : Label} {kc : Connector.Kernel}

theorem start_orderly (cfg : Config) : (start cfg).Orderly where
  one := by simp [armed, start, Phase.timers]
  waiting h := absurd h (by simp [armed, start, Phase.timers])
  socket h := absurd h (by simp [start, Connector.construct])

theorem Orderly.of_same (h : s.Orderly) (harmed : s'.armed = s.armed)
    (hstate : s'.connector.state = s.connector.state)
    (hsocket : s'.connector.socket = s.connector.socket) (hcallback : s'.inCallback = s.inCallback) :
    s'.Orderly where
  one := by rw [harmed]; exact h.one
  waiting := by rw [harmed, hstate]; exact h.waiting
  socket := by rw [hsocket, hcallback, hstate]; exact h.socket

theorem Orderly.steady (h : s.Orderly) (hs : Steady s s') : s'.Orderly :=
  h.of_same hs.armed hs.attempt.state hs.attempt.socket hs.inCallback

/-- A member function of a connection touches neither the connector nor the timers. -/
theorem Orderly.absorbConn (h : s.Orderly) (id : Nat) (c : TcpConnection)
    (es : List TcpConnection.Effect) : (s.absorbConn id c es).Orderly := by
  rw [absorbConn_eq]
  exact h.of_same rfl rfl rfl rfl

/-- A call of the connector while no timer is armed. -/
theorem absorb_orderly {c : Connector} {es : List Connector.Effect} (harmed : s.armed = 0)
    (hone : (es.filterMap (deadline s.now)).length ≤ 1)
    (hwaiting : es.filterMap (deadline s.now) ≠ [] → c.state = .disconnected)
    (hsocket : c.socket.isSome → s.inCallback = true ∨ c.state = .connecting) :
    (s.absorb c es).Orderly := by
  have hlength : (s.absorb c es).armed = (es.filterMap (deadline s.now)).length := by
    rw [absorb_armed, harmed, Nat.zero_add]
  refine ⟨by rw [hlength]; exact hone, fun hpos => ?_, fun hsome => ?_⟩
  · rw [hlength] at hpos
    rw [absorb_eq]
    exact hwaiting (List.ne_nil_of_length_pos hpos)
  · rw [absorb_eq] at hsome ⊢
    exact hsocket hsome

theorem runConnector_start_orderly (harmed : s.armed = 0)
    (h : s.runConnector kc .startInLoop = .ok s') : s'.Orderly := by
  obtain ⟨-, -, c, es, hattempted, rfl⟩ := runConnector_start h
  obtain ⟨hone, hwaiting, hsocket⟩ := attempted_timers s.now hattempted
  exact absorb_orderly harmed hone hwaiting fun hsome => Or.inr (hsocket hsome)

theorem runConnector_stop_orderly (hI : s.Orderly) (h : s.runConnector kc .stopInLoop = .ok s') :
    s'.Orderly := by
  obtain ⟨-, rfl⟩ | ⟨hstate, rfl⟩ := runConnector_stop h
  · refine ⟨?_, fun _ => ?_, fun hsome => ?_⟩
    · rw [absorb_armed]
      simpa [deadline_removal, deadline_destroySocket] using hI.one
    · rw [absorb_eq]
    · rw [absorb_eq] at hsome
      exact absurd hsome (by simp)
  · refine ⟨?_, fun _ => ?_, fun hsome => ?_⟩
    · rw [absorb_armed]
      simpa using hI.one
    · rw [absorb_eq]
    · rw [absorb_eq] at hsome ⊢
      rcases hI.socket hsome with hcallback | hconnecting
      · exact Or.inl hcallback
      · exact absurd hconnecting hstate

theorem handleWritable_orderly (hI : s.Orderly) (hfree : s.inCallback = false)
    (h : s.handleWritable kc = .ok s') : s'.Orderly := by
  obtain ⟨fd, hsocket, hcase⟩ := handleWritable_ok h
  -- outside `onConnection` the socket belongs to an attempt, during which no timer is armed
  have harmed : s.armed = 0 := by
    have hconnecting : s.connector.state = .connecting := by
      rcases hI.socket (by rw [hsocket]; rfl) with hcallback | hconnecting
      · rw [hfree] at hcallback
        exact absurd hcallback (by simp)
      · exact hconnecting
    by_contra hne
    have hdisconnected := hI.waiting (Nat.pos_of_ne_zero hne)
    rw [hconnecting] at hdisconnected
    exact absurd hdisconnected (by simp)
  rcases hcase with ⟨-, c, es, hsettled, rfl⟩ | ⟨-, hrun⟩
  · obtain ⟨hone, hwaiting, hnone⟩ := settled_timers s.now hsettled
    refine absorb_orderly harmed hone hwaiting ?_
    rw [hnone]
    exact fun hsome => absurd hsome (by simp)
  · obtain ⟨-, c', es, -, rfl⟩ := onConnection_ok hrun
    refine Orderly.absorbConn ?_ _ _ _
    have hnone : ((s.handOver fd).addConnection fd).armed = 0 := by
      change (s.absorb { s.connector with
        state := .connected
        channel := none
        socket := some Connector.invalidFd } _).armed = 0
      rw [absorb_armed, harmed, List.filterMap_append, deadline_removal]
      rfl
    refine ⟨by rw [hnone]; exact Nat.zero_le 1, fun hpos => ?_, fun _ => Or.inl rfl⟩
    rw [hnone] at hpos
    exact absurd hpos (Nat.lt_irrefl 0)

theorem closeCallback_orderly {id : Nat} (hI : s.Orderly)
    (harmed : (s.client.retry && s.client.connectFlag) = true → s.armed = 0)
    (h : s.closeCallback id kc = .ok s') : s'.Orderly := by
  obtain ⟨-, ⟨-, rfl⟩ | ⟨hflags, hrun⟩⟩ := closeCallback_ok h
  · exact hI.of_same rfl rfl rfl rfl
  · have hzero : (s.forget id).rewind.armed = 0 := harmed hflags
    exact runConnector_start_orderly hzero hrun

theorem step_orderly (hI : s.Orderly) (hidle : s.StartsIdle l) (he : s.step l = .ok s') :
    s'.Orderly := by
  cases step_stepped he with
  | steady h => exact hI.steady h
  | timer s₀ k h harmed hdestroying hk hlk hrun =>
    have hone := hI.one
    exact runConnector_start_orderly (by omega) hrun
  | closure s₀ k task h hk hlk hl hrun =>
    cases task with
    | startInLoop =>
      refine runConnector_start_orderly ?_ hrun
      rw [h.armed]
      exact (hidle.1 (hl rfl)).2
    | stopInLoop => exact runConnector_stop_orderly (hI.steady h) hrun
  | writable s₀ k h hfree hl hrun => exact handleWritable_orderly (hI.steady h) hfree hrun
  | returned hl hcallback hrun =>
    subst hrun
    have harmed : ({ s with inCallback := false }.absorb { s.connector with socket := none }
        (Connector.destroySocket s.connector.socket)).armed = s.armed := by
      rw [absorb_armed, deadline_destroySocket]
      rfl
    refine ⟨by rw [harmed]; exact hI.one, fun hpos => ?_, fun hsome => ?_⟩
    · rw [harmed] at hpos
      rw [absorb_eq]
      exact hI.waiting hpos
    · rw [absorb_eq] at hsome
      exact absurd hsome (by simp)
  | plain s₀ id c c' es h hc hcall hrun =>
    subst hrun
    exact (hI.steady h).absorbConn id c' es
  | closes s₀ s₁ id c c' cb k h hk hlk hclient hl hc hstate hcb hwiring hclosed hs₁ hrun =>
    have hI₁ : s₁.Orderly := by
      subst hs₁
      have hrecorded : (s₀.record (.handleClose id)).Orderly :=
        (hI.steady h).of_same rfl rfl rfl rfl
      exact hrecorded.absorbConn id c' _
    split at hrun
    · rename_i hreset
      refine closeCallback_orderly hI₁ ?_ hrun
      intro hflags
      have hrestarts : s.restarts l = true := by
        rw [hs₁, absorbConn_eq] at hflags
        change (s₀.client.retry && s₀.client.connectFlag) = true at hflags
        rw [hclient] at hflags
        have hcs : s.conns id = some c := by rw [← h.conns]; exact hc
        exact restarts_eq_true hl hcs (by rw [hcb, hreset]) hflags
      have harmed : s₁.armed = s.armed := by
        rw [hs₁, absorbConn_eq]
        exact h.armed
      rw [harmed]
      exact hidle.2 hrestarts
    · subst hrun
      exact hI₁
  | destroyed s₀ id c c₁ task h harmed hdestroying hc htask hrun =>
    subst hrun
    exact (hI.of_same harmed h.attempt.state h.attempt.socket h.inCallback).absorbConn _ _ _
  | dropped id hl howned hrun =>
    subst hrun
    unfold dropConn
    split
    · exact hI
    · exact hI.of_same rfl rfl rfl rfl
  | begins t hl hd hrun =>
    subst hrun
    exact hI.of_same rfl rfl rfl rfl
  | reads t id hd hconnection hrun =>
    subst hrun
    exact hI.of_same rfl rfl rfl rfl
  | finishes t hd hrun =>
    subst hrun
    exact hI.of_same rfl rfl rfl rfl

/-! ## Failures of `startInLoop` -/

variable {st : Connector.State} {f : Fault} {k : Kernel} {id : Nat}

theorem runConnector_error {task : Connector.Task}
    (h : s.runConnector kc task = .error (.startInLoop st f)) :
    task = .startInLoop ∧ st = s.connector.state := by
  cases task with
  | startInLoop =>
    refine ⟨rfl, ?_⟩
    simp only [runConnector, invokeConnector] at h
    split at h
    · exact (Failure.startInLoop.inj (Except.error.inj h)).1.symm
    · exact absurd h (by simp)
  | stopInLoop =>
    simp only [runConnector, invokeConnector] at h
    split at h <;> exact absurd h (by simp)

/-- `restart` sets `state_` before it calls `startInLoop`. -/
theorem closeCallback_error (h : s.closeCallback id kc = .error (.startInLoop st f)) :
    st = .disconnected := by
  unfold closeCallback at h
  split at h
  · exact absurd h (by simp)
  · dsimp only at h
    split at h
    · unfold restart at h
      split at h
      · exact absurd h (by simp)
      · rename_i c task hrestart
        obtain ⟨rfl, rfl⟩ := Connector.restart_inv hrestart
        exact (runConnector_error h).2
    · exact absurd h (by simp)

theorem invokeConn_error {r : TcpConnection.Result}
    (h : s.invokeConn id kc r = .error (.startInLoop st f)) : st = .disconnected := by
  unfold invokeConn at h
  split at h
  · exact absurd h (by simp)
  · split at h
    · exact closeCallback_error h
    · exact absurd h (by simp)

theorem execute_error {task : Task} (h : s.execute k task = .error (.startInLoop st f)) :
    st = .disconnected ∨ (task = .connector .startInLoop ∧ st = s.connector.state) := by
  cases task with
  | connector task =>
    obtain ⟨rfl, hst⟩ := runConnector_error h
    exact Or.inr ⟨rfl, hst⟩
  | conn id task =>
    refine Or.inl ?_
    simp only [execute] at h
    split at h
    · exact absurd h (by simp)
    · cases task with
      | writeCompleteCallback | highWaterCallback => exact absurd h (by simp [executeConn])
      | _ => exact invokeConn_error h
  | clientDestroyed id =>
    refine Or.inl ?_
    simp only [execute] at h
    split at h
    · exact absurd h (by simp)
    · exact invokeConn_error h

theorem handleConnectorEvent_error {revents : PollEvents}
    (h : s.handleConnectorEvent kc id revents = .error (.startInLoop st f)) : st = .disconnected := by
  unfold handleConnectorEvent at h
  split at h
  · exact absurd h (by simp)
  · split at h
    · dsimp only at h
      split at h
      · exact absurd h (by simp)
      · unfold handleWritable at h
        split at h
        · exact absurd h (by simp)
        · split at h
          · exact absurd h (by simp)
          · unfold onConnection at h
            split at h
            · exact absurd h (by simp)
            · exact invokeConn_error h
    · exact absurd h (by simp)

theorem handleConnEvent_error {revents : PollEvents}
    (h : s.handleConnEvent k id revents = .error (.startInLoop st f)) : st = .disconnected := by
  unfold handleConnEvent at h
  split at h
  · exact absurd h (by simp)
  · dsimp only at h
    split at h
    · exact absurd h (by simp)
    · exact invokeConn_error h

theorem loopStep_error (hruns : s.loopRuns k = true)
    (h : s.loopStep k = .error (.startInLoop st f)) :
    st = .disconnected ∨
      (st = s.connector.state ∧ (s.connects (.loop k) = true ∨ 0 < s.armed)) := by
  unfold loopStep at h
  split at h
  · exact absurd h (by simp)
  · exact Or.inl (handleConnectorEvent_error h)
  · exact Or.inl (handleConnEvent_error h)
  · exact absurd h (by simp)
  · exact absurd h (by simp)
  · rename_i n xs hphase
    refine Or.inr ⟨(runConnector_error h).2, Or.inr ?_⟩
    simp [armed, hphase, Phase.timers]
  · exact absurd h (by simp)
  · rename_i task ts hphase
    rcases execute_error h with hst | ⟨rfl, hst⟩
    · exact Or.inl hst
    · refine Or.inr ⟨hst, Or.inl ?_⟩
      simp [connects, hruns, hphase]
  · exact absurd h (by simp)

/-- **Where `startInLoop` can fail**: in `Disconnected`, for a `connect()`, or for a timer. -/
theorem step_error (h : s.step l = .error (.startInLoop st f)) :
    st = .disconnected ∨ (st = s.connector.state ∧ (s.connects l = true ∨ 0 < s.armed)) := by
  cases l with
  | proceed t k =>
    simp only [step] at h
    split at h
    · exact absurd h (by simp)
    · rename_i rest hpending
      split at h
      · rename_i hk
        cases rest with
        | start | stop =>
          simp only [proceed] at h
          split at h <;> exact absurd h (by simp)
        | shutdown =>
          simp only [proceed] at h
          split at h
          · exact absurd h (by simp)
          · split at h
            · exact absurd h (by simp)
            · split at h
              · exact absurd h (by simp)
              · exact Or.inl (invokeConn_error h)
        | runInLoop task =>
          simp only [proceed, runInLoop] at h
          split at h
          · rename_i ht
            rcases execute_error h with hst | ⟨htask, hst⟩
            · exact Or.inl hst
            · obtain rfl := Task.connector.inj htask
              refine Or.inr ⟨hst, Or.inl ?_⟩
              simp only [connects, hpending, hk, decide_true, Bool.true_and]
              exact ht
          · exact absurd h (by simp)
      · exact absurd h (by simp)
  | loop k =>
    simp only [step] at h
    split at h
    · rename_i hruns
      exact loopStep_error hruns h
    · exact absurd h (by simp)
  | callbackReturns =>
    simp only [step] at h
    split at h <;> exact absurd h (by simp)
  | send t id arg k | shutdown t id k =>
    simp only [step] at h
    split at h
    · exact absurd h (by simp)
    · split at h
      · exact Or.inl (invokeConn_error h)
      · exact absurd h (by simp)
  | destructor k =>
    simp only [step] at h
    split at h
    · unfold destruct at h
      split at h
      case h_5 =>
        rename_i t conn hd
        unfold runInLoop at h
        split at h
        · rcases execute_error h with hst | ⟨htask, -⟩
          · exact Or.inl hst
          · cases conn <;> exact absurd htask (by simp [destructorTask])
        · exact absurd h (by simp)
      case h_3 =>
        split at h <;> exact absurd h (by simp)
      all_goals exact absurd h (by simp)
    · exact absurd h (by simp)
  | call t c => exact absurd h (by simp [step])
  | drop id => exact absurd h (by simp [step])
  | destroy t => exact absurd h (by simp [step])
  | elapse ms => exact absurd h (by simp [step])
  | store m => exact absurd h (by simp [step])

/-! ## Runs -/

/-- The run ends in the `std::abort` of `startInLoop`. -/
def Aborts (cfg : Config) (ls : List Label) : Prop :=
  ∃ st, st ≠ .disconnected ∧ run step (start cfg) ls = .error (.startInLoop st .abort)

/-- **`startInLoop` does not abort**, in every run in which `connect()` finds the connector
`Disconnected` with no timer armed, and no connection is closed to be restarted while one is. -/
theorem startInLoop_no_abort {cfg : Config} {ls : List Label}
    (hidle : Along step StartsIdle (start cfg) ls) : ¬ Aborts cfg ls := by
  rintro ⟨st, hst, hrun⟩
  have hnone : ∀ st' f, Failure.startInLoop st .abort = .startInLoop st' f → st' = .disconnected := by
    refine run_error (I := Orderly) (E := fun e => ∀ st' f, e = .startInLoop st' f →
      st' = .disconnected) step_orderly ?_ (start_orderly cfg) hidle hrun
    rintro s l e hI hl he st' f rfl
    rcases step_error he with hdisconnected | ⟨rfl, hconnects | harmed⟩
    · exact hdisconnected
    · exact (hl.1 hconnects).1
    · exact hI.waiting harmed
  exact hst (hnone st .abort rfl)

/-- The first attempt is refused; the timer makes a second. -/
def refusedOnce : List Label :=
  callConnect (attempted 5 .econnrefused) ++
    [.elapse 1000, .loop (polled [.timerfd]), .loop (polled []), .loop (attempted 6 .einprogress)]

theorem startInLoop_no_abort_refusedOnce :
    Along step StartsIdle (start testConfig) refusedOnce ∧ ¬ Aborts testConfig refusedOnce := by
  have hidle : Along step StartsIdle (start testConfig) refusedOnce := by decide +kernel
  exact ⟨hidle, startInLoop_no_abort hidle⟩

/-- The first attempt is refused and a timer armed. A `stop()` and a `connect()` later it expires. -/
def refusedThenStopped : List Label :=
  callConnect (attempted 5 .econnrefused) ++ callStop ++ callConnect (attempted 6 .einprogress) ++
    [.elapse 1000, .loop (polled [.timerfd]), .loop (polled []), .loop (attempted 7 .einprogress)]

/-- **The timer outlives the `stop()`**, finds the attempt of the second `connect()`, and aborts. -/
theorem startInLoop_aborts_refusedThenStopped : Aborts testConfig refusedThenStopped := by
  refine ⟨.connecting, by simp, ?_⟩
  have herror : (match run step (start testConfig) refusedThenStopped with
      | .error e => decide (e = .startInLoop .connecting .abort)
      | .ok _ => false) = true := by decide +kernel
  split at herror
  · rename_i e he
    rw [he, of_decide_eq_true herror]
  · exact absurd herror (by simp)

end World

end HyperMuduo.Net.TcpClient
