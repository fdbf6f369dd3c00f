import HyperMuduo.TcpClient.Attempts

/-!
# Attempts without the retry flag

`setRetry(false)` is meant to give a client that tries once. Whether the connector tries again is
decided in two places. The close callback of a connection looks at `retry_` of the client. `retry()` of
the connector, after an error of `Socket::connect` or of the asynchronous connect, looks at its own
`connect_`, which `connect()` has just set, and arms a timer that calls `startInLoop`.

* `attempts` counts the calls of `Socket::connect`, `connectCalls` those of `TcpClient::connect`;
  `served` are the calls of `connect` whose closure has run. A closure that runs makes one attempt, so
  `OncePerCall` says that no call leads to a second one.
* **`once_per_call_iff`**: while the retry flag is false, `OncePerCall` holds in all of a run if and
  only if no retry timer fires in it.
-/

namespace HyperMuduo.Net.TcpClient

open HyperMuduo.Lib

/-- A call of `Socket::connect`. -/
def isAttempt : Connector.Effect → Bool
  | .connect _ => true
  | _ => false

def Entry.attempt : Entry → Bool
  | .connector e => isAttempt e
  | _ => false

/-- What is left of a `connect()`. -/
def Rest.starts : Rest → Bool
  | .start | .runInLoop .startInLoop => true
  | _ => false

namespace World

/-- How often `Socket::connect` was called. -/
def attempts (s : World) : Nat := s.log.countP Entry.attempt

/-- How often `TcpClient::connect` was called. -/
def connectCalls (s : World) : Nat := s.log.count (.called .connect)

/-- The thread is in `connect()`, before its closure runs or is queued. -/
def starting (s : World) (t : ThreadId) : Bool := (s.pending t).any Rest.starts

/-- The closures of `connect()` on the queue and in the batch. -/
def startTasks (s : World) : Nat := s.tasks.count (.connector .startInLoop)

/-! ## Attempts -/

variable {s s₀ s' : World} {l : Label} {k : Kernel} {kc : Connector.Kernel} {id : Nat}

theorem attempts_destroySocket (socket : Option Int) :
    (Connector.destroySocket socket).countP isAttempt = 0 := by
  unfold Connector.destroySocket
  split
  · rfl
  · split <;> rfl

theorem attempts_removal (channel : Option (Nat × Channel Connector.Handler)) :
    (Connector.removal channel).countP isAttempt = 0 := by
  cases channel <;> rfl

theorem attempts_destroyChannel (channel : Option (Nat × Channel Connector.Handler)) :
    (Connector.destroyChannel channel).countP isAttempt = 0 := by
  cases channel <;> rfl

theorem attempts_retryTimer (c : Connector) :
    c.retryTimer.countP isAttempt = 0 := by
  unfold Connector.retryTimer
  split <;> rfl

theorem attempts_attempted {c c' : Connector} {fd : Int} {es : List Connector.Effect}
    (h : Connector.Attempted c fd c' es) : es.countP isAttempt = 1 := by
  cases h with
  | inProgress =>
    simp only [List.cons_append, List.countP_cons, List.countP_append, attempts_destroySocket,
      attempts_destroyChannel]
    rfl
  | retried =>
    simp only [List.cons_append, List.countP_cons, List.countP_append, attempts_destroySocket,
      attempts_retryTimer]
    rfl
  | gaveUp =>
    simp only [List.cons_append, List.countP_cons, List.countP_append, attempts_destroySocket]
    rfl

theorem attempts_settled {c c' : Connector} {fd : Int} {es : List Connector.Effect}
    (h : Connector.Settled c fd c' es) : es.countP isAttempt = 0 := by
  cases h with
  | failed =>
    simp only [List.countP_append, attempts_removal, attempts_destroySocket, attempts_retryTimer]
  | ignored => simp only [List.countP_append, attempts_removal, attempts_destroySocket]

theorem absorb_attempts (s : World) (c : Connector) (es : List Connector.Effect) :
    (s.absorb c es).attempts = s.attempts + es.countP isAttempt := by
  unfold attempts
  rw [absorb_eq, List.countP_append, List.countP_map]
  rfl

theorem absorbConn_attempts (s : World) (id : Nat) (c : TcpConnection)
    (es : List TcpConnection.Effect) : (s.absorbConn id c es).attempts = s.attempts := by
  have hnone : (es.map (Entry.effect id)).countP Entry.attempt = 0 := by
    rw [List.countP_eq_zero]
    intro e he
    obtain ⟨x, -, rfl⟩ := List.mem_map.mp he
    simp [Entry.attempt]
  unfold attempts
  rw [absorbConn_eq, List.countP_append, hnone, Nat.add_zero]

theorem Frame.attempts (h : Frame s s') : s'.attempts = s.attempts := by
  obtain ⟨calls, hlog⟩ := h.log
  have hnone : (calls.map Entry.called).countP Entry.attempt = 0 := by
    rw [List.countP_eq_zero]
    intro e he
    obtain ⟨x, -, rfl⟩ := List.mem_map.mp he
    simp [Entry.attempt]
  unfold World.attempts
  rw [hlog, List.countP_append, hnone, Nat.add_zero]

/-- `startInLoop` that returns has called `Socket::connect` once. -/
theorem runConnector_start_attempts (h : s.runConnector kc .startInLoop = .ok s') :
    s'.attempts = s.attempts + 1 := by
  obtain ⟨-, -, c, es, hattempted, rfl⟩ := runConnector_start h
  rw [absorb_attempts, attempts_attempted hattempted]

theorem runConnector_stop_attempts (h : s.runConnector kc .stopInLoop = .ok s') :
    s'.attempts = s.attempts := by
  obtain ⟨-, rfl⟩ | ⟨-, rfl⟩ := runConnector_stop h
  · rw [absorb_attempts, List.countP_append, attempts_removal, attempts_destroySocket]
    rfl
  · rw [absorb_attempts]
    rfl

theorem handleWritable_attempts (h : s.handleWritable kc = .ok s') : s'.attempts = s.attempts := by
  obtain ⟨fd, -, ⟨-, c, es, hsettled, rfl⟩ | ⟨-, hrun⟩⟩ := handleWritable_ok h
  · rw [absorb_attempts, attempts_settled hsettled, Nat.add_zero]
  · obtain ⟨-, c', es, -, rfl⟩ := onConnection_ok hrun
    rw [absorbConn_attempts]
    have hover : ((s.handOver fd).addConnection fd).attempts = s.attempts +
        (Connector.removal s.connector.channel ++
          [Connector.Effect.newConnectionCallback fd]).countP isAttempt :=
      absorb_attempts s
        { s.connector with state := .connected, channel := none, socket := some Connector.invalidFd } _
    rw [hover, List.countP_append, attempts_removal]
    rfl

/-- **The attempts of a step.** With the retry flag false, only a closure of `connect()` and a retry
timer make one. -/
theorem attempts_of_quiet (hc : s.connects l = false) (hf : s.fires l = false)
    (hretry : s.client.retry = false) (he : s.step l = .ok s') : s'.attempts = s.attempts := by
  cases step_stepped he with
  | steady h => exact h.toFrame.attempts
  | timer s₀ k h harmed hdestroying hk hlk hrun hl => exact absurd (hf.symm.trans hl) (by simp)
  | closure s₀ k task h hk hlk hl hrun =>
    cases task with
    | startInLoop => exact absurd (hc.symm.trans (hl rfl)) (by simp)
    | stopInLoop => exact (runConnector_stop_attempts hrun).trans h.toFrame.attempts
  | writable s₀ k h hfree hl hrun => exact (handleWritable_attempts hrun).trans h.toFrame.attempts
  | returned hl hcallback hrun =>
    subst hrun
    rw [absorb_attempts, attempts_destroySocket]
    rfl
  | plain s₀ id c c' es h hc hcall hrun =>
    subst hrun
    exact (absorbConn_attempts s₀ id c' es).trans h.toFrame.attempts
  | closes s₀ s₁ id c c' cb k h hk hlk hclient hl hc hstate hcb hwiring hclosed hs₁ hrun =>
    have hattempts : s₁.attempts = s.attempts := by
      rw [hs₁, absorbConn_attempts, ← h.toFrame.attempts]
      simp [attempts, record, List.countP_append, Entry.attempt]
    split at hrun
    · obtain ⟨-, ⟨-, rfl⟩ | ⟨hflags, -⟩⟩ := closeCallback_ok hrun
      · exact hattempts
      · have hflag : s₁.client.retry = false := by
          rw [hs₁, absorbConn_eq]
          change s₀.client.retry = false
          rw [hclient, hretry]
        rw [hflag] at hflags
        exact absurd hflags (by simp)
    · rw [hrun, hattempts]
  | destroyed s₀ id c c₁ task h harmed hdestroying hc htask hrun =>
    subst hrun
    exact (absorbConn_attempts s₀ id _ _).trans h.attempts
  | dropped id hl howned hrun =>
    subst hrun
    unfold dropConn
    split <;> rfl
  | begins t hl hd hrun =>
    subst hrun
    rfl
  | reads t id hd hconnection hrun =>
    subst hrun
    rfl
  | finishes t hd hrun =>
    subst hrun
    rfl

/-- The closure of a `connect()` makes one. -/
theorem attempts_of_connects (hc : s.connects l = true) (he : s.step l = .ok s') :
    s'.attempts = s.attempts + 1 := by
  cases l with
  | proceed t k =>
    simp only [connects, Bool.and_eq_true, decide_eq_true_eq] at hc
    obtain ⟨⟨hk, hpending⟩, ht⟩ := hc
    simp only [step, hpending, if_pos hk, proceed, runInLoop, ht, if_true, execute] at he
    have hone := runConnector_start_attempts he
    exact hone
  | loop k =>
    simp only [connects, Bool.and_eq_true] at hc
    obtain ⟨hruns, hphase⟩ := hc
    simp only [step, hruns, if_true, loopStep] at he
    split at hphase
    · rename_i ts hq
      simp only [hq, execute] at he
      have hone := runConnector_start_attempts he
      exact hone
    · exact absurd hphase (by simp)
  | _ => exact absurd hc (by simp [connects])

/-- The closure of a retry timer makes one. -/
theorem attempts_of_fires (hf : s.fires l = true) (he : s.step l = .ok s') :
    s'.attempts = s.attempts + 1 ∧ s.connects l = false := by
  cases l with
  | loop k =>
    simp only [fires, Bool.and_eq_true] at hf
    obtain ⟨hruns, hphase⟩ := hf
    simp only [step, hruns, if_true, loopStep] at he
    split at hphase
    · rename_i n xs hq
      simp only [hq] at he
      have hone := runConnector_start_attempts he
      exact ⟨hone, by simp [connects, hq]⟩
    · exact absurd hphase (by simp)
  | _ => exact absurd hf (by simp [fires])

/-! ## The closures of `connect()`

A `connect()` is under way on its thread, then its closure is on the queue or runs at once. -/

/-- The calls of `connect()` and their closures are the same. -/
structure SameStarts (s s' : World) : Prop where
  pending : s'.pending = s.pending
  startTasks : s'.startTasks = s.startTasks
  connectCalls : s'.connectCalls = s.connectCalls

theorem SameStarts.trans (h : SameStarts s s₀) (h' : SameStarts s₀ s') : SameStarts s s' :=
  ⟨h'.pending.trans h.pending, h'.startTasks.trans h.startTasks,
    h'.connectCalls.trans h.connectCalls⟩

theorem SameStarts.refl (s : World) : SameStarts s s := ⟨rfl, rfl, rfl⟩

theorem absorb_sameStarts (s : World) (c : Connector) (es : List Connector.Effect) :
    SameStarts s (s.absorb c es) := by
  rw [absorb_eq]
  refine ⟨rfl, rfl, ?_⟩
  have hnone : (es.map Entry.connector).count (.called .connect) = 0 := by
    rw [List.count_eq_zero]
    intro hmem
    obtain ⟨e, -, he⟩ := List.mem_map.mp hmem
    exact absurd he (by simp)
  simp only [connectCalls, List.count_append, hnone, Nat.add_zero]

theorem queuedTask_conn {task : Task} {es : List TcpConnection.Effect}
    (h : task ∈ es.filterMap (queuedTask id)) : task ≠ .connector .startInLoop := by
  obtain ⟨e, -, he⟩ := List.mem_filterMap.mp h
  cases e with
  | queueInLoop task' =>
    obtain rfl := Option.some.inj he
    simp
  | _ => exact absurd he (by simp [queuedTask])

theorem absorbConn_sameStarts (s : World) (id : Nat) (c : TcpConnection)
    (es : List TcpConnection.Effect) : SameStarts s (s.absorbConn id c es) := by
  rw [absorbConn_eq]
  refine ⟨rfl, ?_, ?_⟩
  · have hnone : (es.filterMap (queuedTask id)).count (.connector .startInLoop) = 0 :=
      List.count_eq_zero.mpr fun hmem => queuedTask_conn hmem rfl
    simp only [startTasks, tasks, List.count_append, hnone, Nat.add_zero]
  · have hnone : (es.map (Entry.effect id)).count (.called .connect) = 0 := by
      rw [List.count_eq_zero]
      intro hmem
      obtain ⟨e, -, he⟩ := List.mem_map.mp hmem
      exact absurd he (by simp)
    simp only [connectCalls, List.count_append, hnone, Nat.add_zero]

theorem runConnector_sameStarts {task : Connector.Task} (h : s.runConnector kc task = .ok s') :
    SameStarts s s' := by
  cases task with
  | startInLoop =>
    obtain ⟨-, -, c, es, -, rfl⟩ := runConnector_start h
    exact absorb_sameStarts s c es
  | stopInLoop => obtain ⟨-, rfl⟩ | ⟨-, rfl⟩ := runConnector_stop h <;> exact absorb_sameStarts s _ _

theorem closeCallback_sameStarts (h : s.closeCallback id kc = .ok s') : SameStarts s s' := by
  have hforget : SameStarts s (s.forget id) := by
    refine ⟨rfl, ?_, rfl⟩
    simp [startTasks, tasks, forget, List.count_append]
  obtain ⟨-, ⟨-, rfl⟩ | ⟨-, hrun⟩⟩ := closeCallback_ok h
  · exact hforget
  · have hrewind : SameStarts (s.forget id) (s.forget id).rewind := ⟨rfl, rfl, rfl⟩
    exact (hforget.trans hrewind).trans (runConnector_sameStarts hrun)

theorem invokeConn_sameStarts {r : TcpConnection.Result} (h : s.invokeConn id kc r = .ok s') :
    SameStarts s s' := by
  unfold invokeConn at h
  split at h
  · exact absurd h (by simp)
  · rename_i c es
    split at h
    · exact (absorbConn_sameStarts s id c es).trans (closeCallback_sameStarts h)
    · obtain rfl := Except.ok.inj h
      exact absorbConn_sameStarts s id c es

theorem execute_sameStarts {task : Task} (h : s.execute k task = .ok s') : SameStarts s s' := by
  cases task with
  | connector task => exact runConnector_sameStarts h
  | conn id task =>
    simp only [execute] at h
    split at h
    · exact absurd h (by simp)
    · cases task with
      | writeCompleteCallback | highWaterCallback =>
        obtain rfl := Except.ok.inj h
        exact .refl s
      | _ => exact invokeConn_sameStarts h
  | clientDestroyed id =>
    simp only [execute] at h
    split at h
    · exact absurd h (by simp)
    · exact invokeConn_sameStarts h

theorem handleWritable_sameStarts (h : s.handleWritable kc = .ok s') : SameStarts s s' := by
  unfold handleWritable at h
  split at h
  · exact absurd h (by simp)
  · rename_i c es hr
    split at h
    · obtain rfl := Except.ok.inj h
      exact absorb_sameStarts s c es
    · rename_i fd hfd
      obtain ⟨-, c', es', -, rfl⟩ := onConnection_ok h
      have hadd : SameStarts (s.absorb c es)
          (addConnection { s.absorb c es with inCallback := true } fd) := ⟨rfl, rfl, rfl⟩
      exact ((absorb_sameStarts s c es).trans hadd).trans (absorbConn_sameStarts _ _ c' es')

theorem handleConnectorEvent_sameStarts {revents : PollEvents}
    (h : s.handleConnectorEvent kc id revents = .ok s') : SameStarts s s' := by
  unfold handleConnectorEvent at h
  split at h
  · exact absurd h (by simp)
  · rename_i id' ch hch
    have hnoted : SameStarts s
        { s with connector := { s.connector with channel := some (id', ch.setReturnEvents revents) } } :=
      ⟨rfl, rfl, rfl⟩
    split at h
    · dsimp only at h
      split at h
      · obtain rfl := Except.ok.inj h
        exact hnoted
      · exact hnoted.trans (handleWritable_sameStarts h)
    · exact absurd h (by simp)

theorem handleConnEvent_sameStarts {revents : PollEvents}
    (h : s.handleConnEvent k id revents = .ok s') : SameStarts s s' := by
  unfold handleConnEvent at h
  split at h
  · exact absurd h (by simp)
  · dsimp only at h
    split at h
    · obtain rfl := Except.ok.inj h
      exact ⟨rfl, rfl, rfl⟩
    · refine SameStarts.trans ?_ (invokeConn_sameStarts h)
      split
      · refine ⟨rfl, rfl, ?_⟩
        simp [connectCalls, record, List.count_append]
      · exact .refl s

/-- What a step does to the calls of `connect()` and their closures. -/
inductive Starts (s : World) (l : Label) (s' : World) : Prop where
  | same (hc : s.connects l = false) (hp : ∀ t, s'.starting t = true → s.starting t = true)
      (ht : s'.startTasks = s.startTasks) (hn : s'.connectCalls = s.connectCalls)
  /-- `connect()` is called. -/
  | called (t : ThreadId) (hc : s.connects l = false)
      (hp : ∀ t', s'.starting t' = true → t' = t ∨ s.starting t' = true)
      (ht : s'.startTasks = s.startTasks) (hn : s'.connectCalls = s.connectCalls + 1)
  /-- The call on thread `t` runs its closure, or queues it. -/
  | posted (t : ThreadId) (hold : s.starting t = true)
      (hp : ∀ t', s'.starting t' = true → t' ≠ t ∧ s.starting t' = true)
      (ht : s'.startTasks + (if s.connects l then 1 else 0) = s.startTasks + 1)
      (hn : s'.connectCalls = s.connectCalls)
  /-- A closure from the queue runs. -/
  | ran (hp : ∀ t, s'.starting t = true → s.starting t = true)
      (ht : s.startTasks = s'.startTasks + 1) (hn : s'.connectCalls = s.connectCalls)

theorem SameStarts.starting (h : SameStarts s s') (t : ThreadId) : s'.starting t = s.starting t := by
  unfold World.starting
  rw [h.pending]

theorem SameStarts.starts (h : SameStarts s s') (hc : s.connects l = false) : Starts s l s' :=
  .same hc (fun t ht => (h.starting t).symm.trans ht) h.startTasks h.connectCalls

theorem Starts.unchanged (hc : s.connects l = false) : Starts s l s := (SameStarts.refl s).starts hc

/-- What follows a change without touching the calls of `connect()`. -/
theorem Starts.followed (h : Starts s l s₀) (h' : SameStarts s₀ s') : Starts s l s' := by
  have hback : ∀ {t}, s'.starting t = true → s₀.starting t = true :=
    fun {t} ht => (h'.starting t).symm.trans ht
  cases h with
  | same hc hp ht hn =>
    exact .same hc (fun t hst => hp t (hback hst)) (h'.startTasks.trans ht) (h'.connectCalls.trans hn)
  | called t hc hp ht hn =>
    exact .called t hc (fun t' hst => hp t' (hback hst)) (h'.startTasks.trans ht)
      (h'.connectCalls.trans hn)
  | posted t hold hp ht hn =>
    exact .posted t hold (fun t' hst => hp t' (hback hst)) (h'.startTasks.symm ▸ ht)
      (h'.connectCalls.trans hn)
  | ran hp ht hn =>
    exact .ran (fun t hst => hp t (hback hst)) (h'.startTasks.symm ▸ ht) (h'.connectCalls.trans hn)

/-- The call of one thread goes on. -/
theorem starting_update {t t' : ThreadId} {r : Option Rest}
    (h : s'.pending = Function.update s.pending t r) :
    s'.starting t' = if t' = t then r.any Rest.starts else s.starting t' := by
  unfold starting
  rw [h]
  by_cases ht : t' = t
  · rw [ht, Function.update_self, if_pos rfl]
  · rw [Function.update_of_ne ht, if_neg ht]

/-- It starts no attempt that was not under way. -/
theorem starting_of_update {t t' : ThreadId} {r : Option Rest}
    (h : s'.pending = Function.update s.pending t r)
    (hr : r.any Rest.starts = true → s.starting t = true) (hst : s'.starting t' = true) :
    s.starting t' = true := by
  rw [starting_update h] at hst
  split at hst
  · rename_i ht
    rw [ht]
    exact hr hst
  · exact hst

/-- A call returns that is no `connect()`, or is past its closure. -/
theorem returned_starts (t : ThreadId) (hc : s.connects l = false) :
    Starts s l { s with pending := Function.update s.pending t none } := by
  refine .same hc (fun t' => ?_) rfl rfl
  exact starting_of_update (t := t) (r := none) rfl fun h => absurd h (by simp)

theorem enter_starts (s : World) (t : ThreadId) (c : Call) : Starts s (.call t c) (s.enter t c) := by
  cases c with
  | connect =>
    refine .called t rfl (fun t' hst => ?_) rfl ?_
    · by_cases ht : t' = t
      · exact Or.inl ht
      · rw [starting_update (s := s) (t := t) (r := some .start) rfl, if_neg ht] at hst
        exact Or.inr hst
    · simp [connectCalls, enter, record, List.count_append]
  | disconnect =>
    refine .same rfl (fun t' => starting_of_update (t := t) (r := some .shutdown) rfl ?_) rfl ?_
    · exact fun h => absurd h (by simp [Rest.starts])
    · simp [connectCalls, enter, record, List.count_append]
  | stop =>
    refine .same rfl (fun t' => starting_of_update (t := t) (r := some .stop) rfl ?_) rfl ?_
    · exact fun h => absurd h (by simp [Rest.starts])
    · simp [connectCalls, enter, record, List.count_append]
  | setRetry on =>
    refine .same rfl (fun _ h => h) rfl ?_
    simp [connectCalls, enter, record, List.count_append]

theorem proceed_starts {t : ThreadId} {rest : Rest} (hpending : s.pending t = some rest)
    (hk : s.Possible k) (he : s.proceed t k rest = .ok s') : Starts s (.proceed t k) s' := by
  have hrest : s.starting t = rest.starts := by
    unfold starting
    rw [hpending]
    rfl
  cases rest with
  | start =>
    simp only [proceed] at he
    split at he
    · exact absurd he (by simp)
    · obtain rfl := Except.ok.inj he
      refine .same (by simp [connects, hpending]) (fun t' => ?_) rfl rfl
      exact starting_of_update (t := t) (r := some (.runInLoop .startInLoop)) rfl fun _ => hrest
  | stop =>
    simp only [proceed] at he
    split at he
    · exact absurd he (by simp)
    · obtain rfl := Except.ok.inj he
      refine .same (by simp [connects, hpending]) (fun t' => ?_) rfl rfl
      refine starting_of_update (t := t) (r := some (.runInLoop .stopInLoop)) rfl ?_
      exact fun h => absurd h (by simp [Rest.starts])
  | shutdown =>
    have hended := returned_starts (s := s) (l := .proceed t k) t (by simp [connects, hpending])
    simp only [proceed] at he
    split at he
    · exact absurd he (by simp)
    · split at he
      · obtain rfl := Except.ok.inj he
        exact hended
      · split at he
        · exact absurd he (by simp)
        · exact hended.followed (invokeConn_sameStarts he)
  | runInLoop task =>
    cases task with
    | stopInLoop =>
      have hended := returned_starts (s := s) (l := .proceed t k) t (by simp [connects, hpending])
      simp only [proceed, runInLoop] at he
      split at he
      · exact hended.followed (execute_sameStarts he)
      · obtain rfl := Except.ok.inj he
        refine hended.followed ⟨rfl, ?_, rfl⟩
        simp [startTasks, tasks, queueInLoop, List.count_append]
    | startInLoop =>
      have hgone : ∀ {s' : World}, s'.pending = Function.update s.pending t none →
          ∀ t', s'.starting t' = true → t' ≠ t ∧ s.starting t' = true := by
        intro s' hs' t' hst
        rw [starting_update hs'] at hst
        split at hst
        · exact absurd hst (by simp)
        · rename_i hne
          exact ⟨hne, hst⟩
      simp only [proceed, runInLoop] at he
      split at he
      · rename_i ht
        have hc : s.connects (.proceed t k) = true := by
          simp only [connects, hpending, hk, decide_true, Bool.true_and]
          exact ht
        have hended : Starts s (.proceed t k)
            { s with pending := Function.update s.pending t none } :=
          .posted t hrest (hgone rfl) (by rw [hc]; rfl) rfl
        exact hended.followed (execute_sameStarts he)
      · rename_i ht
        have hc : s.connects (.proceed t k) = false := by
          simp only [connects, Bool.and_eq_false_iff]
          exact Or.inr (by simpa using ht)
        obtain rfl := Except.ok.inj he
        refine .posted t hrest (hgone rfl) ?_ rfl
        rw [hc]
        simp [startTasks, tasks, queueInLoop, List.count_append, Nat.add_assoc]

theorem destruct_starts (he : s.destruct k = .ok s') : Starts s (.destructor k) s' := by
  refine SameStarts.starts ?_ rfl
  unfold destruct at he
  split at he
  · obtain rfl := Except.ok.inj he
    exact .refl s
  · obtain rfl := Except.ok.inj he
    exact .refl s
  · split at he <;>
    · obtain rfl := Except.ok.inj he
      exact ⟨rfl, rfl, rfl⟩
  · obtain rfl := Except.ok.inj he
    exact ⟨rfl, rfl, rfl⟩
  · rename_i t conn hd
    have hleaving : SameStarts s { s with destructor := .leaving t } := ⟨rfl, rfl, rfl⟩
    unfold runInLoop at he
    split at he
    · exact hleaving.trans (execute_sameStarts he)
    · obtain rfl := Except.ok.inj he
      refine ⟨rfl, ?_, rfl⟩
      cases conn <;> simp [startTasks, tasks, queueInLoop, List.count_append, destructorTask]
  · obtain rfl := Except.ok.inj he
    exact ⟨rfl, rfl, rfl⟩

theorem loopStep_starts (he : s.loopStep k = .ok s') :
    Starts s (.loop k) s' := by
  have hsame : ∀ {p : Phase}, p.tasks = s.phase.tasks → SameStarts s { s with phase := p } := by
    intro p hp
    refine ⟨rfl, ?_, rfl⟩
    simp only [startTasks, tasks, hp]
  unfold loopStep at he
  split at he
  · rename_i hphase
    obtain rfl := Except.ok.inj he
    exact (hsame (by rw [hphase]; rfl)).starts (by simp [connects, hphase])
  · rename_i id revents xs hphase
    have hpopped := hsame (p := .handling xs) (by rw [hphase]; rfl)
    exact (hpopped.trans (handleConnectorEvent_sameStarts he)).starts (by simp [connects, hphase])
  · rename_i id revents xs hphase
    have hpopped := hsame (p := .handling xs) (by rw [hphase]; rfl)
    exact (hpopped.trans (handleConnEvent_sameStarts he)).starts (by simp [connects, hphase])
  · rename_i xs hphase
    obtain rfl := Except.ok.inj he
    refine SameStarts.starts ⟨rfl, ?_, rfl⟩ (by simp [connects, hphase])
    simp [startTasks, tasks, expireTimers, hphase, Phase.tasks]
  · rename_i hphase
    obtain rfl := Except.ok.inj he
    refine SameStarts.starts ⟨rfl, ?_, rfl⟩ (by simp [connects, hphase])
    simp [startTasks, tasks, hphase, Phase.tasks]
  · rename_i n xs hphase
    have hpopped := hsame (p := .expiring n xs) (by rw [hphase]; rfl)
    exact (hpopped.trans (runConnector_sameStarts he)).starts (by simp [connects, hphase])
  · rename_i xs hphase
    obtain rfl := Except.ok.inj he
    exact (hsame (by rw [hphase]; rfl)).starts (by simp [connects, hphase])
  · rename_i task ts hphase
    by_cases htask : task = .connector .startInLoop
    · have hran : Starts s (.loop k) { s with phase := .executing ts } := by
        refine .ran (fun _ h => h) ?_ rfl
        simp only [startTasks, tasks, hphase, Phase.tasks, htask, List.cons_append,
          List.count_cons_self]
      exact hran.followed (execute_sameStarts he)
    · have hc : s.connects (.loop k) = false := by
        unfold connects
        rw [hphase, Bool.and_eq_false_iff]
        right
        split
        · rename_i heq
          exact absurd (List.cons.inj (Phase.executing.inj heq)).1 htask
        · rfl
      have hpopped : SameStarts s { s with phase := .executing ts } := by
        refine ⟨rfl, ?_, rfl⟩
        simp only [startTasks, tasks, hphase, Phase.tasks, List.cons_append,
          List.count_cons_of_ne htask]
      exact (hpopped.trans (execute_sameStarts he)).starts hc
  · rename_i hphase
    obtain rfl := Except.ok.inj he
    exact (hsame (by rw [hphase]; rfl)).starts (by simp [connects, hphase])

/-- **The calls of `connect()` over a step.** -/
theorem step_starts (he : s.step l = .ok s') : Starts s l s' := by
  cases l with
  | call t c =>
    obtain rfl := Except.ok.inj he
    split
    · exact enter_starts s t c
    · exact .unchanged rfl
  | proceed t k =>
    simp only [step] at he
    split at he
    · rename_i hnone
      obtain rfl := Except.ok.inj he
      exact .unchanged (by simp [connects, hnone])
    · rename_i rest hpending
      split at he
      · rename_i hk
        exact proceed_starts hpending hk he
      · rename_i hk
        obtain rfl := Except.ok.inj he
        exact .unchanged (by simp [connects, hk])
  | loop k =>
    simp only [step] at he
    split at he
    · exact loopStep_starts he
    · rename_i hruns
      obtain rfl := Except.ok.inj he
      exact .unchanged (by simp [connects, hruns])
  | callbackReturns =>
    simp only [step] at he
    split at he
    · obtain rfl := Except.ok.inj he
      have hleft : SameStarts s { s with inCallback := false } := ⟨rfl, rfl, rfl⟩
      exact (hleft.trans (absorb_sameStarts _ _ _)).starts rfl
    · obtain rfl := Except.ok.inj he
      exact .unchanged rfl
  | send t id arg k | shutdown t id k =>
    simp only [step] at he
    split at he
    · obtain rfl := Except.ok.inj he
      exact .unchanged rfl
    · split at he
      · exact (invokeConn_sameStarts he).starts rfl
      · obtain rfl := Except.ok.inj he
        exact .unchanged rfl
  | drop id =>
    obtain rfl := Except.ok.inj he
    refine SameStarts.starts ?_ rfl
    split
    · exact .refl s
    · unfold dropConn
      split
      · exact .refl s
      · exact ⟨rfl, rfl, rfl⟩
  | destroy t =>
    obtain rfl := Except.ok.inj he
    refine SameStarts.starts ?_ rfl
    split
    · exact ⟨rfl, rfl, rfl⟩
    · exact .refl s
  | destructor k =>
    simp only [step] at he
    split at he
    · exact destruct_starts he
    · obtain rfl := Except.ok.inj he
      exact .unchanged rfl
  | elapse ms =>
    obtain rfl := Except.ok.inj he
    exact SameStarts.starts ⟨rfl, rfl, rfl⟩ rfl
  | store m =>
    obtain rfl := Except.ok.inj he
    exact SameStarts.starts ⟨rfl, rfl, rfl⟩ rfl

end World

/-! ## Runs -/

/-- A client, with the number of `connect()` calls whose closure has run. -/
structure Counted where
  world : World
  served : Nat

namespace Counted

def start (cfg : Config) : Counted := ⟨.start cfg, 0⟩

def step (s : Counted) (l : Label) : Except Failure Counted := do
  let world ← s.world.step l
  return ⟨world, s.served + if s.world.connects l then 1 else 0⟩

/-- No `connect()` has led to a second attempt: there are no more attempts than closures of `connect()`
that ran, and no more of these than calls. -/
def OncePerCall (s : Counted) : Prop :=
  s.world.attempts ≤ s.served ∧ s.served ≤ s.world.connectCalls

instance (s : Counted) : Decidable s.OncePerCall := inferInstanceAs (Decidable (_ ∧ _))

/-- The retry flag is false. -/
def RetryOff (s : Counted) (_ : Label) : Prop := s.world.client.retry = false

instance (s : Counted) (l : Label) : Decidable (s.RetryOff l) := inferInstanceAs (Decidable (_ = _))

/-- The step runs no closure of a retry timer. -/
def NoTimer (s : Counted) (l : Label) : Prop := s.world.fires l = false

instance (s : Counted) (l : Label) : Decidable (s.NoTimer l) := inferInstanceAs (Decidable (_ = _))

variable {s s' : Counted} {l : Label}

/-- Every closure that ran, is on the queue, or is still to come from a thread in `connect()`, was
called for. -/
def Accounted (s : Counted) : Prop :=
  ∃ ts : List ThreadId, (∀ t, s.world.starting t = true → t ∈ ts) ∧
    s.served + ts.length + s.world.startTasks ≤ s.world.connectCalls

theorem step_inv (he : s.step l = .ok s') :
    s.world.step l = .ok s'.world ∧ s'.served = s.served + if s.world.connects l then 1 else 0 := by
  obtain ⟨world, hworld, hret⟩ := bind_ok_inv he
  obtain rfl := Except.ok.inj hret
  exact ⟨hworld, rfl⟩

theorem step_accounted (h : Accounted s) (he : s.step l = .ok s') : Accounted s' := by
  obtain ⟨ts, hcover, hsum⟩ := h
  obtain ⟨hworld, hserved⟩ := step_inv he
  cases World.step_starts hworld with
  | same hc hp ht hn =>
    rw [hc] at hserved
    refine ⟨ts, fun t hst => hcover t (hp t hst), ?_⟩
    rw [hserved, ht, hn]
    exact hsum
  | called t hc hp ht hn =>
    rw [hc] at hserved
    refine ⟨t :: ts, fun t' hst => ?_, ?_⟩
    · rcases hp t' hst with rfl | hold
      · exact List.mem_cons_self
      · exact List.mem_cons_of_mem _ (hcover t' hold)
    · rw [hserved, ht, hn, List.length_cons]
      simp only [Bool.false_eq_true, if_false]
      omega
  | posted t hold hp ht hn =>
    have hmem := hcover t hold
    have hpos : 0 < ts.length := List.length_pos_of_mem hmem
    refine ⟨ts.erase t, fun t' hst => ?_, ?_⟩
    · obtain ⟨hne, hst⟩ := hp t' hst
      exact (List.mem_erase_of_ne hne).mpr (hcover t' hst)
    · rw [hserved, hn, List.length_erase_of_mem hmem]
      omega
  | ran hp ht hn =>
    refine ⟨ts, fun t hst => hcover t (hp t hst), ?_⟩
    rw [hserved, hn]
    split <;> omega

/-- The invariant of a run without timers. -/
structure Single (s : Counted) : Prop where
  attempts : s.world.attempts = s.served
  accounted : Accounted s

theorem Single.oncePerCall (h : Single s) : OncePerCall s := by
  obtain ⟨ts, -, hsum⟩ := h.accounted
  exact ⟨Nat.le_of_eq h.attempts, by omega⟩

theorem step_single (h : Single s) (hP : RetryOff s l ∧ NoTimer s l) (he : s.step l = .ok s') :
    Single s' := by
  refine ⟨?_, step_accounted h.accounted he⟩
  obtain ⟨hworld, hserved⟩ := step_inv he
  rw [hserved, ← h.attempts]
  cases hc : s.world.connects l with
  | true => exact World.attempts_of_connects hc hworld
  | false => exact World.attempts_of_quiet hc hP.2 hP.1 hworld

/-- A timer that fires makes an attempt nobody called for. -/
theorem noTimer_of_oncePerCall (h : Single s) (he : s.step l = .ok s') (h' : OncePerCall s') :
    NoTimer s l := by
  unfold NoTimer
  by_contra hfires
  rw [Bool.not_eq_false] at hfires
  obtain ⟨hworld, hserved⟩ := step_inv he
  obtain ⟨hone, hc⟩ := World.attempts_of_fires hfires hworld
  have hle := h'.1
  rw [hone, hserved, hc, h.attempts] at hle
  simp at hle

theorem start_single (cfg : Config) : Single (start cfg) :=
  ⟨rfl, [], fun t ht => absurd ht (by simp [start, World.start, World.starting]), Nat.le_refl _⟩

/-- **One attempt per call exactly without timers.** While the retry flag is false, no state of a run
has seen a `connect()` lead to a second attempt if and only if no retry timer fired in the run. -/
theorem once_per_call_iff {cfg : Config} {ls : List Label} {t : Counted}
    (hoff : Along step RetryOff (start cfg) ls) (hrun : run step (start cfg) ls = .ok t) :
    (∀ before after s, ls = before ++ after → run step (start cfg) before = .ok s →
      OncePerCall s) ↔ Along step NoTimer (start cfg) ls := by
  constructor
  · intro hall
    exact along_of_guarded_prefixes (I := Single) step_single noTimer_of_oncePerCall
      (start_single cfg) hoff hrun hall
  · rintro halong before after s rfl hs
    have hguarded := ((along_append hs).mp (hoff.and halong)).1
    exact (run_invariant (I := Single) step_single (start_single cfg) hguarded hs).oncePerCall

/-- An attempt succeeds, the peer closes the connection, and time passes. -/
def closedOnce : List Label :=
  World.callConnect (World.attempted 5 .einprogress) ++ World.connected 5 ++ World.closedByPeer 5 ++
    [.elapse 60000, .loop (World.polled []), .loop (World.polled [])]

theorem once_per_call_iff_closedOnce :
    ∃ t, run step (start World.testConfig) closedOnce = .ok t ∧
      (t.world.attempts = 1 ∧ t.world.connectCalls = 1) ∧
      ∀ before after s, closedOnce = before ++ after →
        run step (start World.testConfig) before = .ok s → OncePerCall s := by
  obtain ⟨t, hrun, hcounts⟩ :
      ∃ t, run step (start World.testConfig) closedOnce = .ok t ∧
        (t.world.attempts = 1 ∧ t.world.connectCalls = 1) := by decide +kernel
  have hoff : Along step RetryOff (start World.testConfig) closedOnce := by decide +kernel
  have halong : Along step NoTimer (start World.testConfig) closedOnce := by decide +kernel
  exact ⟨t, hrun, hcounts, (once_per_call_iff hoff hrun).mpr halong⟩

/-- The first attempt is refused, and a second later there is another one. -/
theorem once_per_call_refused :
    Along step RetryOff (start World.testConfig) World.refusedOnce ∧
      ∃ t, run step (start World.testConfig) World.refusedOnce = .ok t ∧
        t.world.connectCalls = 1 ∧ t.world.attempts = 2 ∧ ¬ OncePerCall t := by
  decide +kernel

end Counted

end HyperMuduo.Net.TcpClient
