import HyperMuduo.TcpServer.LifeCycle

/-!
# The life cycle does not stall

A round of a loop ends when it has executed its batch and goes back to its poller. What waits on a loop
is executed before the loop has ended two rounds: the first swaps the queue out at the latest, with
whatever was queued before, and the second executes it. Nothing delays it further, because tasks are
queued at the end and a batch never grows.

* `Grows`: whatever is called, on any thread, the phase of a loop is kept and its queue and the log
  only get longer. The phase changes in the loop's own steps.
* `lag` is the number of rounds that a waiting task can still take. A step never makes it larger, and
  the end of a round makes it smaller (`step_lag`).

**`stages_complete`**: an accepted connection is established within two rounds of its loop, and a closed
one is destroyed within two rounds of the base loop followed by two of its own.
-/

namespace HyperMuduo.Net.TcpServer.World

open HyperMuduo.Lib
open HyperMuduo.Net.TcpConnection (Effect Handler ReadResult Result SendArg)

variable {cfg : Config} {s s' s'' : World} {l : LoopId} {id i n : Nat} {c : TcpConnection}
  {t : ThreadId} {es : List Effect} {w : Int} {task : Task}

/-! ## Rounds -/

/-- The step ends a round of the loop. -/
def endsRound (s : World) (l : LoopId) : Label → Bool
  | .loop l' _ => decide (l' = l) && decide ((s.loops l).phase = .executing [])
  | _ => false

/-- The rounds of a loop that end in a run. -/
def rounds (l : LoopId) : World → List Label → Nat
  | _, [] => 0
  | s, lb :: lbs =>
    match s.step lb with
    | .ok s' => (if s.endsRound l lb then 1 else 0) + rounds l s' lbs
    | .error _ => 0

/-- The rounds that a waiting task can still take: this one if it is in the batch or before the next
swap, and the next one too if it came during a batch. -/
def lag (s : World) (l : LoopId) (task : Task) : Nat :=
  if task ∈ (s.loops l).phase.tasks then 1
  else
    match (s.loops l).phase with
    | .executing _ => 2
    | _ => 1

theorem lag_pos (s : World) (l : LoopId) (task : Task) : 0 < s.lag l task := by
  unfold lag
  split
  · omega
  · split <;> omega

theorem lag_le_two (s : World) (l : LoopId) (task : Task) : s.lag l task ≤ 2 := by
  unfold lag
  split
  · omega
  · split <;> omega

theorem lag_of_batch (h : task ∈ (s.loops l).phase.tasks) : s.lag l task = 1 := if_pos h

/-- Before the next swap. -/
theorem lag_of_not_executing (h : ∀ tasks, (s.loops l).phase ≠ .executing tasks) :
    s.lag l task = 1 := by
  unfold lag
  split
  · rfl
  · split
    · rename_i tasks hp
      exact absurd hp (h tasks)
    · rfl

theorem lag_of_executing {tasks : List Task} (hp : (s.loops l).phase = .executing tasks)
    (h : task ∉ tasks) : s.lag l task = 2 := by
  unfold lag
  rw [hp]
  exact if_neg h

theorem lag_congr (h : (s'.loops l).phase = (s.loops l).phase) : s'.lag l task = s.lag l task := by
  unfold lag
  rw [h]

/-! ## What a call does to a loop -/

/-- From `s` to `s'` the loop `l` keeps its phase, and its queue and the log only get longer. -/
structure Grows (l : LoopId) (s s' : World) : Prop where
  phase : (s'.loops l).phase = (s.loops l).phase
  queue : (s.loops l).taskQueue <+: (s'.loops l).taskQueue
  log : s.log <+: s'.log

theorem Grows.refl (l : LoopId) (s : World) : Grows l s s :=
  ⟨rfl, List.prefix_refl _, List.prefix_refl _⟩

theorem Grows.trans (h : Grows l s s') (h' : Grows l s' s'') : Grows l s s'' :=
  ⟨h'.phase.trans h.phase, h.queue.trans h'.queue, h.log.trans h'.log⟩

/-- The loops are the same. -/
theorem grows_of_loops (hloops : s'.loops = s.loops) (hlog : s.log <+: s'.log) : Grows l s s' := by
  refine ⟨by rw [hloops], ?_, hlog⟩
  simp only [hloops, List.prefix_refl]

theorem grows_record (l : LoopId) (s : World) (e : Entry) : Grows l s (s.record e) :=
  grows_of_loops rfl (List.prefix_append ..)

theorem grows_setConn (l : LoopId) (s : World) (id : Nat) (c : TcpConnection) :
    Grows l s (s.setConn id c) :=
  grows_of_loops rfl (List.prefix_refl _)

/-- A change of one loop, which may be `l`. -/
theorem grows_update {l' : LoopId} {x : Loop}
    (hx : l' = l → x.phase = (s.loops l).phase ∧ (s.loops l).taskQueue <+: x.taskQueue) :
    Grows l s { s with loops := Function.update s.loops l' x } := by
  by_cases hl : l' = l
  · obtain ⟨hphase, hqueue⟩ := hx hl
    subst hl
    refine ⟨?_, ?_, List.prefix_refl _⟩ <;> simp only [Function.update_self]
    · exact hphase
    · exact hqueue
  · refine ⟨?_, ?_, List.prefix_refl _⟩ <;> simp only [Function.update_of_ne (Ne.symm hl)]
    exact List.prefix_refl _

theorem grows_setPoller (l : LoopId) (s : World) (l' : LoopId) (ep : Epoller Nat) :
    Grows l s (s.setPoller l' ep) := by
  refine grows_update ?_
  rintro rfl
  exact ⟨rfl, List.prefix_refl _⟩

theorem grows_queueInLoop (l : LoopId) (s : World) (l' : LoopId) (task : Task) :
    Grows l s (s.queueInLoop l' task) := by
  refine grows_update ?_
  rintro rfl
  exact ⟨rfl, List.prefix_append ..⟩

theorem removeConnectionInLoop_grows (he : s.removeConnectionInLoop t id = .ok s') :
    Grows l (s.record (.called .removeConnectionInLoop t id)) s' := by
  obtain ⟨_, -, he⟩ := bind_ok_inv he
  simp only at he
  split at he
  · exact absurd he (by simp)
  · obtain rfl := Except.ok.inj he
    refine Grows.trans ?_ (grows_queueInLoop ..)
    exact grows_of_loops rfl (List.prefix_refl _)

theorem removeConnection_grows (he : s.removeConnection t id = .ok s') : Grows l s s' := by
  unfold removeConnection at he
  split at he
  · exact (grows_record ..).trans (removeConnectionInLoop_grows he)
  · obtain rfl := Except.ok.inj he
    exact grows_queueInLoop ..

theorem perform_grows {e : Effect} (he : s.perform t id c e = .ok s') : Grows l s s' := by
  unfold perform at he
  refine (grows_record l s (.effect id e)).trans ?_
  split at he
  · obtain ⟨_, -, he⟩ := bind_ok_inv he
    obtain rfl := Except.ok.inj he
    exact grows_setPoller ..
  · obtain ⟨_, -, he⟩ := bind_ok_inv he
    obtain rfl := Except.ok.inj he
    exact grows_setPoller ..
  · obtain rfl := Except.ok.inj he
    exact grows_queueInLoop ..
  · exact removeConnection_grows he
  · obtain rfl := Except.ok.inj he
    exact .refl ..

theorem performAll_grows (he : performAll t id c s es = .ok s') : Grows l s s' := by
  induction es generalizing s with
  | nil =>
    obtain rfl := Except.ok.inj he
    exact .refl l s
  | cons e es ih =>
    obtain ⟨s₁, h1, h2⟩ := bind_ok_inv he
    exact (perform_grows h1).trans (ih h2)

theorem invoke_grows {r : Result} (he : s.invoke t id r = .ok s') : Grows l s s' := by
  obtain ⟨⟨c', es⟩, -, he⟩ := bind_ok_inv he
  exact (grows_setConn ..).trans (performAll_grows he)

theorem executeConn_grows {task : TcpConnection.Task} (he : s.executeConn t id c w task = .ok s') :
    Grows l s s' := by
  cases task with
  | connectionEstablished => exact (grows_record ..).trans (invoke_grows he)
  | connectionDestroyed => exact (grows_record ..).trans (invoke_grows he)
  | shutdownInLoop => exact invoke_grows he
  | sendString _ | sendBuffer _ | sendPointer _ _ => exact invoke_grows he
  | writeCompleteCallback | highWaterCallback =>
    obtain rfl := Except.ok.inj he
    exact .refl l s

theorem execute_grows (he : s.execute t w task = .ok s') : Grows l s s' := by
  cases task with
  | conn id task =>
    simp only [execute] at he
    split at he
    · exact absurd he (by simp)
    · exact executeConn_grows he
  | removeConnectionInLoop id => exact (grows_record ..).trans (removeConnectionInLoop_grows he)

theorem newConnection_grows {fd : Int} (he : s.newConnection t fd w = .ok s') : Grows l s s' := by
  obtain ⟨_, -, he⟩ := bind_ok_inv he
  have hadd : Grows l s (s.addConnection fd) := grows_of_loops rfl (List.prefix_refl _)
  unfold runInLoop at he
  split at he
  · exact hadd.trans (execute_grows he)
  · obtain rfl := Except.ok.inj he
    exact hadd.trans (grows_queueInLoop ..)

theorem runHandlers_grows {r : ReadResult} {hs : List Handler}
    (he : s.runHandlers t id r w hs = .ok s') : Grows l s s' := by
  induction hs generalizing s with
  | nil =>
    obtain rfl := Except.ok.inj he
    exact .refl l s
  | cons h hs ih =>
    unfold runHandlers at he
    split at he
    · exact absurd he (by simp)
    · simp only at he
      obtain ⟨s₁, h1, h2⟩ := bind_ok_inv he
      have hone : Grows l s s₁ := by
        split at h1
        · exact (grows_record ..).trans (invoke_grows h1)
        · exact invoke_grows h1
      exact hone.trans (ih h2)

theorem handle_grows {k : Kernel} {x : Ready} (he : s.handle t k x = .ok s') : Grows l s s' := by
  cases x with
  | acceptor =>
    simp only [handle] at he
    obtain ⟨_, -, he⟩ := bind_ok_inv he
    split at he
    · obtain rfl := Except.ok.inj he
      exact .refl l s
    · exact newConnection_grows he
  | channel id revents =>
    simp only [handle] at he
    split at he
    · exact absurd he (by simp)
    · exact (grows_setConn ..).trans (runHandlers_grows he)

/-! ## What a step does to a waiting task -/

/-- The function of the life cycle that a task calls. -/
def member : Task → Option Member
  | .conn _ .connectionEstablished => some .connectionEstablished
  | .conn _ .connectionDestroyed => some .connectionDestroyed
  | .removeConnectionInLoop _ => some .removeConnectionInLoop
  | .conn _ _ => none

theorem execute_logs {m : Member} (hm : member task = some m) (he : s.execute t w task = .ok s') :
    .called m t task.captured ∈ s'.log := by
  have hin : ∀ {s₁ : World} {id : Nat}, Grows baseLoop (s₁.record (.called m t id)) s' →
      .called m t id ∈ s'.log :=
    fun hg => hg.log.subset (List.mem_append_right _ List.mem_cons_self)
  cases task with
  | conn id task =>
    simp only [execute] at he
    split at he
    · exact absurd he (by simp)
    · cases task with
      | connectionEstablished =>
        obtain rfl := Option.some.inj hm
        exact hin (invoke_grows he)
      | connectionDestroyed =>
        obtain rfl := Option.some.inj hm
        exact hin (invoke_grows he)
      | _ => exact absurd hm (by simp [member])
  | removeConnectionInLoop id =>
    obtain rfl := Option.some.inj hm
    exact hin (removeConnectionInLoop_grows he)

/-- Outside the loop's own steps a waiting task stays, with its lag. -/
theorem Grows.waits (h : Grows l s s') (hwait : task ∈ (s.loops l).pending) :
    task ∈ (s'.loops l).pending ∧ s'.lag l task = s.lag l task := by
  refine ⟨?_, lag_congr h.phase⟩
  unfold Loop.pending at hwait ⊢
  rw [h.phase]
  rcases List.mem_append.mp hwait with hbatch | hqueue
  · exact List.mem_append_left _ hbatch
  · exact List.mem_append_right _ (h.queue.subset hqueue)

/-- Another loop's step, or a call from outside. -/
theorem step_grows {lb : Label} (hl : ∀ k, lb ≠ .loop l k) (he : s.step lb = .ok s') : Grows l s s' := by
  cases lb with
  | loop l' k =>
    have hne : l' ≠ l := by
      rintro rfl
      exact hl k rfl
    have hphase : ∀ p, Grows l s (s.setPhase l' p) := fun p => grows_update fun h => absurd h hne
    simp only [step, loopStep] at he
    split at he
    · obtain rfl := Except.ok.inj he
      exact hphase _
    · exact (hphase _).trans (handle_grows he)
    · obtain rfl := Except.ok.inj he
      exact grows_update fun h => absurd h hne
    · exact (hphase _).trans (execute_grows he)
    · obtain rfl := Except.ok.inj he
      exact hphase _
  | send t i arg w =>
    simp only [step] at he
    split at he
    · obtain rfl := Except.ok.inj he
      exact .refl l s
    · exact invoke_grows he
  | shutdown t i =>
    simp only [step] at he
    split at he
    · obtain rfl := Except.ok.inj he
      exact .refl l s
    · exact invoke_grows he
  | store m =>
    obtain rfl := Except.ok.inj he
    exact grows_of_loops rfl (List.prefix_refl _)

theorem endsRound_of_ne {lb : Label} (hl : ∀ k, lb ≠ .loop l k) : s.endsRound l lb = false := by
  cases lb with
  | loop l' k =>
    have hne : l' ≠ l := by
      rintro rfl
      exact hl k rfl
    simp [endsRound, hne]
  | _ => rfl

/-- **A step executes a waiting task or lets it wait no longer than it would have.** The end of a round
takes one round off. -/
theorem step_lag {lb : Label} {m : Member} (hm : member task = some m)
    (hwait : task ∈ (s.loops l).pending) (he : s.step lb = .ok s') :
    .called m (.loop l) task.captured ∈ s'.log ∨
      (task ∈ (s'.loops l).pending ∧
        s'.lag l task + (if s.endsRound l lb then 1 else 0) ≤ s.lag l task) := by
  by_cases hl : ∀ k, lb ≠ .loop l k
  · obtain ⟨hwait', hlag⟩ := (step_grows hl he).waits hwait
    rw [endsRound_of_ne hl]
    exact Or.inr ⟨hwait', by simp [hlag]⟩
  · push Not at hl
    obtain ⟨k, rfl⟩ := hl
    have hends : s.endsRound l (.loop l k) = decide ((s.loops l).phase = .executing []) := by
      simp [endsRound]
    have hself : ∀ p, (s.setPhase l p).loops l = { s.loops l with phase := p } :=
      fun p => Function.update_self ..
    rw [hends]
    unfold Loop.pending at hwait
    simp only [step, loopStep] at he
    split at he
    · rename_i hp
      obtain rfl := Except.ok.inj he
      right
      rw [hp] at hwait
      refine ⟨?_, ?_⟩
      · rw [hself]
        exact hwait
      · rw [lag_of_not_executing (by simp [hself]), lag_of_not_executing (by simp [hp])]
        simp [hp]
    · rename_i x xs hp
      right
      rw [hp] at hwait
      have hwait₁ : task ∈ ((s.setPhase l (.handling xs)).loops l).pending := by
        rw [hself]
        exact hwait
      obtain ⟨hwait', hlag⟩ := (handle_grows he).waits hwait₁
      refine ⟨hwait', ?_⟩
      rw [hlag, lag_of_not_executing (by simp [hself]), lag_of_not_executing (by simp [hp])]
      simp [hp]
    · rename_i hp
      obtain rfl := Except.ok.inj he
      right
      rw [hp] at hwait
      have hbatch : task ∈ ((s.swapTasks l).loops l).phase.tasks := by
        unfold swapTasks
        simp only [Function.update_self]
        exact hwait
      refine ⟨List.mem_append_left _ hbatch, ?_⟩
      rw [lag_of_batch hbatch, lag_of_not_executing (by simp [hp])]
      simp [hp]
    · rename_i task₀ tasks hp
      by_cases hhead : task₀ = task
      · subst hhead
        exact Or.inl (execute_logs hm he)
      · right
        rw [hp] at hwait
        have hwait₁ : task ∈ ((s.setPhase l (.executing tasks)).loops l).pending := by
          rw [hself]
          exact (List.mem_cons.mp hwait).resolve_left (Ne.symm hhead)
        obtain ⟨hwait', hlag⟩ := (execute_grows he).waits hwait₁
        refine ⟨hwait', ?_⟩
        rw [hlag]
        by_cases hin : task ∈ tasks
        · rw [lag_of_batch (by rw [hself]; exact hin)]
          have hpos : 1 ≤ s.lag l task := lag_pos s l task
          simpa [hp] using hpos
        · have hout : task ∉ task₀ :: tasks := by simp [hin, Ne.symm hhead]
          rw [lag_of_executing (by rw [hself]) hin, lag_of_executing hp hout]
          simp [hp]
    · rename_i hp
      obtain rfl := Except.ok.inj he
      right
      rw [hp] at hwait
      refine ⟨?_, ?_⟩
      · rw [hself]
        exact hwait
      · rw [lag_of_not_executing (by simp [hself]), lag_of_executing hp List.not_mem_nil]
        simp [hp]

/-! ## Runs -/

theorem run_log {labels : List Label} (hI : Inv cfg s none) (hrun : run step s labels = .ok s') :
    s.log <+: s'.log := by
  induction labels generalizing s with
  | nil =>
    obtain rfl := Except.ok.inj hrun
    exact List.prefix_refl _
  | cons lb labels ih =>
    obtain ⟨s₁, he, hrun⟩ := run_cons_inv hrun
    obtain ⟨hI₁, new, hlog, -⟩ := step_inv hI he
    exact (List.prefix_iff_exists_append_eq.mpr ⟨new, hlog.symm⟩).trans (ih hI₁ hrun)

theorem run_inv {labels : List Label} (hI : Inv cfg s none) (hrun : run step s labels = .ok s') :
    Inv cfg s' none :=
  run_preserves (I := fun s => Inv cfg s none) (fun hI he => (step_inv hI he).1) hI hrun

/-- Along a run a task is executed, or its lag is smaller by the rounds that ended. -/
theorem run_lag {labels : List Label} {m : Member} (hm : member task = some m) (hI : Inv cfg s none)
    (hwait : task ∈ (s.loops l).pending) (hrun : run step s labels = .ok s') :
    .called m (.loop l) task.captured ∈ s'.log ∨ s'.lag l task + rounds l s labels ≤ s.lag l task := by
  induction labels generalizing s with
  | nil =>
    obtain rfl := Except.ok.inj hrun
    exact Or.inr (Nat.le_refl _)
  | cons lb labels ih =>
    obtain ⟨s₁, he, hrun⟩ := run_cons_inv hrun
    have hI₁ := (step_inv hI he).1
    rcases step_lag hm hwait he with hdone | ⟨hwait₁, hlag⟩
    · exact Or.inl ((run_log hI₁ hrun).subset hdone)
    · refine (ih hI₁ hwait₁ hrun).imp_right fun hlag' => ?_
      simp only [rounds, he]
      omega

/-- **In two rounds a waiting task is executed.** -/
theorem executed_in_two_rounds {labels : List Label} {m : Member} (hm : member task = some m)
    (hI : Inv cfg s none) (hwait : task ∈ (s.loops l).pending) (hrun : run step s labels = .ok s')
    (htwo : 2 ≤ rounds l s labels) : .called m (.loop l) task.captured ∈ s'.log := by
  refine (run_lag hm hI hwait hrun).resolve_right fun hlag => ?_
  have hle := lag_le_two s l task
  have hpos := lag_pos s' l task
  omega

/-- The task of the next stage waits on its loop. -/
theorem At.waits (hat : At s none id c n) (hnext : nextTask id c.loop n = some (l, task)) :
    task ∈ (s.loops l).pending := by
  obtain ⟨hmoves, hcap, -⟩ := nextTask_spec hnext
  have htoken := hat.token l task hmoves hcap
  rw [if_pos hnext] at htoken
  unfold tokens at htoken
  simp only [reduceCtorEq, if_false, Nat.add_zero] at htoken
  exact List.count_pos_iff.mp (by omega)

/-- The functions that were called say how far the connection is. -/
theorem At.called_iff (hat : At s none id c n) {m : Member} :
    .called m t id ∈ s.log ↔ (m, t) ∈ (script c.loop).take n := by
  rw [← hat.log, mem_milestones]

/-- A later stage, on the same loop. -/
theorem At.later (hat : At s none id c n) (hn : 0 < n) (hI' : Inv cfg s' none) (hlog : s.log <+: s'.log) :
    ∃ c' n', At s' none id c' n' ∧ c'.loop = c.loop ∧ n ≤ n' := by
  have hpre : (script c.loop).take n <+: milestones id s'.log := by
    rw [← hat.log]
    exact hlog.filterMap _
  have hle := hat.le
  have hlt : id < s'.accepted := by
    by_contra hge
    rw [hI'.unseen id (Nat.le_of_not_lt hge)] at hpre
    have hlen := hpre.length_le
    simp only [List.length_take, script, List.length_cons, List.length_nil] at hlen
    omega
  obtain ⟨c', -, -, n', hat'⟩ := hI'.conn id hlt
  rw [hat'.log] at hpre
  have hlen := hpre.length_le
  simp only [List.length_take, script, List.length_cons, List.length_nil] at hlen
  have hnn : n ≤ n' := by omega
  refine ⟨c', n', hat', ?_, hnn⟩
  -- both begin with `connectionEstablished` on the loop
  obtain ⟨k, rfl⟩ := Nat.exists_eq_succ_of_ne_zero (Nat.ne_of_gt hn)
  obtain ⟨k', rfl⟩ := Nat.exists_eq_succ_of_ne_zero (show n' ≠ 0 by omega)
  have hfirst := (List.cons_prefix_cons.mp hpre).1
  exact (ThreadId.loop.inj (Prod.mk.inj hfirst).2).symm

/-- **The life cycle does not stall.** Whatever else happens, an accepted connection is established by
the time its loop has ended two rounds; and a closed one is destroyed by the time the base loop has
ended two rounds and then its own loop two. -/
theorem stages_complete {labels : List Label} (h : Reachable cfg s) (hc : s.conns id = some c)
    (hrun : run step s labels = .ok s') :
    (2 ≤ rounds c.loop s labels → .called .connectionEstablished (.loop c.loop) id ∈ s'.log) ∧
      ∀ t before after s₁, .called .handleClose t id ∈ s.log → labels = before ++ after →
        run step s before = .ok s₁ → 2 ≤ rounds baseLoop s before → 2 ≤ rounds c.loop s₁ after →
          .called .connectionDestroyed (.loop c.loop) id ∈ s'.log := by
  have hI := reachable_inv h
  obtain ⟨-, n, hat⟩ := hI.at hc
  refine ⟨fun htwo => ?_, ?_⟩
  · cases n with
    | zero => exact executed_in_two_rounds rfl hI (hat.waits rfl) hrun htwo
    | succ n => exact (run_log hI hrun).subset (hat.called_iff.mpr List.mem_cons_self)
  · rintro t before after s₁ hclosed rfl hbefore hbase hown
    have hafter : run step s₁ after = .ok s' := by
      rw [← run_append hbefore]
      exact hrun
    have hI₁ := run_inv hI hbefore
    have hn : 2 ≤ n := by
      by_contra hlt
      have hmem := hat.called_iff.mp hclosed
      have hfew : n = 0 ∨ n = 1 := by omega
      rcases hfew with rfl | rfl <;> simp [script] at hmem
    obtain ⟨c₁, n₁, hat₁, hloop, hle⟩ := hat.later (by omega) hI₁ (run_log hI hbefore)
    have hthree : 3 ≤ n₁ := by
      by_contra hlt
      obtain rfl : n = 2 := by omega
      obtain rfl : n₁ = 2 := by omega
      have hremoved := executed_in_two_rounds rfl hI (hat.waits rfl) hbefore hbase
      have hmem := hat₁.called_iff.mp hremoved
      simp [script] at hmem
    have hfour := hat₁.le
    rw [← hloop] at hown ⊢
    by_cases hdone : n₁ = 4
    · subst hdone
      exact (run_log hI₁ hafter).subset (hat₁.called_iff.mpr (by simp [script]))
    · obtain rfl : n₁ = 3 := by omega
      exact executed_in_two_rounds rfl hI₁ (hat₁.waits rfl) hafter hown

/-- A connection comes, for the worker. -/
def acceptOne : List Label := [turn 0 [.acceptor] none, turn 0 [] none]

/-- The worker ends two rounds: it establishes the connection in the first. -/
def workerRounds : List Label := List.replicate 7 (turn 1 [] none)

/-- The peer closes. -/
def thenClosed : List Label :=
  acceptOne ++ workerRounds ++ [turn 1 [.fd 7 .read] none, turn 1 [] (some [])]

/-- Two rounds of a loop that is about to swap its queue out, with one task in it. -/
def twoRounds (l : LoopId) : List Label := List.replicate 6 (turn l [] none)

theorem stages_complete_thenClosed :
    (∃ s s', run step (start echoConfig) acceptOne = .ok s ∧ run step s workerRounds = .ok s' ∧
      .called .connectionEstablished (.loop 1) 0 ∈ s'.log) ∧
    ∃ s s', run step (start echoConfig) thenClosed = .ok s ∧
      run step s (twoRounds 0 ++ twoRounds 1) = .ok s' ∧
      .called .connectionDestroyed (.loop 1) 0 ∈ s'.log := by
  constructor
  · obtain ⟨s, hs, hloop, s', hs', htwo⟩ : ∃ s, run step (start echoConfig) acceptOne = .ok s ∧
        (s.conns 0).map (fun c => c.loop) = some 1 ∧ ∃ s', run step s workerRounds = .ok s' ∧
          2 ≤ rounds 1 s workerRounds := by decide +kernel
    obtain ⟨c, hc, hl⟩ := Option.map_eq_some_iff.mp hloop
    have hcomplete := (stages_complete ⟨acceptOne, hs⟩ hc hs').1
    rw [hl] at hcomplete
    exact ⟨s, s', hs, hs', hcomplete htwo⟩
  · obtain ⟨s, hs, ⟨hloop, hclosed⟩, s₁, hs₁, hbase, s', hs', hown⟩ :
        ∃ s, run step (start echoConfig) thenClosed = .ok s ∧
          ((s.conns 0).map (fun c => c.loop) = some 1 ∧ .called .handleClose (.loop 1) 0 ∈ s.log) ∧
          ∃ s₁, run step s (twoRounds 0) = .ok s₁ ∧ 2 ≤ rounds 0 s (twoRounds 0) ∧
            ∃ s', run step s₁ (twoRounds 1) = .ok s' ∧ 2 ≤ rounds 1 s₁ (twoRounds 1) := by
      decide +kernel
    obtain ⟨c, hc, hl⟩ := Option.map_eq_some_iff.mp hloop
    have hrun : run step s (twoRounds 0 ++ twoRounds 1) = .ok s' := by
      rw [run_append hs₁]
      exact hs'
    have hcomplete := (stages_complete ⟨thenClosed, hs⟩ hc hrun).2
    rw [hl] at hcomplete
    exact ⟨s, s', hs, hrun, hcomplete _ _ _ s₁ hclosed rfl hs₁ hbase hown⟩

end HyperMuduo.Net.TcpServer.World
