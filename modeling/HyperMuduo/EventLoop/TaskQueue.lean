import HyperMuduo.Lib.PartialMap
import HyperMuduo.EventLoop.Loop

/-!
# The task queue of a loop: order, and no lost wakeup

Two results about every run of the system of `EventLoop/Loop`, with any number of threads that queue
tasks, and tasks and handlers that queue tasks themselves:

* **`task_queue_fifo`**: what was executed from the queue, what is left of the batch in progress and
  what is on the queue are, in this order, what was pushed. Every task from the queue runs on the loop
  thread, and in a batch later than the one that was executing when it was pushed.
* **`no_lost_wakeup`**: whenever the loop thread is at `poll` with a task on the queue that was pushed
  since this `loop()` call began, the eventfd is readable or another thread is about to write it.

`queueInLoop` on the loop thread wakes the loop up only while tasks are processed. That is enough
because a task a handler pushes is swapped out before the next `poll`: the invariant `Watched` asks for
a wakeup from the swap to the next `poll`, and for nothing while handlers run.
-/

namespace HyperMuduo.Net.EventLoop

open HyperMuduo.Lib

variable {τ : Type}

/-- The tasks that were pushed, in the order of their pushes. -/
def pushes (log : List (Entry τ)) : List (Queued τ) :=
  log.filterMap fun
    | .pushed q => some q
    | _ => none

/-- The tasks that were executed from the queue, in the order of their execution. -/
def executions (log : List (Entry τ)) : List (Queued τ) :=
  log.filterMap fun
    | .executed _ q _ => some q
    | _ => none

@[simp] theorem pushes_append (log log' : List (Entry τ)) :
    pushes (log ++ log') = pushes log ++ pushes log' := List.filterMap_append

@[simp] theorem executions_append (log log' : List (Entry τ)) :
    executions (log ++ log') = executions log ++ executions log' := List.filterMap_append

/-- From the swap to the next `poll`. -/
def Phase.watched : Phase τ → Bool
  | .testing | .polling | .executing _ => true
  | _ => false

namespace Sys

/-! ## Order -/

/-- The queue executes what is pushed: in order, once, on the loop thread, in a later batch. -/
structure ExactlyOnceFifo (s : Sys τ) : Prop where
  order : executions s.log ++ s.phase.rest ++ s.taskQueue = pushes s.log
  thread : ∀ t q batch, Entry.executed t q batch ∈ s.log → t = .loop s.loop
  later : ∀ t q batch, Entry.executed t q batch ∈ s.log → q.batches < batch

/-- The invariant: also, the batch in progress was pushed before it began. -/
structure Ordered (s : Sys τ) : Prop extends ExactlyOnceFifo s where
  runner : s.runner = .loop s.loop
  rest : ∀ q ∈ s.phase.rest, q.batches < s.batches
  queue : ∀ q ∈ s.taskQueue, q.batches ≤ s.batches

theorem start_ordered (loop : LoopId) : (Sys.start loop : Sys τ).Ordered where
  order := rfl
  thread := by simp [Sys.start]
  later := by simp [Sys.start]
  runner := rfl
  rest := by simp [Sys.start, Phase.rest]
  queue := by simp [Sys.start]

variable {s s' : Sys τ} {t : ThreadId}

theorem push_ordered (h : s.Ordered) (task : τ) : (s.push t task).Ordered where
  order := by
    simp only [push, pushes_append, executions_append]
    rw [← h.order]
    simp [executions, pushes]
  thread := by simpa [push] using h.thread
  later := by simpa [push] using h.later
  runner := h.runner
  rest := h.rest
  queue := by
    intro q hq
    rcases List.mem_append.mp hq with hold | hnew
    · exact h.queue q hold
    · rw [List.mem_singleton.mp hnew]
      exact Nat.le_refl s.batches

/-- Steps that leave the queue, the batch and the log alone. -/
theorem Ordered.frame (h : s.Ordered) (hloop : s'.loop = s.loop) (hrunner : s'.runner = s.runner)
    (hqueue : s'.taskQueue = s.taskQueue) (hrest : s'.phase.rest = s.phase.rest)
    (hbatches : s'.batches = s.batches) (hlog : s'.log = s.log) : s'.Ordered where
  order := by rw [hlog, hrest, hqueue]; exact h.order
  thread := by rw [hlog, hloop]; exact h.thread
  later := by rw [hlog]; exact h.later
  runner := by rw [hrunner, hloop]; exact h.runner
  rest := by rw [hrest, hbatches]; exact h.rest
  queue := by rw [hqueue, hbatches]; exact h.queue

theorem proceed_ordered (h : s.Ordered) (p : Pending) : (s.proceed t p).Ordered := by
  cases p with
  | queueInLoop =>
    simp only [proceed]
    split
    · exact h.frame rfl rfl rfl rfl rfl rfl
    · exact h
  | quit =>
    simp only [proceed]
    split
    · exact h
    · exact h.frame rfl rfl rfl rfl rfl rfl

theorem advance_ordered (h : s.Ordered) (ready : List Ready) : (s.advance ready).Ordered := by
  unfold advance
  split
  case h_1 => exact h
  case h_2 hphase =>
    split <;> exact h.frame rfl rfl rfl (by rw [hphase]; rfl) rfl rfl
  case h_3 hphase =>
    split
    · exact h
    · exact h.frame rfl rfl rfl (by rw [hphase]; rfl) rfl rfl
  case h_4 x xs hphase =>
    cases x <;> exact h.frame rfl rfl rfl (by rw [hphase]; rfl) rfl rfl
  case h_5 hphase => exact h.frame rfl rfl rfl (by rw [hphase]; rfl) rfl rfl
  case h_6 hphase =>
    have horder := h.order
    rw [hphase] at horder
    exact
      { order := by simpa [Phase.rest] using horder
        thread := h.thread
        later := h.later
        runner := h.runner
        rest := fun q hq => Nat.lt_succ_of_le (h.queue q hq)
        queue := by simp }
  case h_7 q qs hphase =>
    have horder := h.order
    have hrest := h.rest
    rw [hphase] at horder hrest
    refine
      { order := ?_
        thread := ?_
        later := ?_
        runner := h.runner
        rest := fun x hx => hrest x (List.mem_cons_of_mem q hx)
        queue := h.queue }
    · rw [pushes_append, executions_append]
      simpa [executions, pushes, Phase.rest] using horder
    · intro t x batch hx
      rcases List.mem_append.mp hx with hold | hnew
      · exact h.thread t x batch hold
      · obtain ⟨rfl, -, -⟩ := Entry.executed.inj (List.mem_singleton.mp hnew)
        exact h.runner
    · intro t x batch hx
      rcases List.mem_append.mp hx with hold | hnew
      · exact h.later t x batch hold
      · obtain ⟨-, rfl, rfl⟩ := Entry.executed.inj (List.mem_singleton.mp hnew)
        exact hrest x List.mem_cons_self
  case h_8 hphase => exact h.frame rfl rfl rfl (by rw [hphase]; rfl) rfl rfl

theorem step_ordered {l : Label τ} (h : s.Ordered) (hs : s.step l = .ok s') : s'.Ordered := by
  cases l with
  | loop t =>
    simp only [step] at hs
    split at hs
    · rename_i hfree
      have hout : s.phase.rest = [] := by
        cases hphase : s.phase <;> simp [hphase, Phase.isOutside] at hfree
        rfl
      unfold enter at hs
      split at hs
      · obtain rfl := Except.ok.inj hs
        exact ⟨⟨h.order, h.thread, h.later⟩, h.runner, h.rest, h.queue⟩
      · obtain ⟨_, hthread, hs⟩ := bind_ok_inv hs
        obtain rfl := Except.ok.inj hs
        exact
          { order := by
              have horder := h.order
              rw [hout] at horder
              exact horder
            thread := h.thread
            later := h.later
            runner := of_decide_eq_true (assert_inv hthread)
            rest := by simp [Phase.rest]
            queue := h.queue }
    · obtain rfl := Except.ok.inj hs
      exact h
  | advance ready =>
    obtain rfl := Except.ok.inj hs
    split
    · exact advance_ordered h ready
    · exact h
  | queueInLoop t task =>
    obtain rfl := Except.ok.inj hs
    split
    · exact push_ordered h task
    · exact h
  | runInLoop t task =>
    obtain rfl := Except.ok.inj hs
    split
    · split
      · exact
          { order := by simpa [executions, pushes] using h.order
            thread := by simpa using h.thread
            later := by simpa using h.later
            runner := h.runner
            rest := h.rest
            queue := h.queue }
      · exact push_ordered h task
    · exact h
  | quit t =>
    obtain rfl := Except.ok.inj hs
    split
    · exact h.frame rfl rfl rfl rfl rfl rfl
    · exact h
  | proceed t =>
    simp only [step] at hs
    split at hs
    · obtain rfl := Except.ok.inj hs
      exact h
    · rename_i p hp
      obtain rfl := Except.ok.inj hs
      have hcleared : ({ s with pending := Function.update s.pending t none } : Sys τ).Ordered :=
        h.frame rfl rfl rfl rfl rfl rfl
      exact proceed_ordered hcleared p

/-- **The task queue is an exactly-once FIFO**, in every state of every run. -/
theorem task_queue_fifo {loop : LoopId} {ls : List (Label τ)}
    (h : run step (Sys.start loop) ls = .ok s) : s.ExactlyOnceFifo :=
  (run_preserves step_ordered (start_ordered loop) h).toExactlyOnceFifo

/-- Loop `0`: thread `1` queues `a`; the task queues `b` while its batch executes. -/
def queuedTwice : List (Label Char) :=
  [.queueInLoop (.user 1) 'a', .proceed (.user 1), .loop (.loop 0), .advance [], .advance [.wakeup],
    .advance [], .advance [], .advance [], .advance [], .queueInLoop (.loop 0) 'b',
    .proceed (.loop 0), .advance [], .advance [], .advance [.wakeup], .advance [], .advance [],
    .advance [], .advance []]

theorem task_queue_fifo_queuedTwice :
    ∃ s, run step (Sys.start 0) queuedTwice = .ok s ∧
      s.log = [.pushed ⟨'a', 0, 0⟩, .executed (.loop 0) ⟨'a', 0, 0⟩ 1, .pushed ⟨'b', 1, 1⟩,
        .executed (.loop 0) ⟨'b', 1, 1⟩ 2] ∧ s.ExactlyOnceFifo := by
  have hrun : ∃ s, run step (Sys.start 0) queuedTwice = .ok s ∧
      s.log = [.pushed ⟨'a', 0, 0⟩, .executed (.loop 0) ⟨'a', 0, 0⟩ 1, .pushed ⟨'b', 1, 1⟩,
        .executed (.loop 0) ⟨'b', 1, 1⟩ 2] := by decide +kernel
  obtain ⟨s, hs, hlog⟩ := hrun
  exact ⟨s, hs, hlog, task_queue_fifo hs⟩

/-! ## Wakeups -/

/-- A task on the queue was pushed since this `loop()` call began. -/
def HasFresh (s : Sys τ) : Prop := ∃ q ∈ s.taskQueue, q.loops = s.loops

/-- At `poll` with such a task: the eventfd is readable, or another thread is about to write it. -/
def NoLostWakeup (s : Sys τ) : Prop :=
  s.phase = .polling → s.HasFresh →
    0 < s.eventfd ∨ ∃ t, t ≠ .loop s.loop ∧ s.pending t = some .queueInLoop

/-- The invariant: where the loop may go to `poll` without another swap, a fresh task has its wakeup. -/
structure Watched (s : Sys τ) : Prop where
  runner : s.runner = .loop s.loop
  stamps : ∀ q ∈ s.taskQueue, q.loops ≤ s.loops
  idle : s.phase.user = false → s.pending (.loop s.loop) = none
  processing : ∀ tasks, s.phase = .executing tasks → s.isProcessingTasks = true
  swapping : s.phase = .swapping → s.isProcessingTasks = true
  wakeup : s.phase.watched = true → s.HasFresh →
    0 < s.eventfd ∨ ∃ t, s.pending t = some .queueInLoop

theorem Watched.noLostWakeup (h : s.Watched) : s.NoLostWakeup := by
  intro hphase hfresh
  rcases h.wakeup (by rw [hphase]; rfl) hfresh with hpos | ⟨t, ht⟩
  · exact Or.inl hpos
  · refine Or.inr ⟨t, ?_, ht⟩
    rintro rfl
    rw [h.idle (by rw [hphase]; rfl)] at ht
    exact absurd ht (by simp)

theorem start_watched (loop : LoopId) : (Sys.start loop : Sys τ).Watched where
  runner := rfl
  stamps := by simp [Sys.start]
  idle := by simp [Sys.start]
  processing := by simp [Sys.start]
  swapping := by simp [Sys.start]
  wakeup := by simp [Sys.start, Phase.watched]

/-- A thread that may begin a call is not the loop thread in `poll`. -/
theorem ne_of_free (hfree : s.free t = true) (huser : s.phase.user = false) :
    ThreadId.loop s.loop ≠ t := by
  rintro rfl
  simp [free, huser] at hfree

theorem push_watched (h : s.Watched) (hfree : s.free t = true) (task : τ) :
    (s.push t task).Watched where
  runner := h.runner
  stamps := by
    intro q hq
    rcases List.mem_append.mp hq with hold | hnew
    · exact h.stamps q hold
    · rw [List.mem_singleton.mp hnew]
      exact Nat.le_refl s.loops
  idle := by
    intro huser
    change Function.update s.pending t _ (.loop s.loop) = none
    rw [Function.update_of_ne (ne_of_free hfree huser)]
    exact h.idle huser
  processing := h.processing
  swapping := h.swapping
  wakeup := fun _ _ => Or.inr ⟨t, Function.update_self ..⟩

/-- The rest of a call: what it takes away from `pending` it gives to the eventfd. -/
theorem proceed_watched {p : Pending} (h : s.Watched) (hp : s.pending t = some p) :
    ({ s with pending := Function.update s.pending t none }.proceed t p).Watched := by
  have hidle : s.phase.user = false → Function.update s.pending t none (.loop s.loop) = none := by
    intro huser
    exact update_none_of_none t (h.idle huser)
  cases p with
  | queueInLoop =>
    simp only [proceed]
    split
    · exact ⟨h.runner, h.stamps, hidle, h.processing, h.swapping, fun _ _ => Or.inl (Nat.succ_pos _)⟩
    · -- the loop thread, while no task is processed: not from the swap to `poll`
      rename_i hno
      refine ⟨h.runner, h.stamps, hidle, h.processing, h.swapping, ?_⟩
      intro hwatched
      exfalso
      obtain ⟨hin, hflag⟩ : isInLoopThread s.loop t = true ∧ s.isProcessingTasks = false := by
        simpa using hno
      have ht : t = .loop s.loop := of_decide_eq_true hin
      cases hphase : s.phase with
      | outside | dispatching | swapping =>
        change s.phase.watched = true at hwatched
        rw [hphase] at hwatched
        exact absurd hwatched (by simp [Phase.watched])
      | testing | polling =>
        have hnone := h.idle (by rw [hphase]; rfl)
        rw [← ht, hp] at hnone
        exact absurd hnone (by simp)
      | executing tasks =>
        rw [h.processing tasks hphase] at hflag
        exact absurd hflag (by simp)
  | quit =>
    have hwakeup : s.phase.watched = true → s.HasFresh → 0 < s.eventfd ∨
        ∃ t', Function.update s.pending t none t' = some Pending.queueInLoop := by
      intro hwatched hfresh
      rcases h.wakeup hwatched hfresh with hpos | ⟨t', ht'⟩
      · exact Or.inl hpos
      · refine Or.inr ⟨t', ?_⟩
        have hne : t' ≠ t := by
          rintro rfl
          rw [hp] at ht'
          exact absurd ht' (by simp)
        rw [Function.update_of_ne hne]
        exact ht'
    simp only [proceed]
    split
    · exact ⟨h.runner, h.stamps, hidle, h.processing, h.swapping, hwakeup⟩
    · exact ⟨h.runner, h.stamps, hidle, h.processing, h.swapping,
        fun _ _ => Or.inl (Nat.succ_pos _)⟩

theorem advance_watched (h : s.Watched) (hnone : s.pending s.runner = none) (ready : List Ready) :
    (s.advance ready).Watched := by
  rw [h.runner] at hnone
  unfold advance
  split
  case h_1 => exact h
  case h_2 hphase =>
    have hwakeup := h.wakeup (by rw [hphase]; rfl)
    split
    · exact ⟨h.runner, h.stamps, fun _ => hnone, by simp, by simp, by simp [Phase.watched]⟩
    · exact ⟨h.runner, h.stamps, fun _ => hnone, by simp, by simp, fun _ => hwakeup⟩
  case h_3 hphase =>
    split
    · exact h
    · exact ⟨h.runner, h.stamps, fun _ => hnone, by simp, by simp, by simp [Phase.watched]⟩
  case h_4 x xs hphase =>
    cases x <;>
      exact ⟨h.runner, h.stamps, fun _ => hnone, by simp [handleEvent], by simp [handleEvent],
        by simp [handleEvent, Phase.watched]⟩
  case h_5 hphase =>
    exact ⟨h.runner, h.stamps, fun _ => hnone, by simp, by simp, by simp [Phase.watched]⟩
  case h_6 hphase =>
    exact ⟨h.runner, by simp, fun _ => hnone, fun _ _ => h.swapping hphase, by simp,
      by simp [HasFresh]⟩
  case h_7 q qs hphase =>
    exact ⟨h.runner, h.stamps, fun _ => hnone, fun _ _ => h.processing _ hphase, by simp,
      fun _ => h.wakeup (by rw [hphase]; rfl)⟩
  case h_8 hphase =>
    exact ⟨h.runner, h.stamps, fun _ => hnone, by simp, by simp,
      fun _ => h.wakeup (by rw [hphase]; rfl)⟩

theorem step_watched {l : Label τ} (h : s.Watched) (hs : s.step l = .ok s') : s'.Watched := by
  cases l with
  | loop t =>
    simp only [step] at hs
    split at hs
    · rename_i hfree
      unfold enter at hs
      split at hs
      · obtain rfl := Except.ok.inj hs
        exact ⟨h.runner, h.stamps, h.idle, h.processing, h.swapping, h.wakeup⟩
      · obtain ⟨_, hthread, hs⟩ := bind_ok_inv hs
        obtain rfl := Except.ok.inj hs
        have ht : t = .loop s.loop := of_decide_eq_true (assert_inv hthread)
        refine ⟨ht, fun q hq => Nat.le_succ_of_le (h.stamps q hq), fun _ => ?_, by simp, by simp, ?_⟩
        · rw [Bool.and_eq_true, free, Bool.and_eq_true] at hfree
          subst ht
          simpa using hfree.1.1
        · -- what is on the queue was pushed before
          rintro - ⟨q, hq, hloops⟩
          have hle := h.stamps q hq
          change q.loops = s.loops + 1 at hloops
          omega
    · obtain rfl := Except.ok.inj hs
      exact h
  | advance ready =>
    obtain rfl := Except.ok.inj hs
    split
    · rename_i hnone
      exact advance_watched h (by simpa using hnone) ready
    · exact h
  | queueInLoop t task =>
    obtain rfl := Except.ok.inj hs
    split
    · rename_i hfree
      exact push_watched h hfree task
    · exact h
  | runInLoop t task =>
    obtain rfl := Except.ok.inj hs
    split
    · rename_i hfree
      split
      · exact ⟨h.runner, h.stamps, h.idle, h.processing, h.swapping, h.wakeup⟩
      · exact push_watched h hfree task
    · exact h
  | quit t =>
    obtain rfl := Except.ok.inj hs
    split
    · rename_i hfree
      have hnone : s.pending t = none := by
        simpa using (Bool.and_eq_true_iff.mp hfree).1
      refine ⟨h.runner, h.stamps, ?_, h.processing, h.swapping, ?_⟩
      · intro huser
        change Function.update s.pending t _ (.loop s.loop) = none
        rw [Function.update_of_ne (ne_of_free hfree huser)]
        exact h.idle huser
      · intro hwatched hfresh
        rcases h.wakeup hwatched hfresh with hpos | ⟨t', ht'⟩
        · exact Or.inl hpos
        · refine Or.inr ⟨t', ?_⟩
          have hne : t' ≠ t := by
            rintro rfl
            rw [hnone] at ht'
            exact absurd ht' (by simp)
          change Function.update s.pending t _ t' = some Pending.queueInLoop
          rw [Function.update_of_ne hne]
          exact ht'
    · exact h
  | proceed t =>
    simp only [step] at hs
    split at hs
    · obtain rfl := Except.ok.inj hs
      exact h
    · rename_i p hp
      obtain rfl := Except.ok.inj hs
      exact proceed_watched h hp

/-- **No wakeup is lost**, in every state of every run. -/
theorem no_lost_wakeup {loop : LoopId} {ls : List (Label τ)}
    (h : run step (Sys.start loop) ls = .ok s) : s.NoLostWakeup :=
  (run_preserves step_watched (start_watched loop) h).noLostWakeup

/-- The loop is at `poll`; thread `1` has pushed `a` and not written the eventfd yet. -/
def pushedAtPoll : List (Label Char) :=
  [.loop (.loop 0), .advance [], .queueInLoop (.user 1) 'a']

theorem no_lost_wakeup_pushedAtPoll :
    ∃ s, run step (Sys.start 0) pushedAtPoll = .ok s ∧
      (s.phase = .polling ∧ s.taskQueue = [⟨'a', 1, 0⟩] ∧ s.eventfd = 0) ∧ s.NoLostWakeup := by
  have hrun : ∃ s, run step (Sys.start 0) pushedAtPoll = .ok s ∧
      (s.phase = .polling ∧ s.taskQueue = [⟨'a', 1, 0⟩] ∧ s.eventfd = 0) := by
    decide +kernel
  obtain ⟨s, hs, hstate⟩ := hrun
  exact ⟨s, hs, hstate, no_lost_wakeup hs⟩

end Sys

end HyperMuduo.Net.EventLoop
