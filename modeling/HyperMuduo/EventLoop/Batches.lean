import HyperMuduo.EventLoop.TaskQueue

/-!
# What is in a batch

`executePendingTasks` swaps the whole queue out, so a batch is what was pushed since the swap before. A
task is executed in the batch that begins next after its push: not in the one that executes when it is
pushed, and not in a later one.

**`batches_exact`**: when a batch is done, it has executed the tasks that were pushed between its swap
and the one before, each once and in the order of the pushes, whichever threads, handlers and tasks
pushed them.
-/

namespace HyperMuduo.Net.EventLoop

open HyperMuduo.Lib

variable {τ : Type}

/-- The tasks executed in the `n`-th batch, in the order of their execution. -/
def executedIn (n : Nat) (log : List (Entry τ)) : List (Queued τ) :=
  log.filterMap fun
    | .executed _ q batch => if batch = n then some q else none
    | _ => none

/-- When every task is executed in the batch after its push, the batches divide what was executed. -/
theorem executedIn_eq {log : List (Entry τ)}
    (h : ∀ t q batch, Entry.executed t q batch ∈ log → batch = q.batches + 1) (n : Nat) :
    executedIn (n + 1) log = (executions log).filter fun q => q.batches = n := by
  induction log with
  | nil => rfl
  | cons e log ih =>
    have ih := ih fun t q batch hmem => h t q batch (List.mem_cons_of_mem e hmem)
    unfold executedIn executions at ih ⊢
    cases e with
    | executed t q batch =>
      obtain rfl := h t q batch List.mem_cons_self
      by_cases hq : q.batches = n
      · simp [hq, ih]
      · simp [hq, ih]
    | pushed q => simpa using ih
    | called t task => simpa using ih

namespace Sys

variable {s s' : Sys τ} {t : ThreadId}

/-- The invariant: the queue was pushed since the last swap, the batch in progress before it. -/
structure Batched (s : Sys τ) : Prop where
  queue : ∀ q ∈ s.taskQueue, q.batches = s.batches
  rest : ∀ q ∈ s.phase.rest, q.batches + 1 = s.batches
  executed : ∀ t q batch, Entry.executed t q batch ∈ s.log → batch = q.batches + 1

theorem start_batched (loop : LoopId) : (Sys.start loop : Sys τ).Batched where
  queue := by simp [Sys.start]
  rest := by simp [Sys.start, Phase.rest]
  executed := by simp [Sys.start]

/-- Steps that leave the queue and the batch alone, and log no execution. -/
theorem Batched.frame (h : s.Batched) (hqueue : s'.taskQueue = s.taskQueue)
    (hrest : s'.phase.rest = s.phase.rest) (hbatches : s'.batches = s.batches)
    (hlog : ∀ t q batch, Entry.executed t q batch ∈ s'.log → Entry.executed t q batch ∈ s.log) :
    s'.Batched where
  queue := by rw [hqueue, hbatches]; exact h.queue
  rest := by rw [hrest, hbatches]; exact h.rest
  executed t q batch hmem := h.executed t q batch (hlog t q batch hmem)

theorem push_batched (h : s.Batched) (task : τ) : (s.push t task).Batched where
  queue := by
    intro q hq
    rcases List.mem_append.mp hq with hold | hnew
    · exact h.queue q hold
    · rw [List.mem_singleton.mp hnew]
      rfl
  rest := h.rest
  executed := by simpa [push] using h.executed

theorem advance_batched (h : s.Batched) (ready : List Ready) : (s.advance ready).Batched := by
  unfold advance
  split
  case h_1 => exact h
  case h_2 hphase =>
    split <;> exact h.frame rfl (by rw [hphase]; rfl) rfl fun _ _ _ hmem => hmem
  case h_3 hphase =>
    split
    · exact h
    · exact h.frame rfl (by rw [hphase]; rfl) rfl fun _ _ _ hmem => hmem
  case h_4 x xs hphase =>
    cases x <;> exact h.frame rfl (by rw [hphase]; rfl) rfl fun _ _ _ hmem => hmem
  case h_5 hphase => exact h.frame rfl (by rw [hphase]; rfl) rfl fun _ _ _ hmem => hmem
  case h_6 hphase =>
    exact
      { queue := by simp
        rest := fun q hq => congrArg (· + 1) (h.queue q hq)
        executed := h.executed }
  case h_7 q qs hphase =>
    have hrest := h.rest
    rw [hphase] at hrest
    refine ⟨h.queue, fun x hx => hrest x (List.mem_cons_of_mem q hx), ?_⟩
    intro t x batch hx
    rcases List.mem_append.mp hx with hold | hnew
    · exact h.executed t x batch hold
    · obtain ⟨-, rfl, rfl⟩ := Entry.executed.inj (List.mem_singleton.mp hnew)
      exact (hrest x List.mem_cons_self).symm
  case h_8 hphase => exact h.frame rfl (by rw [hphase]; rfl) rfl fun _ _ _ hmem => hmem

theorem proceed_batched (h : s.Batched) (p : Pending) : (s.proceed t p).Batched := by
  cases p with
  | queueInLoop =>
    simp only [proceed]
    split
    · exact h.frame rfl rfl rfl fun _ _ _ hmem => hmem
    · exact h
  | quit =>
    simp only [proceed]
    split
    · exact h
    · exact h.frame rfl rfl rfl fun _ _ _ hmem => hmem

theorem step_batched {l : Label τ} (h : s.Batched) (hs : s.step l = .ok s') : s'.Batched := by
  cases l with
  | loop t =>
    simp only [step] at hs
    split at hs
    · rename_i hfree
      have hout : s.phase.rest = [] := by
        cases hphase : s.phase <;> simp [hphase, Phase.isOutside] at hfree
        rfl
      unfold enter at hs
      split at hs
      · obtain rfl := Except.ok.inj hs
        exact h.frame rfl rfl rfl fun _ _ _ hmem => hmem
      · obtain ⟨_, -, hs⟩ := bind_ok_inv hs
        obtain rfl := Except.ok.inj hs
        exact h.frame rfl (by rw [hout]; rfl) rfl fun _ _ _ hmem => hmem
    · obtain rfl := Except.ok.inj hs
      exact h
  | advance ready =>
    obtain rfl := Except.ok.inj hs
    split
    · exact advance_batched h ready
    · exact h
  | queueInLoop t task =>
    obtain rfl := Except.ok.inj hs
    split
    · exact push_batched h task
    · exact h
  | runInLoop t task =>
    obtain rfl := Except.ok.inj hs
    split
    · split
      · exact h.frame rfl rfl rfl fun _ _ _ hmem => by simpa using hmem
      · exact push_batched h task
    · exact h
  | quit t =>
    obtain rfl := Except.ok.inj hs
    split
    · exact h.frame rfl rfl rfl fun _ _ _ hmem => hmem
    · exact h
  | proceed t =>
    simp only [step] at hs
    split at hs
    · obtain rfl := Except.ok.inj hs
      exact h
    · rename_i p hp
      obtain rfl := Except.ok.inj hs
      have hcleared : ({ s with pending := Function.update s.pending t none } : Sys τ).Batched :=
        h.frame rfl rfl rfl fun _ _ _ hmem => hmem
      exact proceed_batched hcleared p

/-- The `n`-th batch is done. -/
def BatchDone (s : Sys τ) (n : Nat) : Prop := n < s.batches ∨ n = s.batches ∧ s.phase.rest = []

instance [DecidableEq τ] (s : Sys τ) (n : Nat) : Decidable (s.BatchDone n) :=
  inferInstanceAs (Decidable (_ ∨ _ ∧ _))

/-- **A batch is what was pushed since the swap before.** In every run, a batch that is done has
executed the tasks pushed while it was the next to begin, in the order of the pushes. -/
theorem batches_exact {loop : LoopId} {ls : List (Label τ)}
    (h : run step (Sys.start loop) ls = .ok s) {n : Nat} (hdone : s.BatchDone (n + 1)) :
    executedIn (n + 1) s.log = (pushes s.log).filter fun q => q.batches = n := by
  have hB : s.Batched := run_preserves step_batched (start_batched loop) h
  have hO : s.Ordered := run_preserves step_ordered (start_ordered loop) h
  have hqueue : s.taskQueue.filter (fun q => q.batches = n) = [] := by
    rw [List.filter_eq_nil_iff]
    intro q hq
    have hb := hB.queue q hq
    rcases hdone with hlt | ⟨heq, -⟩ <;> simp <;> omega
  have hrest : s.phase.rest.filter (fun q => q.batches = n) = [] := by
    rcases hdone with hlt | ⟨-, hnone⟩
    · rw [List.filter_eq_nil_iff]
      intro q hq
      have hb := hB.rest q hq
      simp
      omega
    · rw [hnone]
      rfl
  rw [executedIn_eq hB.executed, ← hO.order, List.filter_append, List.filter_append, hqueue, hrest]
  simp

/-- The task that `a` queues while its batch executes is the second batch. -/
theorem batches_exact_queuedTwice :
    ∃ s, run step (Sys.start 0) queuedTwice = .ok s ∧
      executedIn 1 s.log = [⟨'a', 0, 0⟩] ∧
      executedIn 2 s.log = (pushes s.log).filter fun q => q.batches = 1 := by
  have hrun : ∃ s, run step (Sys.start 0) queuedTwice = .ok s ∧
      (executedIn 1 s.log = [⟨'a', 0, 0⟩] ∧ s.BatchDone 2) := by decide +kernel
  obtain ⟨s, hs, hfirst, hdone⟩ := hrun
  exact ⟨s, hs, hfirst, batches_exact hs hdone⟩

end Sys

end HyperMuduo.Net.EventLoop
