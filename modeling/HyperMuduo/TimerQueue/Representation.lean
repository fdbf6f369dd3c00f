import HyperMuduo.Lib.PartialMap
import HyperMuduo.TimerQueue.System

/-!
# The two structures of a timer queue agree

`timers_` and `timer_queue_` drift apart on purpose: `cancelTimer` leaves its entry in the queue, and a
batch takes entries out before their timers are looked up. The invariant `Inv` says what is left of the
correspondence at every step:

* the entries in the queue, those of the batch not looked up yet and the callback that runs have
  distinct sequence numbers (`numbers`);
* every timer in the map has its entry in the queue or in the rest of the batch, or its callback runs;
* a number waits to be inserted (`waiting`) at most once, and was never inserted before.

**`timer_queue_representation`**: whenever the loop is outside `handleExpiredTimers_`, every timer in
the map has exactly one entry in the queue, at its expiration, and no number occurs twice.
-/

namespace HyperMuduo.Net.TimerQueue

open HyperMuduo.Lib

/-! ## What the operations leave alone -/

@[simp] theorem entry_sequence (t : Timer) : Entry.sequence t.entry = t.sequence := rfl

@[simp] theorem entry_time (t : Timer) : Entry.time t.entry = t.expiration := rfl

theorem resetTimerFd_timers (q : TimerQueue) (now : Int) :
    (q.resetTimerFd now).timers = q.timers := by
  unfold resetTimerFd
  split <;> rfl

theorem resetTimerFd_timerQueue (q : TimerQueue) (now : Int) :
    (q.resetTimerFd now).timerQueue = q.timerQueue := by
  unfold resetTimerFd
  split <;> rfl

theorem insert_timers (q : TimerQueue) (now : Int) (t : Timer) :
    (q.insert now t).timers = Function.update q.timers t.sequence (some t) := by
  unfold insert
  dsimp only
  split
  · rw [resetTimerFd_timers]
  · rfl

theorem insert_timerQueue (q : TimerQueue) (now : Int) (t : Timer) :
    (q.insert now t).timerQueue = q.timerQueue.emplace t.entry := by
  unfold insert
  dsimp only
  split
  · rw [resetTimerFd_timerQueue]
  · rfl

/-- What follows a callback: nothing for a timer that was cancelled, a new expiration for one that
repeats, and the end of one that does not. -/
theorem rearm_cases (q : TimerQueue) (now : Int) (n : Nat) :
    (q.timers n = none ∧ q.rearm now n = q) ∨
      (∃ t, q.timers n = some t ∧ t.isRepeated = true ∧
        q.rearm now n =
          { q with
            timers := Function.update q.timers n (some (t.restart now))
            timerQueue := q.timerQueue.emplace (toLex ((t.restart now).expiration, n)) }) ∨
      (∃ t, q.timers n = some t ∧ t.isRepeated = false ∧
        q.rearm now n = { q with timers := Function.update q.timers n none }) := by
  unfold rearm
  cases hn : q.timers n with
  | none => exact Or.inl ⟨rfl, rfl⟩
  | some t =>
    refine Or.inr ?_
    by_cases hrep : t.isRepeated = true
    · exact Or.inl ⟨t, rfl, hrep, by simp [hrep]⟩
    · exact Or.inr ⟨t, rfl, by simpa using hrep, by simp [hrep]⟩

theorem rearm_none {q : TimerQueue} {m : Nat} (h : q.timers m = none) (now : Int) (n : Nat) :
    (q.rearm now n).timers m = none := by
  rcases rearm_cases q now n with ⟨-, heq⟩ | ⟨timer, hn, -, heq⟩ | ⟨timer, -, -, heq⟩
  · rw [heq]
    exact h
  · rw [heq]
    have hne : m ≠ n := by
      rintro rfl
      rw [h] at hn
      exact absurd hn (by simp)
    change Function.update q.timers n _ m = none
    rw [Function.update_of_ne hne]
    exact h
  · rw [heq]
    exact update_none_of_none n h

/-! ## The invariant -/

/-- The callback that runs. -/
def Phase.current : Phase → List Nat
  | .running n _ => [n]
  | _ => []

/-- The sequence number an insertion on the queue waits with. -/
def Task.waiting : Task → Option Nat
  | .insert timer => some timer.sequence
  | .cancel _ => none

/-- The sequence number an event inserts. -/
def Event.insertion : Event → Option Nat
  | .inserted timer => some timer.sequence
  | _ => none

/-- The sequence numbers that were inserted. -/
def insertions (log : List Event) : List Nat := log.filterMap Event.insertion

theorem insertions_append {log new : List Event} {n : Nat} (h : n ∈ insertions log) :
    n ∈ insertions (log ++ new) := by
  unfold insertions at h ⊢
  rw [List.filterMap_append]
  exact List.mem_append_left _ h

theorem insertions_concat {log : List Event} {e : Event} (he : e.insertion = none) :
    insertions (log ++ [e]) = insertions log := by
  simp [insertions, he]

namespace Sys

/-- The entries of the queue and of the rest of the batch. -/
def outstanding (s : Sys) : List Entry := s.queue.timerQueue.elems ++ s.phase.rest

def numbers (s : Sys) : List Nat := s.outstanding.map Entry.sequence ++ s.phase.current

/-- The numbers taken by calls of `addTimer` whose closure has not run. -/
def waiting (s : Sys) : List Nat :=
  s.inFlight.map Timer.sequence ++ s.taskQueue.filterMap Task.waiting

structure Inv (s : Sys) : Prop where
  nodup : s.numbers.Nodup
  held : ∀ n timer, s.queue.timers n = some timer →
    timer.sequence = n ∧ (timer.entry ∈ s.outstanding ∨ n ∈ s.phase.current)
  known : ∀ n ∈ s.numbers, n ∈ insertions s.log
  once : s.waiting.Nodup
  unknown : ∀ n ∈ s.waiting, n ∉ insertions s.log
  below : ∀ n, n ∈ insertions s.log ∨ n ∈ s.waiting → n < s.counter

theorem start_inv (loop : LoopId) (now : Nat) : (Sys.start loop now).Inv where
  nodup := by simp [numbers, outstanding, Sys.start, TimerQueue.empty, PriorityQueue.empty,
    Phase.rest, Phase.current]
  held := by simp [Sys.start, TimerQueue.empty]
  known := by simp [numbers, outstanding, Sys.start, TimerQueue.empty, PriorityQueue.empty,
    Phase.rest, Phase.current]
  once := by simp [waiting, Sys.start]
  unknown := by simp [waiting, Sys.start]
  below := by simp [waiting, Sys.start, insertions]

variable {s s' : Sys}

theorem Inv.known_of_held (h : s.Inv) {n : Nat} {timer : Timer}
    (hn : s.queue.timers n = some timer) : n ∈ insertions s.log := by
  obtain ⟨hseq, hmem | hmem⟩ := h.held n timer hn
  · refine h.known n (List.mem_append_left _ ?_)
    rw [← hseq]
    exact List.mem_map_of_mem hmem
  · exact h.known n (List.mem_append_right _ hmem)

/-- Steps that leave the queue, the batch and the waiting numbers alone. -/
theorem Inv.frame (h : s.Inv) (htimers : s'.queue.timers = s.queue.timers)
    (hqueue : s'.queue.timerQueue = s.queue.timerQueue) (hphase : s'.phase = s.phase)
    (hwaiting : s'.waiting = s.waiting) (hlog : insertions s'.log = insertions s.log)
    (hcounter : s.counter ≤ s'.counter) : s'.Inv where
  nodup := by
    unfold numbers outstanding
    rw [hqueue, hphase]
    exact h.nodup
  held := by
    unfold outstanding
    rw [htimers, hqueue, hphase]
    exact h.held
  known := by
    unfold numbers outstanding
    rw [hqueue, hphase, hlog]
    exact h.known
  once := by rw [hwaiting]; exact h.once
  unknown := by rw [hwaiting, hlog]; exact h.unknown
  below := by
    intro n hn
    rw [hwaiting, hlog] at hn
    exact lt_of_lt_of_le (h.below n hn) hcounter

/-! ## The closures -/

/-- The closure of `addTimer` runs with a number that was not inserted before. -/
theorem insert_inv {timer : Timer} (h : s.Inv) (hnew : timer.sequence ∉ insertions s.log)
    (hwait : timer.sequence ∉ s.waiting) (hbelow : timer.sequence < s.counter) :
    (s.insert timer).Inv := by
  have hperm : (s.insert timer).numbers.Perm (timer.sequence :: s.numbers) := by
    unfold numbers outstanding insert record
    rw [insert_timerQueue]
    have hemplace := PriorityQueue.emplace_perm s.queue.timerQueue timer.entry
    exact ((hemplace.append_right _).map Entry.sequence).append_right _
  have hlog : insertions (s.insert timer).log = insertions s.log ++ [timer.sequence] := by
    simp [insert, record, insertions, Event.insertion]
  refine
    { nodup := ?_
      held := ?_
      known := ?_
      once := h.once
      unknown := ?_
      below := ?_ }
  · rw [hperm.nodup_iff, List.nodup_cons]
    exact ⟨fun hmem => hnew (h.known _ hmem), h.nodup⟩
  · intro n t ht
    change (s.queue.insert s.now timer).timers n = some t at ht
    rw [insert_timers] at ht
    unfold outstanding insert record
    rw [insert_timerQueue]
    rcases update_some_inv ht with ⟨rfl, rfl⟩ | ⟨-, hold⟩
    · exact ⟨rfl, Or.inl (List.mem_append_left _ (PriorityQueue.mem_emplace.mpr (Or.inl rfl)))⟩
    · obtain ⟨hseq, hmem | hmem⟩ := h.held n t hold
      · refine ⟨hseq, Or.inl ?_⟩
        rcases List.mem_append.mp hmem with hq | hr
        · exact List.mem_append_left _ (PriorityQueue.mem_emplace.mpr (Or.inr hq))
        · exact List.mem_append_right _ hr
      · exact ⟨hseq, Or.inr hmem⟩
  · intro n hn
    rw [hlog]
    rcases List.mem_cons.mp (hperm.mem_iff.mp hn) with rfl | hmem
    · simp
    · exact List.mem_append_left _ (h.known n hmem)
  · intro n hn hmem
    rw [hlog] at hmem
    rcases List.mem_append.mp hmem with hold | hself
    · exact h.unknown n hn hold
    · rw [List.mem_singleton.mp hself] at hn
      exact hwait hn
  · intro n hn
    rw [hlog] at hn
    rcases hn with hmem | hmem
    · rcases List.mem_append.mp hmem with hold | hself
      · exact h.below n (Or.inl hold)
      · rw [List.mem_singleton.mp hself]
        exact hbelow
    · exact h.below n (Or.inr hmem)

theorem Inv.record {e : Event} (h : s.Inv) (he : e.insertion = none) : (s.record e).Inv :=
  h.frame rfl rfl rfl rfl (insertions_concat he) (le_refl _)

/-- Timers leave the map. -/
theorem Inv.erase (h : s.Inv) (id : Nat) : ({ s with queue := s.queue.cancel id } : Sys).Inv where
  nodup := h.nodup
  held := by
    intro n t ht
    exact h.held n t (update_none_inv ht).2
  known := h.known
  once := h.once
  unknown := h.unknown
  below := h.below

/-- The closure of `cancelTimer` runs. -/
theorem cancel_inv (h : s.Inv) (id : Nat) : (s.cancel id).Inv := (h.erase id).record rfl

/-! ## Calls -/

/-- The next number waits nowhere, and was not inserted. -/
theorem Inv.counter_new (h : s.Inv) : s.counter ∉ insertions s.log ∧ s.counter ∉ s.waiting := by
  constructor
  · intro hmem
    exact absurd (h.below _ (Or.inl hmem)) (Nat.lt_irrefl _)
  · intro hmem
    exact absurd (h.below _ (Or.inr hmem)) (Nat.lt_irrefl _)

theorem addTimer_inv (h : s.Inv) (t : ThreadId) (tp interval : Int) :
    (s.addTimer t tp interval).Inv := by
  obtain ⟨hnew, hwait⟩ := h.counter_new
  have hnext : ({ s with counter := s.counter + 1 } : Sys).Inv :=
    h.frame rfl rfl rfl rfl rfl (Nat.le_succ _)
  unfold addTimer
  dsimp only
  split
  · exact (insert_inv hnext hnew hwait (Nat.lt_succ_self _)).record rfl
  · refine ⟨hnext.nodup, hnext.held, hnext.known, ?_, ?_, ?_⟩
    · have hperm : (s.inFlight.map Timer.sequence ++ [s.counter] ++
          s.taskQueue.filterMap Task.waiting).Perm (s.counter :: s.waiting) := by
        rw [List.append_assoc]
        exact List.perm_middle
      unfold waiting
      rw [List.map_append]
      exact hperm.nodup_iff.mpr (List.nodup_cons.mpr ⟨hwait, h.once⟩)
    · intro n hn
      unfold waiting at hn
      simp only [List.map_append, List.map_cons, List.map_nil, List.mem_append,
        List.mem_singleton] at hn
      rcases hn with (hn | rfl) | hn
      · exact h.unknown n (List.mem_append_left _ hn)
      · exact hnew
      · exact h.unknown n (List.mem_append_right _ hn)
    · rintro n (hn | hn)
      · exact Nat.lt_succ_of_lt (h.below n (Or.inl hn))
      · unfold waiting at hn
        simp only [List.map_append, List.map_cons, List.map_nil, List.mem_append,
          List.mem_singleton] at hn
        rcases hn with (hn | rfl) | hn
        · exact Nat.lt_succ_of_lt (h.below n (Or.inr (List.mem_append_left _ hn)))
        · exact Nat.lt_succ_self _
        · exact Nat.lt_succ_of_lt (h.below n (Or.inr (List.mem_append_right _ hn)))

/-- Calls in flight wait as closures on the queue do. -/
theorem Inv.wait_perm (h : s.Inv) (hqueue : s'.queue = s.queue) (hphase : s'.phase = s.phase)
    (hperm : s'.waiting.Perm s.waiting) (hlog : insertions s'.log = insertions s.log)
    (hcounter : s'.counter = s.counter) : s'.Inv where
  nodup := by
    unfold numbers outstanding
    rw [hqueue, hphase]
    exact h.nodup
  held := by
    unfold outstanding
    rw [hqueue, hphase]
    exact h.held
  known := by
    unfold numbers outstanding
    rw [hqueue, hphase, hlog]
    exact h.known
  once := hperm.nodup_iff.mpr h.once
  unknown := by
    intro n hn
    rw [hlog]
    exact h.unknown n (hperm.mem_iff.mp hn)
  below := by
    intro n hn
    rw [hlog, hperm.mem_iff] at hn
    rw [hcounter]
    exact h.below n hn

/-- A call in flight that pushes its closure goes on waiting. -/
theorem push_waiting (i : Nat) : (s.push i).waiting.Perm s.waiting := by
  unfold push
  split
  · exact List.Perm.refl _
  · rename_i timer hi
    obtain ⟨hlt, hget⟩ := List.getElem?_eq_some_iff.mp hi
    have herase : (timer :: s.inFlight.eraseIdx i).Perm s.inFlight := by
      have hmem : timer ∈ s.inFlight := List.mem_of_getElem? hi
      have hidx := List.erase_getElem hlt
      rw [hget] at hidx
      exact (hidx.symm.cons timer).trans (List.perm_cons_erase hmem).symm
    unfold waiting record
    simp only [List.filterMap_append]
    have hmoved : ((s.inFlight.eraseIdx i).map Timer.sequence ++
        s.taskQueue.filterMap Task.waiting ++ [timer.sequence]).Perm
        (timer.sequence :: ((s.inFlight.eraseIdx i).map Timer.sequence ++
          s.taskQueue.filterMap Task.waiting)) := List.perm_append_singleton _ _
    rw [← List.append_assoc]
    exact hmoved.trans ((herase.map Timer.sequence).append_right _)

theorem push_inv (h : s.Inv) (i : Nat) : (s.push i).Inv := by
  have hperm := push_waiting (s := s) i
  unfold push at hperm ⊢
  split
  · exact h
  · rename_i timer hi
    rw [hi] at hperm
    exact h.wait_perm rfl rfl hperm (insertions_concat rfl) rfl

theorem cancelTimer_inv (h : s.Inv) (t : ThreadId) (id : Nat) : (s.cancelTimer t id).Inv := by
  have hcalled : (s.record (.cancelCalled id)).Inv := h.record rfl
  unfold cancelTimer
  dsimp only
  split
  · exact cancel_inv hcalled id
  · refine hcalled.frame rfl rfl rfl ?_ rfl (le_refl _)
    simp [waiting, Task.waiting]

/-- The number a closure waits with leaves the waiting numbers when the closure is taken. -/
theorem waiting_dequeue {task : Task} {tasks : List Task} (hqueue : s.taskQueue = task :: tasks) :
    s.waiting.Perm (task.waiting.toList ++ ({ s with taskQueue := tasks } : Sys).waiting) := by
  unfold waiting
  rw [hqueue]
  cases task with
  | insert timer => exact List.perm_middle
  | cancel id => exact List.Perm.refl _

theorem Inv.dequeue {task : Task} {tasks : List Task} (h : s.Inv)
    (hqueue : s.taskQueue = task :: tasks) : ({ s with taskQueue := tasks } : Sys).Inv := by
  have hwaiting := waiting_dequeue hqueue
  have hsub : ∀ n ∈ ({ s with taskQueue := tasks } : Sys).waiting, n ∈ s.waiting :=
    fun n hn => hwaiting.mem_iff.mpr (List.mem_append_right _ hn)
  exact
    { nodup := h.nodup
      held := h.held
      known := h.known
      once := (List.nodup_append.mp (hwaiting.nodup_iff.mp h.once)).2.1
      unknown := fun n hn => h.unknown n (hsub n hn)
      below := fun n hn => h.below n (hn.imp_right (hsub n)) }

theorem runTask_inv {task : Task} {tasks : List Task} (h : s.Inv)
    (hqueue : s.taskQueue = task :: tasks) : ({ s with taskQueue := tasks }.execute task).Inv := by
  have hwaiting := waiting_dequeue hqueue
  cases task with
  | insert timer =>
    have hmem : timer.sequence ∈ s.waiting := hwaiting.mem_iff.mpr (by simp [Task.waiting])
    refine insert_inv (h.dequeue hqueue) (h.unknown _ hmem) ?_ (h.below _ (Or.inr hmem))
    have hnodup := hwaiting.nodup_iff.mp h.once
    exact (List.nodup_cons.mp hnodup).1
  | cancel id => exact cancel_inv (h.dequeue hqueue) id

/-! ## `handleExpiredTimers_` -/

/-- The numbers may be permuted, and a number may be dropped whose timer is not in the map. -/
theorem Inv.regroup (h : s.Inv) (hnumbers : s'.numbers.Subperm s.numbers)
    (hheld : ∀ n timer, s'.queue.timers n = some timer →
      timer.sequence = n ∧ (timer.entry ∈ s'.outstanding ∨ n ∈ s'.phase.current))
    (hwaiting : s'.waiting = s.waiting) (hlog : insertions s'.log = insertions s.log)
    (hcounter : s'.counter = s.counter) : s'.Inv where
  nodup := by
    obtain ⟨l, hperm, hsub⟩ := hnumbers
    exact hperm.nodup_iff.mp (h.nodup.sublist hsub)
  held := hheld
  known := by
    intro n hn
    rw [hlog]
    exact h.known n (hnumbers.subset hn)
  once := by rw [hwaiting]; exact h.once
  unknown := by rw [hwaiting, hlog]; exact h.unknown
  below := by rw [hwaiting, hlog, hcounter]; exact h.below

theorem handleExpiredTimers_inv (h : s.Inv) (hidle : s.phase = .idle) :
    s.handleExpiredTimers.Inv := by
  unfold handleExpiredTimers
  split
  · -- the batch and the rest of the queue are the queue
    have hsplit := s.queue.timerQueue.popWhile_append fun e => e.time ≤ s.now
    have hperm : ((s.queue.takeExpired s.now).2.timerQueue.elems ++
        (s.queue.takeExpired s.now).1).Perm s.outstanding := by
      unfold outstanding
      rw [hidle]
      simp only [Phase.rest, List.append_nil]
      rw [← hsplit]
      exact List.perm_append_comm
    refine h.regroup ?_ ?_ rfl (insertions_concat rfl) rfl
    · have hnumbers : s.numbers = s.outstanding.map Entry.sequence := by
        unfold numbers
        rw [hidle]
        simp [Phase.current]
      rw [hnumbers]
      simp only [numbers, outstanding, record, Phase.rest, Phase.current, List.append_nil]
      exact (hperm.map Entry.sequence).subperm
    · intro n timer hn
      obtain ⟨hseq, hmem | hmem⟩ := h.held n timer hn
      · exact ⟨hseq, Or.inl (hperm.mem_iff.mpr hmem)⟩
      · rw [hidle] at hmem
        exact absurd hmem (by simp [Phase.current])
  · exact h

theorem next_inv (h : s.Inv) : s.next.Inv := by
  unfold next
  split
  case h_1 hphase =>
    have hqueue := resetTimerFd_timerQueue s.queue s.now
    refine h.regroup ?_ ?_ rfl rfl rfl
    · simp only [numbers, outstanding, hqueue, hphase, Phase.rest, Phase.current]
      exact List.Subperm.refl _
    · intro n timer hn
      rw [resetTimerFd_timers] at hn
      have hheld := h.held n timer hn
      unfold outstanding at hheld ⊢
      rw [hqueue]
      rw [hphase] at hheld
      exact hheld
  case h_2 e rest hphase =>
    have hout : s.outstanding = s.queue.timerQueue.elems ++ e :: rest := by
      unfold outstanding
      rw [hphase]
      rfl
    have hnumbers : s.numbers.Perm
        (e.sequence :: (s.queue.timerQueue.elems ++ rest).map Entry.sequence) := by
      unfold numbers
      rw [hout, hphase]
      simp only [Phase.current, List.append_nil]
      exact List.perm_middle.map Entry.sequence
    have hrest : ∀ timer : Timer, timer.entry ∈ s.outstanding → timer.sequence ≠ e.sequence →
        timer.entry ∈ s.queue.timerQueue.elems ++ rest := by
      intro timer hmem hne
      rw [hout] at hmem
      rcases List.mem_cons.mp (List.perm_middle.mem_iff.mp hmem) with heq | hmem
      · exact absurd (congrArg Entry.sequence heq) hne
      · exact hmem
    split
    · -- a cancelled timer: its entry is dropped
      rename_i hnone
      refine h.regroup ?_ ?_ rfl rfl rfl
      · refine List.Subperm.trans ?_ hnumbers.symm.subperm
        simp only [numbers, outstanding, Phase.rest, Phase.current, List.append_nil]
        exact (List.sublist_cons_self _ _).subperm
      · intro n timer hn
        obtain ⟨hseq, hmem | hmem⟩ := h.held n timer hn
        · refine ⟨hseq, Or.inl (hrest timer hmem ?_)⟩
          intro heq
          rw [← heq, hseq, hn] at hnone
          exact absurd hnone (by simp)
        · rw [hphase] at hmem
          exact absurd hmem (by simp [Phase.current])
    · -- its callback starts
      refine h.regroup ?_ ?_ rfl (insertions_concat rfl) rfl
      · refine List.Subperm.trans ?_ hnumbers.symm.subperm
        simp only [numbers, outstanding, record, Phase.rest, Phase.current]
        exact (List.perm_append_singleton _ _).subperm
      · intro n timer hn
        obtain ⟨hseq, hmem | hmem⟩ := h.held n timer hn
        · by_cases heq : timer.sequence = e.sequence
          · exact ⟨hseq, Or.inr (by rw [← hseq, heq]; exact List.mem_singleton_self _)⟩
          · exact ⟨hseq, Or.inl (hrest timer hmem heq)⟩
        · rw [hphase] at hmem
          exact absurd hmem (by simp [Phase.current])
  case h_3 => exact h

theorem callbackReturns_inv (h : s.Inv) : s.callbackReturns.Inv := by
  unfold callbackReturns
  split
  · rename_i n rest hphase
    have hnumbers : s.numbers =
        (s.queue.timerQueue.elems ++ rest).map Entry.sequence ++ [n] := by
      unfold numbers outstanding
      rw [hphase]
      rfl
    -- a timer other than the one that ran keeps its entry
    have hother : ∀ m timer, s.queue.timers m = some timer → m ≠ n →
        timer.sequence = m ∧ timer.entry ∈ s.queue.timerQueue.elems ++ rest := by
      intro m timer hm hne
      obtain ⟨hseq, hmem | hmem⟩ := h.held m timer hm
      · unfold outstanding at hmem
        rw [hphase] at hmem
        exact ⟨hseq, hmem⟩
      · rw [hphase] at hmem
        exact absurd (List.mem_singleton.mp hmem) hne
    rcases rearm_cases s.queue s.now n with ⟨hnone, heq⟩ | ⟨timer, hn, -, heq⟩ | ⟨timer, hn, -, heq⟩
    · rw [heq]
      refine h.regroup ?_ ?_ rfl rfl rfl
      · rw [hnumbers]
        simp only [numbers, outstanding, Phase.rest, Phase.current, List.append_nil]
        exact (List.sublist_append_left _ _).subperm
      · intro m timer hm
        have hne : m ≠ n := by
          rintro rfl
          rw [hnone] at hm
          exact absurd hm (by simp)
        obtain ⟨hseq, hmem⟩ := hother m timer hm hne
        exact ⟨hseq, Or.inl hmem⟩
    · rw [heq]
      have hseq : timer.sequence = n := (h.held n timer hn).1
      have hself : toLex ((timer.restart s.now).expiration, n) = (timer.restart s.now).entry := by
        unfold Timer.restart
        split <;> rw [← hseq] <;> rfl
      have hemplace := PriorityQueue.emplace_perm s.queue.timerQueue
        (toLex ((timer.restart s.now).expiration, n))
      refine h.regroup ?_ ?_ rfl rfl rfl
      · rw [hnumbers]
        simp only [numbers, outstanding, Phase.rest, Phase.current, List.append_nil]
        refine (((hemplace.append_right rest).map Entry.sequence).trans ?_).subperm
        exact (List.perm_append_singleton n _).symm
      · intro m timer' hm
        rcases update_some_inv hm with ⟨rfl, rfl⟩ | ⟨hne, hold⟩
        · refine ⟨?_, Or.inl (List.mem_append_left _ (PriorityQueue.mem_emplace.mpr (Or.inl hself.symm)))⟩
          unfold Timer.restart
          split <;> exact hseq
        · obtain ⟨hseq', hmem⟩ := hother m timer' hold hne
          refine ⟨hseq', Or.inl ?_⟩
          rcases List.mem_append.mp hmem with hq | hr
          · exact List.mem_append_left _ (PriorityQueue.mem_emplace.mpr (Or.inr hq))
          · exact List.mem_append_right _ hr
    · rw [heq]
      refine h.regroup ?_ ?_ rfl rfl rfl
      · rw [hnumbers]
        simp only [numbers, outstanding, Phase.rest, Phase.current, List.append_nil]
        exact (List.sublist_append_left _ _).subperm
      · intro m timer' hm
        obtain ⟨hne, hold⟩ := update_none_inv hm
        obtain ⟨hseq', hmem⟩ := hother m timer' hold hne
        exact ⟨hseq', Or.inl hmem⟩
  · exact h

/-! ## Runs -/

theorem step_inv {l : Label} (h : s.Inv) (hs : s.step l = .ok s') : s'.Inv := by
  cases l with
  | addTimer t tp interval =>
    obtain rfl := Except.ok.inj hs
    split
    · exact addTimer_inv h t tp interval
    · exact h
  | push i =>
    obtain rfl := Except.ok.inj hs
    exact push_inv h i
  | cancelTimer t id =>
    obtain rfl := Except.ok.inj hs
    split
    · exact cancelTimer_inv h t id
    · exact h
  | runTask =>
    simp only [step] at hs
    split at hs
    · rename_i hqueue
      obtain rfl := Except.ok.inj hs
      exact runTask_inv h hqueue
    · obtain rfl := Except.ok.inj hs
      exact h
  | handleExpiredTimers =>
    obtain rfl := Except.ok.inj hs
    split
    · rename_i hidle
      exact handleExpiredTimers_inv h hidle
    · exact h
  | next =>
    obtain rfl := Except.ok.inj hs
    exact next_inv h
  | callbackReturns =>
    obtain rfl := Except.ok.inj hs
    exact callbackReturns_inv h
  | elapse ns =>
    obtain rfl := Except.ok.inj hs
    exact h.frame rfl rfl rfl rfl rfl (le_refl _)
  | otherLoop =>
    obtain rfl := Except.ok.inj hs
    exact h.frame rfl rfl rfl rfl rfl (Nat.le_succ _)

theorem run_inv {loop : LoopId} {now : Nat} {ls : List Label}
    (h : run step (Sys.start loop now) ls = .ok s) : s.Inv :=
  run_preserves step_inv (start_inv loop now) h

end Sys

/-- The map and the queue agree. -/
structure Representation (q : TimerQueue) : Prop where
  one : ∀ n timer, q.timers n = some timer → (q.timerQueue.elems.map Entry.sequence).count n = 1
  time : ∀ n timer, q.timers n = some timer →
    ∀ e ∈ q.timerQueue.elems, e.sequence = n → e.time = timer.expiration
  nodup : (q.timerQueue.elems.map Entry.sequence).Nodup

namespace Sys

/-- **The representation invariant of a timer queue**, in every state of every run in which the loop
is outside `handleExpiredTimers_`. -/
theorem timer_queue_representation {loop : LoopId} {now : Nat} {ls : List Label} {s : Sys}
    (h : run step (Sys.start loop now) ls = .ok s) (hidle : s.phase = .idle) :
    Representation s.queue := by
  have hI := run_inv h
  have hnumbers : s.numbers = s.queue.timerQueue.elems.map Entry.sequence := by
    simp [numbers, outstanding, hidle, Phase.rest, Phase.current]
  have hnodup : (s.queue.timerQueue.elems.map Entry.sequence).Nodup := by
    rw [← hnumbers]
    exact hI.nodup
  have hentry : ∀ n timer, s.queue.timers n = some timer →
      timer.sequence = n ∧ timer.entry ∈ s.queue.timerQueue.elems := by
    intro n timer hn
    obtain ⟨hseq, hmem | hmem⟩ := hI.held n timer hn
    · simp only [outstanding, hidle, Phase.rest, List.append_nil] at hmem
      exact ⟨hseq, hmem⟩
    · rw [hidle] at hmem
      exact absurd hmem (by simp [Phase.current])
  refine ⟨?_, ?_, hnodup⟩
  · intro n timer hn
    obtain ⟨rfl, hmem⟩ := hentry n timer hn
    exact List.count_eq_one_of_mem hnodup (List.mem_map_of_mem hmem)
  · intro n timer hn e he hseq
    obtain ⟨rfl, hmem⟩ := hentry n timer hn
    have heq := List.inj_on_of_nodup_map hnodup he hmem hseq
    rw [heq]
    rfl

/-- A repeating timer and another expire in one batch; the callback of the first cancels the second and
adds a third. -/
def cancelInCallback : List Label :=
  [.addTimer (.loop 0) 10 5, .addTimer (.loop 0) 20 0, .elapse 30, .handleExpiredTimers, .next,
    .cancelTimer (.loop 0) 1, .addTimer (.loop 0) 40 0, .callbackReturns, .next, .next]

theorem timer_queue_representation_cancelInCallback :
    ∃ s, run step (Sys.start 0 0) cancelInCallback = .ok s ∧
      (s.phase = .idle ∧ s.queue.timerQueue.elems = [toLex (40, 2), toLex (5000030, 0)]) ∧
      Representation s.queue := by
  have hrun : ∃ s, run step (Sys.start 0 0) cancelInCallback = .ok s ∧
      (s.phase = .idle ∧ s.queue.timerQueue.elems = [toLex (40, 2), toLex (5000030, 0)]) := by
    decide +kernel
  obtain ⟨s, hs, hidle, helems⟩ := hrun
  exact ⟨s, hs, ⟨hidle, helems⟩, timer_queue_representation hs hidle⟩

end Sys

end HyperMuduo.Net.TimerQueue
