import HyperMuduo.TimerQueue.Representation

/-!
# The timerfd and the earliest timer

`Covers q now` says that the earliest entry of the queue will not be missed: the timerfd has an
expiration to read, or is armed no later than that entry or the present moment.

`resetTimerFd_` splits the time of the earliest entry into seconds and nanoseconds. A time at the epoch
of the clock is all zero, which disarms the timerfd; one before it has a negative part and is refused.
An entry like this at the top keeps every later `addTimer` from arming the timerfd too. Times after the
epoch are armed as they are (`settime_of_pos`), and:

* **`timerfd_covers`**: in every run in which every time point passed to `addTimer` is after the epoch,
  the timerfd covers the queue whenever the loop is outside `handleExpiredTimers_`.
* `addTimer_covers_iff`: after such a run, with no expiration left to read, a further timer leaves the
  queue covered exactly when its time point is after the epoch.
-/

namespace HyperMuduo.Net

open HyperMuduo.Lib

/-- A time after the epoch is armed as it is, and expires at once when it has passed. -/
theorem Timerfd.settime_of_pos {t : Int} (ht : 0 < t) (fd : Timerfd) (now : Int) :
    fd.settime now (t.tdiv nsPerSecond) (t - t.tdiv nsPerSecond * nsPerSecond) =
      if t ≤ now then ⟨none, true⟩ else ⟨some t, false⟩ := by
  have hdiv : t.tdiv nsPerSecond = t / nsPerSecond := Int.tdiv_eq_ediv_of_nonneg (le_of_lt ht)
  rw [hdiv]
  unfold Timerfd.settime nsPerSecond
  have hsum : t / 1000000000 * 1000000000 + (t - t / 1000000000 * 1000000000) = t := by omega
  rw [if_neg (by omega), if_neg (by omega), hsum]

/-- A time at or before the epoch leaves the timerfd disarmed, or as it was. -/
theorem Timerfd.settime_of_nonpos {t : Int} (ht : t ≤ 0) (fd : Timerfd) (now : Int) :
    fd.settime now (t.tdiv nsPerSecond) (t - t.tdiv nsPerSecond * nsPerSecond) =
      if t = 0 then disarmed else fd := by
  by_cases hzero : t = 0
  · subst hzero
    rfl
  · have hdiv : t.tdiv nsPerSecond = -(-t / nsPerSecond) := by
      rw [← Int.tdiv_eq_ediv_of_nonneg (by omega), Int.neg_tdiv, Int.neg_neg]
    rw [hdiv, if_neg hzero]
    unfold Timerfd.settime nsPerSecond
    rw [if_neg (by omega), if_pos (by omega)]

namespace TimerQueue

/-- The earliest entry is not missed. -/
def Covers (q : TimerQueue) (now : Int) : Prop :=
  ∀ e, q.timerQueue.top = some e →
    q.timerfd.unread = true ∨ ∃ a, q.timerfd.armed = some a ∧ a ≤ max now e.time

theorem resetTimerFd_timerfd {q : TimerQueue} {e : Entry} (h : q.timerQueue.top = some e)
    (now : Int) : (q.resetTimerFd now).timerfd =
      q.timerfd.settime now (e.time.tdiv nsPerSecond)
        (e.time - e.time.tdiv nsPerSecond * nsPerSecond) := by
  unfold resetTimerFd
  rw [h]

/-- `resetTimerFd_` covers a queue of times after the epoch. -/
theorem resetTimerFd_covers {q : TimerQueue} (hpos : ∀ e ∈ q.timerQueue.elems, 0 < e.time)
    (now : Int) : (q.resetTimerFd now).Covers now := by
  intro e he
  rw [resetTimerFd_timerQueue] at he
  rw [resetTimerFd_timerfd he, Timerfd.settime_of_pos (hpos e (List.mem_of_head? he))]
  split
  · exact Or.inl rfl
  · exact Or.inr ⟨e.time, rfl, le_max_right _ _⟩

/-- What it arms lies in the future. -/
theorem resetTimerFd_future {q : TimerQueue} {now a : Int}
    (hpos : ∀ e ∈ q.timerQueue.elems, 0 < e.time)
    (ha : (q.resetTimerFd now).timerfd.armed = some a) : now < a := by
  cases htop : q.timerQueue.top with
  | none =>
    unfold resetTimerFd at ha
    rw [htop] at ha
    exact absurd ha (by simp [Timerfd.settime, Timerfd.disarmed])
  | some e =>
    rw [resetTimerFd_timerfd htop, Timerfd.settime_of_pos (hpos e (List.mem_of_head? htop))] at ha
    split at ha
    · exact absurd ha (by simp)
    · rename_i hlate
      obtain rfl := Option.some.inj ha
      exact not_le.mp hlate

theorem elapse_covers {q : TimerQueue} {now now' : Int} (h : q.Covers now) (hle : now ≤ now') :
    ({ q with timerfd := q.timerfd.elapse now' } : TimerQueue).Covers now' := by
  intro e he
  unfold Timerfd.elapse
  rcases h e he with hunread | ⟨a, ha, hmax⟩
  · split
    · exact Or.inl hunread
    · split
      · exact Or.inl rfl
      · exact Or.inl hunread
  · rw [ha]
    dsimp only
    split
    · exact Or.inl rfl
    · exact Or.inr ⟨a, ha, le_trans hmax (max_le_max_right _ hle)⟩

theorem insert_covers {q : TimerQueue} {now : Int} {t : Timer} (h : q.Covers now)
    (hpos : ∀ e ∈ q.timerQueue.elems, 0 < e.time) (ht : 0 < t.expiration) :
    (q.insert now t).Covers now := by
  unfold insert
  dsimp only
  split
  · refine resetTimerFd_covers ?_ now
    intro e he
    rcases PriorityQueue.mem_emplace.mp he with rfl | hold
    · exact ht
    · exact hpos e hold
  · -- the top is the old one
    rename_i htop
    intro e he
    rcases PriorityQueue.top_emplace he with rfl | hold
    · exact absurd (by rw [he]; rfl) htop
    · exact h e hold

/-! ## Runs -/

namespace Sys

/-- The time points of the calls whose closure has not run. -/
def pendingTimes (s : Sys) : List Int :=
  s.inFlight.map Timer.expiration ++ s.taskQueue.filterMap fun
    | .insert timer => some timer.expiration
    | .cancel _ => none

/-- Every time is after the epoch, and the queue is covered outside `handleExpiredTimers_`. -/
structure Armed (s : Sys) : Prop where
  clock : 0 ≤ s.now
  entries : ∀ e ∈ s.queue.timerQueue.elems, 0 < e.time
  pending : ∀ t ∈ s.pendingTimes, 0 < t
  future : ∀ a, s.queue.timerfd.armed = some a → s.now < a
  covers : s.phase = .idle → s.queue.Covers s.now

theorem start_armed (loop : LoopId) (now : Nat) : (Sys.start loop now).Armed where
  clock := Int.natCast_nonneg now
  entries := by simp [Sys.start, TimerQueue.empty, PriorityQueue.empty]
  pending := by simp [Sys.start, pendingTimes]
  future := by simp [Sys.start, TimerQueue.empty, Timerfd.disarmed]
  covers := by
    intro _ e he
    exact absurd he (by simp [Sys.start, TimerQueue.empty, PriorityQueue.empty, PriorityQueue.top])

variable {s s' : Sys}

/-- Steps that leave the queue and its clock alone. -/
theorem Armed.frame (h : s.Armed) (hqueue : s'.queue = s.queue) (hnow : s'.now = s.now)
    (hphase : s'.phase = s.phase) (hpending : ∀ t ∈ s'.pendingTimes, 0 < t) : s'.Armed where
  clock := by rw [hnow]; exact h.clock
  entries := by rw [hqueue]; exact h.entries
  pending := hpending
  future := by rw [hqueue, hnow]; exact h.future
  covers := by rw [hqueue, hnow, hphase]; exact h.covers

theorem insert_armed {timer : Timer} (h : s.Armed) (ht : 0 < timer.expiration) :
    (s.insert timer).Armed := by
  have hentries : ∀ e ∈ (s.queue.timerQueue.emplace timer.entry).elems, 0 < e.time := by
    intro e he
    rcases PriorityQueue.mem_emplace.mp he with rfl | hold
    · exact ht
    · exact h.entries e hold
  refine
    { clock := h.clock
      entries := ?_
      pending := h.pending
      future := ?_
      covers := fun hidle => insert_covers (h.covers hidle) h.entries ht }
  · change ∀ e ∈ (s.queue.insert s.now timer).timerQueue.elems, 0 < e.time
    rw [insert_timerQueue]
    exact hentries
  · intro a ha
    change (s.queue.insert s.now timer).timerfd.armed = some a at ha
    unfold TimerQueue.insert at ha
    dsimp only at ha
    split at ha
    · exact resetTimerFd_future hentries ha
    · exact h.future a ha

theorem cancel_armed (h : s.Armed) (id : Nat) : (s.cancel id).Armed :=
  ⟨h.clock, h.entries, h.pending, h.future, h.covers⟩

theorem addTimer_armed (h : s.Armed) (t : ThreadId) {tp : Int} (htp : 0 < tp) (interval : Int) :
    (s.addTimer t tp interval).Armed := by
  have hnext : ({ s with counter := s.counter + 1 } : Sys).Armed :=
    h.frame rfl rfl rfl h.pending
  unfold addTimer
  dsimp only
  split
  · have hinsert : (({ s with counter := s.counter + 1 } : Sys).insert
        ⟨tp, interval, s.counter⟩).Armed := insert_armed hnext htp
    exact hinsert.frame rfl rfl rfl hinsert.pending
  · refine hnext.frame rfl rfl rfl ?_
    intro x hx
    unfold pendingTimes at hx
    simp only [List.map_append, List.map_cons, List.map_nil, List.mem_append,
      List.mem_singleton] at hx
    rcases hx with (hx | rfl) | hx
    · exact h.pending x (List.mem_append_left _ hx)
    · exact htp
    · exact h.pending x (List.mem_append_right _ hx)

theorem push_armed (h : s.Armed) (i : Nat) : (s.push i).Armed := by
  unfold push
  split
  · exact h
  · rename_i timer hi
    refine h.frame rfl rfl rfl ?_
    intro x hx
    unfold pendingTimes record at hx
    simp only [List.filterMap_append, List.mem_append] at hx
    rcases hx with hx | hx | hx
    · obtain ⟨t, ht, rfl⟩ := List.mem_map.mp hx
      exact h.pending _ (List.mem_append_left _ (List.mem_map_of_mem (List.mem_of_mem_eraseIdx ht)))
    · exact h.pending x (List.mem_append_right _ hx)
    · obtain rfl : x = timer.expiration := by simpa using hx
      exact h.pending _ (List.mem_append_left _ (List.mem_map_of_mem (List.mem_of_getElem? hi)))

theorem cancelTimer_armed (h : s.Armed) (t : ThreadId) (id : Nat) : (s.cancelTimer t id).Armed := by
  have hcalled : (s.record (.cancelCalled id)).Armed := h.frame rfl rfl rfl h.pending
  unfold cancelTimer
  dsimp only
  split
  · exact cancel_armed hcalled id
  · refine hcalled.frame rfl rfl rfl ?_
    intro x hx
    refine h.pending x ?_
    simpa [pendingTimes, Sys.record] using hx

theorem runTask_armed {task : Task} {tasks : List Task} (h : s.Armed)
    (hqueue : s.taskQueue = task :: tasks) : ({ s with taskQueue := tasks }.execute task).Armed := by
  have hpending := h.pending
  unfold pendingTimes at hpending
  rw [hqueue] at hpending
  have hrest : ({ s with taskQueue := tasks } : Sys).Armed := by
    refine h.frame rfl rfl rfl ?_
    intro x hx
    refine hpending x ?_
    rcases List.mem_append.mp hx with hx | hx
    · exact List.mem_append_left _ hx
    · refine List.mem_append_right _ ?_
      exact ((List.sublist_cons_self task tasks).filterMap _).subset hx
  cases task with
  | insert timer =>
    exact insert_armed hrest (hpending _ (List.mem_append_right _ (by simp)))
  | cancel id => exact cancel_armed hrest id

theorem handleExpiredTimers_armed (h : s.Armed) : s.handleExpiredTimers.Armed := by
  unfold handleExpiredTimers
  split
  · refine ⟨h.clock, ?_, h.pending, h.future, ?_⟩
    · intro e he
      refine h.entries e ?_
      rw [← s.queue.timerQueue.popWhile_append fun e => e.time ≤ s.now]
      exact List.mem_append_right _ he
    · intro hidle
      exact absurd hidle (by simp [Sys.record])
  · exact h

theorem next_armed (h : s.Armed) : s.next.Armed := by
  unfold next
  split
  case h_1 hphase =>
    refine ⟨h.clock, ?_, h.pending, fun a => resetTimerFd_future h.entries,
      fun _ => resetTimerFd_covers h.entries s.now⟩
    rw [resetTimerFd_timerQueue]
    exact h.entries
  case h_2 e rest hphase =>
    split
    · exact ⟨h.clock, h.entries, h.pending, h.future, fun hidle => absurd hidle (by simp)⟩
    · exact ⟨h.clock, h.entries, h.pending, h.future,
        fun hidle => absurd hidle (by simp [Sys.record])⟩
  case h_3 => exact h

/-- A repeating timer expires after the present moment. -/
theorem restart_pos {timer : Timer} {now : Int} (hrep : timer.isRepeated = true) (hnow : 0 ≤ now) :
    0 < (timer.restart now).expiration := by
  have hpos : 0 < timer.interval := of_decide_eq_true hrep
  unfold Timer.restart nsPerMillisecond
  rw [if_pos hrep]
  dsimp only
  omega

theorem callbackReturns_armed (h : s.Armed) : s.callbackReturns.Armed := by
  unfold callbackReturns
  split
  · rename_i n rest hphase
    have hidle : ∀ q : TimerQueue, ({ s with queue := q, phase := .batch rest } : Sys).phase ≠ .idle :=
      fun _ => by simp
    rcases rearm_cases s.queue s.now n with ⟨-, heq⟩ | ⟨timer, -, hrep, heq⟩ | ⟨timer, -, -, heq⟩
    · rw [heq]
      exact ⟨h.clock, h.entries, h.pending, h.future, fun hi => absurd hi (hidle _)⟩
    · rw [heq]
      refine ⟨h.clock, ?_, h.pending, h.future, fun hi => absurd hi (hidle _)⟩
      intro e he
      rcases PriorityQueue.mem_emplace.mp he with rfl | hold
      · exact restart_pos hrep h.clock
      · exact h.entries e hold
    · rw [heq]
      exact ⟨h.clock, h.entries, h.pending, h.future, fun hi => absurd hi (hidle _)⟩
  · exact h

theorem elapse_armed (h : s.Armed) (ns : Nat) : (s.elapse ns).Armed := by
  have hle : s.now ≤ s.now + ns := by omega
  refine
    { clock := le_trans h.clock hle
      entries := h.entries
      pending := h.pending
      future := ?_
      covers := fun hidle => elapse_covers (h.covers hidle) hle }
  intro a ha
  change (s.queue.timerfd.elapse (s.now + ns)).armed = some a at ha
  change s.now + ns < a
  unfold Timerfd.elapse at ha
  split at ha
  · rename_i hnone
    rw [hnone] at ha
    exact absurd ha (by simp)
  · rename_i b hb
    split at ha
    · exact absurd ha (by simp)
    · rename_i hlate
      rw [hb] at ha
      obtain rfl := Option.some.inj ha
      exact not_le.mp hlate

/-- A time point passed to `addTimer` is after the epoch of the clock. -/
def AfterEpoch (_ : Sys) : Label → Prop
  | .addTimer _ tp _ => 0 < tp
  | _ => True

theorem step_armed {l : Label} (h : s.Armed) (hepoch : s.AfterEpoch l) (hs : s.step l = .ok s') :
    s'.Armed := by
  cases l with
  | addTimer t tp interval =>
    obtain rfl := Except.ok.inj hs
    split
    · exact addTimer_armed h t hepoch interval
    · exact h
  | push i =>
    obtain rfl := Except.ok.inj hs
    exact push_armed h i
  | cancelTimer t id =>
    obtain rfl := Except.ok.inj hs
    split
    · exact cancelTimer_armed h t id
    · exact h
  | runTask =>
    simp only [step] at hs
    split at hs
    · rename_i hqueue
      obtain rfl := Except.ok.inj hs
      exact runTask_armed h hqueue
    · obtain rfl := Except.ok.inj hs
      exact h
  | handleExpiredTimers =>
    obtain rfl := Except.ok.inj hs
    split
    · exact handleExpiredTimers_armed h
    · exact h
  | next =>
    obtain rfl := Except.ok.inj hs
    exact next_armed h
  | callbackReturns =>
    obtain rfl := Except.ok.inj hs
    exact callbackReturns_armed h
  | elapse ns =>
    obtain rfl := Except.ok.inj hs
    exact elapse_armed h ns
  | otherLoop =>
    obtain rfl := Except.ok.inj hs
    exact h.frame rfl rfl rfl h.pending

theorem run_armed {loop : LoopId} {now : Nat} {ls : List Label}
    (h : run step (Sys.start loop now) ls = .ok s)
    (hepoch : Along step AfterEpoch (Sys.start loop now) ls) : s.Armed :=
  run_invariant step_armed (start_armed loop now) hepoch h

/-- Two timers after the epoch; the first has expired and was handled. -/
def oneExpired : List Label :=
  [.addTimer (.loop 0) 10 0, .addTimer (.user 1) 30 0, .push 0, .runTask, .elapse 15,
    .handleExpiredTimers, .next, .callbackReturns, .next]

/-- A timer at the epoch, then one that is due in ten nanoseconds. Time passes. -/
def epochTimer : List Label :=
  [.addTimer (.loop 0) 0 0, .addTimer (.loop 0) 15 0, .elapse 100]

/-- A time point at or before the epoch becomes the top, and the timerfd is not armed for it. -/
theorem insert_not_covers {timer : Timer} (h : s.Armed) (hunread : s.queue.timerfd.unread = false)
    (ht : timer.expiration ≤ 0) : ¬ (s.queue.insert s.now timer).Covers s.now := by
  intro hcovers
  have hmem : timer.entry ∈ (s.queue.timerQueue.emplace timer.entry).elems :=
    PriorityQueue.mem_emplace.mpr (Or.inl rfl)
  obtain ⟨e, htop⟩ : ∃ e, (s.queue.timerQueue.emplace timer.entry).top = some e := by
    cases hhead : (s.queue.timerQueue.emplace timer.entry).top with
    | some e => exact ⟨e, rfl⟩
    | none =>
      rw [PriorityQueue.top, List.head?_eq_none_iff] at hhead
      rw [hhead] at hmem
      exact absurd hmem (by simp)
  have hle : e.time ≤ timer.expiration := by
    have hlex := PriorityQueue.top_le htop hmem
    rcases Prod.Lex.le_iff.mp hlex with hlt | ⟨heq, -⟩
    · exact le_of_lt hlt
    · exact le_of_eq heq
  -- every other time is after the epoch
  obtain rfl : e = timer.entry := by
    rcases PriorityQueue.top_emplace htop with heq | hold
    · exact heq
    · have hpos := h.entries e (List.mem_of_head? hold)
      omega
  have hfd : (s.queue.insert s.now timer).timerfd =
      if timer.expiration = 0 then .disarmed else s.queue.timerfd := by
    rw [← Timerfd.settime_of_nonpos ht s.queue.timerfd s.now]
    unfold TimerQueue.insert
    dsimp only
    rw [if_pos (by rw [htop]; rfl)]
    let q : TimerQueue :=
      { s.queue with
        timers := Function.update s.queue.timers timer.sequence (some timer)
        timerQueue := s.queue.timerQueue.emplace timer.entry }
    exact resetTimerFd_timerfd (q := q) htop s.now
  rw [← insert_timerQueue s.queue s.now] at htop
  rcases hcovers _ htop with hread | ⟨a, ha, hmax⟩
  · rw [hfd] at hread
    split at hread
    · exact absurd hread (by simp [Timerfd.disarmed])
    · rw [hunread] at hread
      exact absurd hread (by simp)
  · rw [hfd] at ha
    split at ha
    · exact absurd ha (by simp [Timerfd.disarmed])
    · have hfuture := h.future a ha
      have hnow : max s.now timer.expiration = s.now := max_eq_left (le_trans ht h.clock)
      rw [entry_time, hnow] at hmax
      omega

/-- After a run whose time points are after the epoch, with no expiration left to read, a timer added
on the loop thread leaves the queue covered exactly when its time point is after the epoch. -/
theorem addTimer_covers_iff {loop : LoopId} {now : Nat} {ls : List Label} {s : Sys}
    (h : run step (Sys.start loop now) ls = .ok s)
    (hepoch : Along step AfterEpoch (Sys.start loop now) ls) (hidle : s.phase = .idle)
    (hunread : s.queue.timerfd.unread = false) (tp interval : Int) :
    (s.addTimer (.loop s.loop) tp interval).queue.Covers s.now ↔ 0 < tp := by
  have harmed := run_armed h hepoch
  have hqueue : (s.addTimer (.loop s.loop) tp interval).queue =
      s.queue.insert s.now ⟨tp, interval, s.counter⟩ := by
    simp [addTimer, insert, Sys.record]
  rw [hqueue]
  constructor
  · intro hcovers
    by_contra htp
    exact insert_not_covers harmed hunread (not_lt.mp htp) hcovers
  · intro htp
    exact insert_covers (harmed.covers hidle) harmed.entries htp

end Sys

end TimerQueue

end HyperMuduo.Net
