import HyperMuduo.TimerQueue.Representation

/-!
# Cancelling across threads

`addTimer` on another thread returns the id when its closure is on the loop's queue. A `cancelTimer` on
the loop thread runs inline: it can run before that closure, finds nothing, and the timer is inserted
afterwards. `CancelKept log` says that this does not matter: when a cancel that was called after the id
was returned runs, and the callback of the timer has not started, it never starts.

A number that was inserted and is not in the map is `Dead`: it is not inserted again, so its callback
does not start again (`dead_step`). The closure of a cancel makes it dead if it was inserted at all.

**`cancel_kept`**: `CancelKept` holds of every run in which no cancel runs while the insertion of its
timer is on the loop's queue.
-/

namespace HyperMuduo.Net.TimerQueue

open HyperMuduo.Lib

/-- The callback of the timer with this number started. -/
def Started (n : Nat) (log : List Event) : Prop :=
  ∃ timer now, Event.started timer now ∈ log ∧ timer.sequence = n

/-- `cancelTimer(id)` was called after an `addTimer` returned `id`. -/
def CancelRequested (id : Nat) (log : List Event) : Prop :=
  ∃ before between after,
    log = before ++ .returned id :: (between ++ .cancelCalled id :: after)

/-- A cancel called after the id was returned is not lost: once it has run, the callback does not
start, unless it had before. -/
def CancelKept (log : List Event) : Prop :=
  ∀ before id found after, log = before ++ .cancelled id found :: after →
    CancelRequested id before → ¬ Started id before → ¬ Started id after

namespace Sys

/-- The timer whose cancel runs in this step. -/
def cancels (s : Sys) : Label → Option Nat
  | .cancelTimer t id => if s.free t && isInLoopThread s.loop t then some id else none
  | .runTask =>
    match s.phase, s.taskQueue with
    | .idle, .cancel id :: _ => some id
    | _, _ => none
  | _ => none

/-- The timers whose insertion is on the loop's queue. -/
def queued (s : Sys) : List Nat := s.taskQueue.filterMap Task.waiting

/-- A cancel does not run while the insertion of its timer is on the loop's queue. -/
def InsertedFirst (s : Sys) (l : Label) : Prop := ∀ id, s.cancels l = some id → id ∉ s.queued

instance (s : Sys) (l : Label) : Decidable (s.InsertedFirst l) :=
  decidable_of_iff (∀ id ∈ s.cancels l, id ∉ s.queued) (by simp [InsertedFirst, Option.mem_def])

/-- The timer was inserted and has left the map. -/
def Dead (s : Sys) (n : Nat) : Prop := n ∈ insertions s.log ∧ s.queue.timers n = none

variable {s s' : Sys}

/-! ## What a step does -/

/-- The effect of a step, for every label. -/
inductive Stepped (s : Sys) : Label → Sys → Prop where
  | nothing (l : Label) : Stepped s l s
  /-- `addTimer` on the loop thread, and on another. -/
  | added (t : ThreadId) (tp interval : Int) :
      Stepped s (.addTimer t tp interval)
        ((({ s with counter := s.counter + 1 } : Sys).insert ⟨tp, interval, s.counter⟩).record
          (.returned s.counter))
  | launched (t : ThreadId) (tp interval : Int) :
      Stepped s (.addTimer t tp interval)
        { s with
          counter := s.counter + 1
          inFlight := s.inFlight ++ [⟨tp, interval, s.counter⟩] }
  | pushed (i : Nat) (timer : Timer) :
      Stepped s (.push i)
        (({ s with
          inFlight := s.inFlight.eraseIdx i
          taskQueue := s.taskQueue ++ [.insert timer] } : Sys).record (.returned timer.sequence))
  /-- `cancelTimer` on the loop thread, and on another. -/
  | cancelled (t : ThreadId) (id : Nat) (hcancels : s.cancels (.cancelTimer t id) = some id) :
      Stepped s (.cancelTimer t id) ((s.record (.cancelCalled id)).cancel id)
  | cancelQueued (t : ThreadId) (id : Nat) :
      Stepped s (.cancelTimer t id)
        { s.record (.cancelCalled id) with taskQueue := s.taskQueue ++ [.cancel id] }
  /-- A closure runs. -/
  | ranInsert (timer : Timer) (tasks : List Task) (hqueue : s.taskQueue = .insert timer :: tasks) :
      Stepped s .runTask (({ s with taskQueue := tasks } : Sys).insert timer)
  | ranCancel (id : Nat) (tasks : List Task) (hqueue : s.taskQueue = .cancel id :: tasks)
      (hcancels : s.cancels .runTask = some id) :
      Stepped s .runTask (({ s with taskQueue := tasks } : Sys).cancel id)
  | expired :
      Stepped s .handleExpiredTimers
        (({ s with
          queue := (s.queue.takeExpired s.now).2
          phase := .batch (s.queue.takeExpired s.now).1 } : Sys).record .expired)
  /-- The end of a batch, an entry without a timer, and the start of a callback. -/
  | finished : Stepped s .next { s with queue := s.queue.resetTimerFd s.now, phase := .idle }
  | skipped (rest : List Entry) : Stepped s .next { s with phase := .batch rest }
  | began (e : Entry) (rest : List Entry) (timer : Timer)
      (htimer : s.queue.timers e.sequence = some timer) :
      Stepped s .next
        (({ s with phase := .running e.sequence rest } : Sys).record (.started timer s.now))
  | returned (sequence : Nat) (rest : List Entry) :
      Stepped s .callbackReturns
        { s with queue := s.queue.rearm s.now sequence, phase := .batch rest }
  | elapsed (ns : Nat) : Stepped s (.elapse ns) (s.elapse ns)
  | counted : Stepped s .otherLoop { s with counter := s.counter + 1 }

theorem step_stepped {l : Label} (hs : s.step l = .ok s') : Stepped s l s' := by
  cases l with
  | addTimer t tp interval =>
    obtain rfl := Except.ok.inj hs
    split
    · unfold addTimer
      dsimp only
      split
      · exact .added t tp interval
      · exact .launched t tp interval
    · exact .nothing _
  | push i =>
    obtain rfl := Except.ok.inj hs
    unfold push
    split
    · exact .nothing _
    · exact .pushed i _
  | cancelTimer t id =>
    obtain rfl := Except.ok.inj hs
    split
    · rename_i hfree
      unfold cancelTimer
      dsimp only
      split
      · rename_i hin
        have hcancels : s.cancels (.cancelTimer t id) = some id := by
          simp only [cancels, hfree, Bool.true_and]
          exact if_pos hin
        exact .cancelled t id hcancels
      · exact .cancelQueued t id
    · exact .nothing _
  | runTask =>
    simp only [step] at hs
    split at hs
    · rename_i task tasks hphase hqueue
      obtain rfl := Except.ok.inj hs
      cases task with
      | insert timer => exact .ranInsert timer tasks hqueue
      | cancel id => exact .ranCancel id tasks hqueue (by simp [cancels, hphase, hqueue])
    · obtain rfl := Except.ok.inj hs
      exact .nothing _
  | handleExpiredTimers =>
    obtain rfl := Except.ok.inj hs
    split
    · unfold handleExpiredTimers
      split
      · exact .expired
      · exact .nothing _
    · exact .nothing _
  | next =>
    obtain rfl := Except.ok.inj hs
    unfold next
    split
    · exact .finished
    · split
      · exact .skipped _
      · rename_i htimer
        exact .began _ _ _ htimer
    · exact .nothing _
  | callbackReturns =>
    obtain rfl := Except.ok.inj hs
    unfold callbackReturns
    split
    · exact .returned _ _
    · exact .nothing _
  | elapse ns =>
    obtain rfl := Except.ok.inj hs
    exact .elapsed ns
  | otherLoop =>
    obtain rfl := Except.ok.inj hs
    exact .counted

/-! ## What a step adds to the log -/

/-- The events of a step: a callback starts only for a timer in the map; a cancel is the last event,
after its call, and its timer has left the map. -/
structure Adds (s s' : Sys) (cancelled : Option Nat) (new : List Event) : Prop where
  log : s'.log = s.log ++ new
  starts : ∀ timer now, Event.started timer now ∈ new →
    s.queue.timers timer.sequence = some timer
  cancel : ∀ before id found after, new = before ++ Event.cancelled id found :: after →
    after = [] ∧ cancelled = some id ∧ s'.queue.timers id = none ∧ Event.returned id ∉ before

theorem adds_nil {cancelled : Option Nat} (h : s'.log = s.log) : Adds s s' cancelled [] where
  log := by rw [h, List.append_nil]
  starts := by simp
  cancel := by simp

/-- Neither the start of a callback nor the run of a cancel. -/
def Quiet (e : Event) : Prop :=
  (∀ timer now, e ≠ .started timer now) ∧ ∀ id found, e ≠ .cancelled id found

theorem adds_quiet {cancelled : Option Nat} {new : List Event} (h : s'.log = s.log ++ new)
    (hnew : ∀ e ∈ new, Quiet e) : Adds s s' cancelled new where
  log := h
  starts := fun timer now hmem => absurd rfl ((hnew _ hmem).1 timer now)
  cancel := by
    rintro before id found after rfl
    exact absurd rfl ((hnew (.cancelled id found) (by simp)).2 id found)

/-- The closure of a cancel, on its own or right after its call. -/
theorem adds_cancel {id : Nat} {called : List Event} {found : Bool}
    (hlog : s'.log = s.log ++ (called ++ [.cancelled id found]))
    (hcalled : ∀ e ∈ called, e = .cancelCalled id) (hnone : s'.queue.timers id = none) :
    Adds s s' (some id) (called ++ [.cancelled id found]) where
  log := hlog
  starts := by
    intro timer now hmem
    rcases List.mem_append.mp hmem with hmem | hmem
    · exact absurd (hcalled _ hmem) (by simp)
    · exact absurd hmem (by simp)
  cancel := by
    intro before id' found' after heq
    rcases List.eq_nil_or_concat after with rfl | ⟨after', e, rfl⟩
    · obtain ⟨rfl, hlast⟩ := List.append_inj' heq rfl
      obtain ⟨rfl, -⟩ := Event.cancelled.inj (List.singleton_inj.mp hlast)
      refine ⟨rfl, rfl, hnone, ?_⟩
      intro hmem
      exact absurd (hcalled _ hmem) (by simp)
    · have heq' : called ++ [.cancelled id found] =
          (before ++ .cancelled id' found' :: after') ++ [e] := by
        rw [heq]
        simp
      obtain ⟨rfl, -⟩ := List.append_inj' heq' rfl
      exact absurd (hcalled (.cancelled id' found') (by simp)) (by simp)

/-- The start of a callback. -/
theorem adds_started {cancelled : Option Nat} {timer : Timer}
    (hlog : s'.log = s.log ++ [.started timer s.now])
    (htimer : s.queue.timers timer.sequence = some timer) :
    Adds s s' cancelled [.started timer s.now] where
  log := hlog
  starts := by
    intro timer' now hmem
    obtain ⟨rfl, -⟩ := Event.started.inj (List.mem_singleton.mp hmem)
    exact htimer
  cancel := by
    intro before id found after heq
    have hmem : Event.cancelled id found ∈ [Event.started timer s.now] := by
      rw [heq]
      simp
    exact absurd hmem (by simp)

theorem step_adds {l : Label} (hI : s.Inv) (hs : s.step l = .ok s') :
    ∃ new, Adds s s' (s.cancels l) new := by
  cases step_stepped hs with
  | nothing => exact ⟨[], adds_nil rfl⟩
  | added t tp interval => exact ⟨_, adds_quiet (by simp [insert, record]; rfl) (by simp [Quiet])⟩
  | launched t tp interval => exact ⟨[], adds_nil rfl⟩
  | pushed i timer => exact ⟨_, adds_quiet rfl (by simp [Quiet])⟩
  | cancelled t id hcancels =>
    rw [hcancels]
    refine ⟨[.cancelCalled id] ++ [.cancelled id (s.queue.timers id).isSome],
      adds_cancel ?_ (by simp) (Function.update_self ..)⟩
    rw [← List.append_assoc]
    rfl
  | cancelQueued t id => exact ⟨_, adds_quiet rfl (by simp [Quiet])⟩
  | ranInsert timer tasks hqueue => exact ⟨_, adds_quiet rfl (by simp [Quiet])⟩
  | ranCancel id tasks hqueue hcancels =>
    rw [hcancels]
    exact ⟨[] ++ [.cancelled id (s.queue.timers id).isSome],
      adds_cancel rfl (by simp) (Function.update_self ..)⟩
  | expired => exact ⟨_, adds_quiet rfl (by simp [Quiet])⟩
  | finished => exact ⟨[], adds_nil rfl⟩
  | skipped rest => exact ⟨[], adds_nil rfl⟩
  | began e rest timer htimer =>
    have hseq := (hI.held _ timer htimer).1
    exact ⟨_, adds_started rfl (by rw [hseq]; exact htimer)⟩
  | returned sequence rest => exact ⟨[], adds_nil rfl⟩
  | elapsed ns => exact ⟨[], adds_nil rfl⟩
  | counted => exact ⟨[], adds_nil rfl⟩

/-! ## A dead timer stays dead -/

theorem insert_dead {timer : Timer} {n : Nat} (h : s.Dead n)
    (hnew : timer.sequence ∉ insertions s.log) : (s.insert timer).Dead n := by
  refine ⟨insertions_append h.1, ?_⟩
  have hne : n ≠ timer.sequence := by
    rintro rfl
    exact hnew h.1
  change (s.queue.insert s.now timer).timers n = none
  rw [insert_timers, Function.update_of_ne hne]
  exact h.2

theorem cancel_dead {n : Nat} (h : s.Dead n) (id : Nat) : (s.cancel id).Dead n := by
  exact ⟨insertions_append h.1, update_none_of_none id h.2⟩

theorem dead_step {l : Label} {n : Nat} (hI : s.Inv) (h : s.Dead n) (hs : s.step l = .ok s') :
    s'.Dead n := by
  cases step_stepped hs with
  | nothing => exact h
  | added t tp interval =>
    have hins : (({ s with counter := s.counter + 1 } : Sys).insert
        ⟨tp, interval, s.counter⟩).Dead n := insert_dead h hI.counter_new.1
    exact ⟨insertions_append hins.1, hins.2⟩
  | launched t tp interval => exact h
  | pushed i timer => exact ⟨insertions_append h.1, h.2⟩
  | cancelled t id hcancels =>
    have hcalled : (s.record (.cancelCalled id)).Dead n := ⟨insertions_append h.1, h.2⟩
    exact cancel_dead hcalled id
  | cancelQueued t id => exact ⟨insertions_append h.1, h.2⟩
  | ranInsert timer tasks hqueue =>
    have hrest : ({ s with taskQueue := tasks } : Sys).Dead n := h
    refine insert_dead hrest (hI.unknown _ ?_)
    unfold waiting
    rw [hqueue]
    exact List.mem_append_right _ List.mem_cons_self
  | ranCancel id tasks hqueue hcancels =>
    have hrest : ({ s with taskQueue := tasks } : Sys).Dead n := h
    exact cancel_dead hrest id
  | expired => exact ⟨insertions_append h.1, h.2⟩
  | finished =>
    refine ⟨h.1, ?_⟩
    rw [resetTimerFd_timers]
    exact h.2
  | skipped rest => exact h
  | began e rest timer htimer => exact ⟨insertions_append h.1, h.2⟩
  | returned sequence rest => exact ⟨h.1, rearm_none h.2 _ _⟩
  | elapsed ns => exact h
  | counted => exact h

/-! ## Runs -/

/-- A number on the queue stays there until it is inserted. -/
theorem queued_step {l : Label} {n : Nat} (h : n ∈ s.queued) (hs : s.step l = .ok s') :
    n ∈ insertions s'.log ∨ n ∈ s'.queued := by
  cases step_stepped hs with
  | pushed i timer =>
    refine Or.inr ?_
    unfold queued record
    rw [List.filterMap_append]
    exact List.mem_append_left _ h
  | cancelQueued t id => exact Or.inr (by simpa [queued, record, Task.waiting] using h)
  | ranInsert timer tasks hqueue =>
    unfold queued at h
    rw [hqueue] at h
    rcases List.mem_cons.mp h with rfl | hrest
    · exact Or.inl (by simp [insert, record, insertions, Event.insertion])
    · exact Or.inr hrest
  | ranCancel id tasks hqueue hcancels =>
    unfold queued at h
    rw [hqueue] at h
    exact Or.inr h
  | _ => exact Or.inr h

/-- A number is returned when its insertion is on the queue or has run. -/
theorem returned_step {l : Label} {n : Nat} (hs : s.step l = .ok s')
    (h : Event.returned n ∈ s'.log) :
    Event.returned n ∈ s.log ∨ n ∈ insertions s'.log ∨ n ∈ s'.queued := by
  cases step_stepped hs with
  | nothing => exact Or.inl h
  | added t tp interval =>
    rcases List.mem_append.mp h with h | h
    · exact Or.inl (by simpa [insert, record] using h)
    · refine Or.inr (Or.inl ?_)
      obtain rfl : n = s.counter := by simpa using h
      simp [insert, record, insertions, Event.insertion]
  | launched t tp interval => exact Or.inl h
  | pushed i timer =>
    rcases List.mem_append.mp h with h | h
    · exact Or.inl h
    · refine Or.inr (Or.inr ?_)
      obtain rfl : n = timer.sequence := by simpa using h
      simp [queued, record, Task.waiting]
  | cancelled t id hcancels => exact Or.inl (by simpa [cancel, record] using h)
  | cancelQueued t id => exact Or.inl (by simpa [record] using h)
  | ranInsert timer tasks hqueue => exact Or.inl (by simpa [insert, record] using h)
  | ranCancel id tasks hqueue hcancels => exact Or.inl (by simpa [cancel, record] using h)
  | expired => exact Or.inl (by simpa [record] using h)
  | finished => exact Or.inl h
  | skipped rest => exact Or.inl h
  | began e rest timer htimer => exact Or.inl (by simpa [record] using h)
  | returned sequence rest => exact Or.inl h
  | elapsed ns => exact Or.inl h
  | counted => exact Or.inl h

/-- The invariant: what a cancel was asked for, and found or not, is dead. -/
structure Kept (s : Sys) : Prop where
  inv : s.Inv
  returned : ∀ n, Event.returned n ∈ s.log → n ∈ insertions s.log ∨ n ∈ s.queued
  gone : ∀ before id found after, s.log = before ++ .cancelled id found :: after →
    CancelRequested id before → ¬ Started id before → s.Dead id ∧ ¬ Started id after

theorem start_kept (loop : LoopId) (now : Nat) : (Sys.start loop now).Kept where
  inv := start_inv loop now
  returned := by simp [Sys.start]
  gone := by simp [Sys.start]

theorem started_append {n : Nat} {log new : List Event} :
    Started n (log ++ new) ↔ Started n log ∨ Started n new := by
  unfold Started
  constructor
  · rintro ⟨timer, now, hmem, hn⟩
    rcases List.mem_append.mp hmem with h | h
    · exact Or.inl ⟨timer, now, h, hn⟩
    · exact Or.inr ⟨timer, now, h, hn⟩
  · rintro (⟨timer, now, hmem, hn⟩ | ⟨timer, now, hmem, hn⟩)
    · exact ⟨timer, now, List.mem_append_left _ hmem, hn⟩
    · exact ⟨timer, now, List.mem_append_right _ hmem, hn⟩

theorem step_kept {l : Label} (h : s.Kept) (hfirst : s.InsertedFirst l) (hs : s.step l = .ok s') :
    s'.Kept := by
  obtain ⟨new, hadds⟩ := step_adds h.inv hs
  have hmono : ∀ n, n ∈ insertions s.log → n ∈ insertions s'.log := by
    intro n hn
    rw [hadds.log]
    exact insertions_append hn
  refine ⟨step_inv h.inv hs, ?_, ?_⟩
  · intro n hn
    rcases returned_step hs hn with hold | hnew
    · rcases h.returned n hold with hins | hqueued
      · exact Or.inl (hmono n hins)
      · exact queued_step hqueued hs
    · exact hnew
  · intro before id found after heq hrequested hstarted
    rw [hadds.log] at heq
    rcases List.append_eq_append_iff.mp heq with ⟨mid, rfl, hmid⟩ | ⟨mid, hlog, hmid⟩
    · -- the cancel runs in this step
      obtain ⟨rfl, hcancels, hnone, hreturned⟩ := hadds.cancel mid id found after hmid
      refine ⟨⟨hmono id ?_, hnone⟩, by simp [Started]⟩
      obtain ⟨a, b, c, hsplit⟩ := hrequested
      have hmem : Event.returned id ∈ s.log ++ mid := by
        rw [hsplit]
        simp
      rcases List.mem_append.mp hmem with hmem | hmem
      · rcases h.returned id hmem with hins | hqueued
        · exact hins
        · exact absurd hqueued (hfirst id hcancels)
      · exact absurd hmem hreturned
    · cases mid with
      | nil =>
        rw [List.append_nil] at hlog
        subst hlog
        obtain ⟨rfl, hcancels, hnone, -⟩ := hadds.cancel [] id found after hmid.symm
        refine ⟨⟨hmono id ?_, hnone⟩, by simp [Started]⟩
        obtain ⟨a, b, c, hsplit⟩ := hrequested
        have hmem : Event.returned id ∈ s.log := by
          rw [hsplit]
          simp
        rcases h.returned id hmem with hins | hqueued
        · exact hins
        · exact absurd hqueued (hfirst id hcancels)
      | cons x mid =>
        -- it ran before: the timer is dead, so its callback does not start now
        obtain ⟨rfl, rfl⟩ := List.cons.inj hmid
        obtain ⟨hdead, hafter⟩ := h.gone before id found mid hlog hrequested hstarted
        refine ⟨dead_step h.inv hdead hs, ?_⟩
        change ¬ Started id (mid ++ new)
        rw [started_append]
        rintro (hmem | ⟨timer, now, hmem, rfl⟩)
        · exact hafter hmem
        · have hheld := hadds.starts timer now hmem
          rw [hdead.2] at hheld
          exact absurd hheld (by simp)

/-- **A cancel is not lost**, in every run in which no cancel runs while the insertion of its timer is
on the loop's queue. -/
theorem cancel_kept {loop : LoopId} {now : Nat} {ls : List Label} {s : Sys}
    (h : run step (Sys.start loop now) ls = .ok s)
    (hfirst : Along step InsertedFirst (Sys.start loop now) ls) : CancelKept s.log := by
  have hkept : s.Kept := run_invariant step_kept (start_kept loop now) hfirst h
  intro before id found after heq hrequested hstarted
  exact (hkept.gone before id found after heq hrequested hstarted).2

/-- A timer is added on another thread, and cancelled on the loop thread once its insertion has run. -/
def cancelledAfterInsertion : List Label :=
  [.addTimer (.user 1) 10 0, .push 0, .runTask, .cancelTimer (.loop 0) 0, .elapse 10,
    .handleExpiredTimers, .next]

theorem cancel_kept_cancelledAfterInsertion :
    ∃ s, run step (Sys.start 0 5) cancelledAfterInsertion = .ok s ∧
      s.log = [.returned 0, .inserted ⟨10, 0, 0⟩, .cancelCalled 0, .cancelled 0 true, .expired] ∧
      CancelKept s.log := by
  have hrun : ∃ s, run step (Sys.start 0 5) cancelledAfterInsertion = .ok s ∧
      s.log = [.returned 0, .inserted ⟨10, 0, 0⟩, .cancelCalled 0, .cancelled 0 true, .expired] := by
    decide +kernel
  obtain ⟨s, hs, hlog⟩ := hrun
  have hfirst : Along step InsertedFirst (Sys.start 0 5) cancelledAfterInsertion := by decide +kernel
  exact ⟨s, hs, hlog, cancel_kept hs hfirst⟩

/-- The same timer, cancelled on the loop thread when its id is returned. -/
def cancelledBeforeInsertion : List Label :=
  [.addTimer (.user 1) 10 0, .push 0, .cancelTimer (.loop 0) 0, .runTask, .elapse 10,
    .handleExpiredTimers, .next]

/-- **The cancel overtakes the insertion**: it runs inline and finds nothing, the timer is inserted
after it, and its callback starts. -/
theorem cancel_not_kept_cancelledBeforeInsertion :
    ∃ s, run step (Sys.start 0 5) cancelledBeforeInsertion = .ok s ∧
      s.log = [.returned 0, .cancelCalled 0, .cancelled 0 false, .inserted ⟨10, 0, 0⟩, .expired,
        .started ⟨10, 0, 0⟩ 15] ∧
      ¬ CancelKept s.log := by
  have hrun : ∃ s, run step (Sys.start 0 5) cancelledBeforeInsertion = .ok s ∧
      s.log = [.returned 0, .cancelCalled 0, .cancelled 0 false, .inserted ⟨10, 0, 0⟩, .expired,
        .started ⟨10, 0, 0⟩ 15] := by decide +kernel
  obtain ⟨s, hs, hlog⟩ := hrun
  refine ⟨s, hs, hlog, ?_⟩
  intro hkept
  rw [hlog] at hkept
  refine hkept [.returned 0, .cancelCalled 0] 0 false _ rfl ⟨[], [], [], rfl⟩ ?_ ?_
  · simp [Started]
  · exact ⟨⟨10, 0, 0⟩, 15, by simp, rfl⟩

end Sys

end HyperMuduo.Net.TimerQueue
