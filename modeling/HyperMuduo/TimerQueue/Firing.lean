import HyperMuduo.TimerQueue.Representation

/-!
# When the callbacks of timers start

`FiringOk log` says of every start of a callback in the log: the timer was due; if its callback started
before, the timer repeats and at least its interval has passed; no cancel found the timer before; and
the callbacks started before in the same `handleExpiredTimers_` have a smaller `(expiration, sequence)`.

The invariant `Fired` carries this through a batch that callbacks change under way: a timer still in
the map that has run is the one that runs now, or repeats and expires an interval after its last start;
a timer a cancel found is not in the map; the rest of the batch is due and lies above what has started.

**`timer_firing`**: `FiringOk` holds in every state of every run.
-/

namespace HyperMuduo.Net.TimerQueue

open HyperMuduo.Lib

/-- What happened since `handleExpiredTimers_` took its last batch, last first. -/
def currentCall (log : List Event) : List Event := log.reverse.takeWhile (· ≠ .expired)

theorem currentCall_expired (log : List Event) : currentCall (log ++ [.expired]) = [] := by
  simp [currentCall]

theorem currentCall_concat {log : List Event} {e : Event} (he : e ≠ .expired) :
    currentCall (log ++ [e]) = e :: currentCall log := by
  simp [currentCall, he]

/-- The callback of the timer may start at `now`, after this log. -/
structure MayStart (log : List Event) (timer : Timer) (now : Int) : Prop where
  due : timer.expiration ≤ now
  again : ∀ timer' now', Event.started timer' now' ∈ log → timer'.sequence = timer.sequence →
    timer'.interval = timer.interval ∧ timer.isRepeated = true ∧
      now' + timer.interval * nsPerMillisecond ≤ now
  kept : Event.cancelled timer.sequence true ∉ log
  ordered : ∀ timer' now', Event.started timer' now' ∈ currentCall log → timer'.entry < timer.entry

/-- Every callback started when it may. -/
def FiringOk (log : List Event) : Prop :=
  Justified (fun before e => ∀ timer now, e = .started timer now → MayStart before timer now) log

/-- Neither a start nor a new batch. -/
def Event.plain : Event → Bool
  | .started _ _ | .expired => false
  | _ => true

theorem FiringOk.concat {log : List Event} {e : Event} (h : FiringOk log)
    (he : ∀ timer now, e = .started timer now → MayStart log timer now) :
    FiringOk (log ++ [e]) := by
  refine Justified.append h ?_
  intro before x after heq timer now hx
  obtain ⟨rfl, rfl, rfl⟩ : before = [] ∧ x = e ∧ after = [] := by
    cases before with
    | nil => simpa [eq_comm] using heq
    | cons b bs => simp at heq
  rw [List.append_nil]
  exact he timer now hx

namespace Sys

structure Fired (s : Sys) : Prop where
  ok : FiringOk s.log
  past : ∀ timer now, Event.started timer now ∈ s.log →
    now ≤ s.now ∧ timer.sequence ∈ insertions s.log
  again : ∀ timer now, Event.started timer now ∈ s.log →
    ∀ timer', s.queue.timers timer.sequence = some timer' →
      timer.interval = timer'.interval ∧ (timer.sequence ∈ s.phase.current ∨
        timer'.isRepeated = true ∧ now + timer'.interval * nsPerMillisecond ≤ timer'.expiration)
  kept : ∀ n, Event.cancelled n true ∈ s.log → n ∈ insertions s.log ∧ s.queue.timers n = none
  due : ∀ e ∈ s.phase.rest, e.time ≤ s.now
  sorted : s.phase.rest.Pairwise (· ≤ ·)
  ordered : ∀ timer now, Event.started timer now ∈ currentCall s.log →
    ∀ e ∈ s.phase.rest, timer.entry < e

theorem start_fired (loop : LoopId) (now : Nat) : (Sys.start loop now).Fired where
  ok := justified_nil _
  past := by simp [Sys.start]
  again := by simp [Sys.start]
  kept := by simp [Sys.start]
  due := by simp [Sys.start, Phase.rest]
  sorted := by simp [Sys.start, Phase.rest]
  ordered := by simp [Sys.start, currentCall]

variable {s s' : Sys}

/-- Steps outside the log: the clock goes on, and timers that were inserted may leave the map. -/
theorem Fired.frame (h : s.Fired) (hlog : s'.log = s.log) (hphase : s'.phase = s.phase)
    (hnow : s.now ≤ s'.now)
    (htimers : ∀ n timer, s'.queue.timers n = some timer → n ∈ insertions s.log →
      s.queue.timers n = some timer) : s'.Fired where
  ok := by rw [hlog]; exact h.ok
  past := by
    intro timer now hmem
    rw [hlog] at hmem ⊢
    obtain ⟨hle, hins⟩ := h.past timer now hmem
    exact ⟨le_trans hle hnow, hins⟩
  again := by
    intro timer now hmem timer' ht
    rw [hlog] at hmem
    rw [hphase]
    exact h.again timer now hmem timer' (htimers _ _ ht (h.past timer now hmem).2)
  kept := by
    intro n hmem
    rw [hlog] at hmem ⊢
    obtain ⟨hins, hnone⟩ := h.kept n hmem
    refine ⟨hins, ?_⟩
    cases ht : s'.queue.timers n with
    | none => rfl
    | some timer =>
      rw [htimers n timer ht hins] at hnone
      exact absurd hnone (by simp)
  due := by
    rw [hphase]
    exact fun e he => le_trans (h.due e he) hnow
  sorted := by rw [hphase]; exact h.sorted
  ordered := by rw [hlog, hphase]; exact h.ordered

/-- A plain event; a cancel is recorded as found only of a timer that was inserted and is gone. -/
theorem Fired.record {e : Event} (h : s.Fired) (he : e.plain = true)
    (hcancel : ∀ n, e = .cancelled n true → n ∈ insertions s.log ∧ s.queue.timers n = none) :
    (s.record e).Fired := by
  have hne : e ≠ .expired := by
    rintro rfl
    exact absurd he (by simp [Event.plain])
  have hold : ∀ timer now, Event.started timer now ∈ (s.record e).log →
      Event.started timer now ∈ s.log := by
    intro timer now hmem
    rcases List.mem_append.mp hmem with hmem | hmem
    · exact hmem
    · obtain rfl := List.mem_singleton.mp hmem
      exact absurd he (by simp [Event.plain])
  refine
    { ok := ?_
      past := ?_
      again := fun timer now hmem => h.again timer now (hold timer now hmem)
      kept := ?_
      due := h.due
      sorted := h.sorted
      ordered := ?_ }
  · refine h.ok.concat ?_
    rintro timer now rfl
    exact absurd he (by simp [Event.plain])
  · intro timer now hmem
    obtain ⟨hle, hins⟩ := h.past timer now (hold timer now hmem)
    exact ⟨hle, insertions_append hins⟩
  · intro n hmem
    rcases List.mem_append.mp hmem with hmem | hmem
    · exact ⟨insertions_append (h.kept n hmem).1, (h.kept n hmem).2⟩
    · obtain ⟨hins, hnone⟩ := hcancel n (List.mem_singleton.mp hmem).symm
      exact ⟨insertions_append hins, hnone⟩
  · intro timer now hmem
    change Event.started timer now ∈ currentCall (s.log ++ [e]) at hmem
    rw [currentCall_concat hne] at hmem
    rcases List.mem_cons.mp hmem with rfl | hmem
    · exact absurd he (by simp [Event.plain])
    · exact h.ordered timer now hmem

theorem insert_fired {timer : Timer} (h : s.Fired) (hnew : timer.sequence ∉ insertions s.log) :
    (s.insert timer).Fired := by
  have hqueue : ({ s with queue := s.queue.insert s.now timer } : Sys).Fired := by
    refine h.frame rfl rfl (le_refl _) ?_
    intro n t ht hn
    change (s.queue.insert s.now timer).timers n = some t at ht
    have hne : n ≠ timer.sequence := by
      rintro rfl
      exact hnew hn
    rw [insert_timers, Function.update_of_ne hne] at ht
    exact ht
  exact hqueue.record rfl (by simp)

theorem cancel_fired (hI : s.Inv) (h : s.Fired) (id : Nat) : (s.cancel id).Fired := by
  have hqueue : ({ s with queue := s.queue.cancel id } : Sys).Fired := by
    refine h.frame rfl rfl (le_refl _) ?_
    intro n t ht _
    exact (update_none_inv ht).2
  refine hqueue.record rfl ?_
  intro n hn
  obtain ⟨rfl, hfound⟩ := Event.cancelled.inj hn
  obtain ⟨timer, htimer⟩ := Option.isSome_iff_exists.mp hfound
  refine ⟨hI.known_of_held htimer, ?_⟩
  change Function.update s.queue.timers id none id = none
  exact Function.update_self ..

/-! ## `handleExpiredTimers_` -/

theorem handleExpiredTimers_fired (h : s.Fired) (hidle : s.phase = .idle) :
    s.handleExpiredTimers.Fired := by
  unfold handleExpiredTimers
  split
  · have hcurrent : s.phase.current = [] := by rw [hidle]; rfl
    refine
      { ok := h.ok.concat (by simp)
        past := ?_
        again := ?_
        kept := ?_
        due := ?_
        sorted := s.queue.timerQueue.popWhile_sorted _
        ordered := ?_ }
    · intro timer now hmem
      obtain ⟨hle, hins⟩ := h.past timer now (by simpa [Sys.record] using hmem)
      exact ⟨hle, insertions_append hins⟩
    · intro timer now hmem timer' ht
      have hagain := h.again timer now (by simpa [Sys.record] using hmem) timer' ht
      rw [hcurrent] at hagain
      exact hagain
    · intro n hmem
      obtain ⟨hins, hnone⟩ := h.kept n (by simpa [Sys.record] using hmem)
      exact ⟨insertions_append hins, hnone⟩
    · intro e he
      change e ∈ (s.queue.timerQueue.popWhile fun e => e.time ≤ s.now).1 at he
      have hle := PriorityQueue.popWhile_all he
      exact of_decide_eq_true hle
    · intro timer now hmem
      change Event.started timer now ∈ currentCall (s.log ++ [.expired]) at hmem
      rw [currentCall_expired] at hmem
      exact absurd hmem (by simp)
  · exact h

/-- With no callback running, no two entries share their number. -/
theorem outstanding_nodup (hI : s.Inv) (hcurrent : s.phase.current = []) :
    (s.outstanding.map Entry.sequence).Nodup := by
  have hall := hI.nodup
  unfold numbers at hall
  rw [hcurrent, List.append_nil] at hall
  exact hall

/-- The entry at the front of the batch is the timer's own. -/
theorem front_entry {e : Entry} {rest : List Entry} {timer : Timer} (hI : s.Inv)
    (hphase : s.phase = .batch (e :: rest)) (htimer : s.queue.timers e.sequence = some timer) :
    timer.sequence = e.sequence ∧ timer.entry = e := by
  have hcurrent : s.phase.current = [] := by rw [hphase]; rfl
  have he : e ∈ s.outstanding := List.mem_append_right _ (by rw [hphase]; exact List.mem_cons_self)
  obtain ⟨hseq, hmem | hmem⟩ := hI.held _ timer htimer
  · exact ⟨hseq, List.inj_on_of_nodup_map (outstanding_nodup hI hcurrent) hmem he hseq⟩
  · rw [hcurrent] at hmem
    exact absurd hmem (by simp)

/-- The callback of the entry at the front may start. -/
theorem front_mayStart {e : Entry} {rest : List Entry} {timer : Timer} (hI : s.Inv) (h : s.Fired)
    (hphase : s.phase = .batch (e :: rest)) (htimer : s.queue.timers e.sequence = some timer) :
    MayStart s.log timer s.now := by
  have hcurrent : s.phase.current = [] := by rw [hphase]; rfl
  have hfront : e ∈ s.phase.rest := by rw [hphase]; exact List.mem_cons_self
  obtain ⟨hseq, hentry⟩ := front_entry hI hphase htimer
  have hdue : timer.expiration ≤ s.now := by
    rw [← entry_time timer, hentry]
    exact h.due e hfront
  refine ⟨hdue, ?_, ?_, ?_⟩
  · intro timer' now' hmem hsame
    obtain ⟨hint, hcur | ⟨hrep, hle⟩⟩ := h.again timer' now' hmem timer
      (by rw [hsame, hseq]; exact htimer)
    · rw [hcurrent] at hcur
      exact absurd hcur (by simp)
    · exact ⟨hint, hrep, le_trans hle hdue⟩
  · intro hmem
    have hnone := (h.kept _ hmem).2
    rw [hseq, htimer] at hnone
    exact absurd hnone (by simp)
  · intro timer' now' hmem
    rw [hentry]
    exact h.ordered timer' now' hmem e hfront

/-- A callback starts. -/
theorem started_fired {e : Entry} {rest : List Entry} {timer : Timer} (hI : s.Inv) (h : s.Fired)
    (hphase : s.phase = .batch (e :: rest)) (htimer : s.queue.timers e.sequence = some timer) :
    ({ s with phase := .running e.sequence rest }.record (.started timer s.now)).Fired := by
  have hcurrent : s.phase.current = [] := by rw [hphase]; rfl
  have hrest : s.phase.rest = e :: rest := by rw [hphase]; rfl
  have hsorted := h.sorted
  rw [hrest] at hsorted
  obtain ⟨hseq, hentry⟩ := front_entry hI hphase htimer
  have hnew : ∀ timer' now', Event.started timer' now' ∈ s.log ++ [Event.started timer s.now] →
      Event.started timer' now' ∈ s.log ∨ (timer' = timer ∧ now' = s.now) := by
    intro timer' now' hmem
    rcases List.mem_append.mp hmem with hmem | hmem
    · exact Or.inl hmem
    · obtain ⟨rfl, rfl⟩ := Event.started.inj (List.mem_singleton.mp hmem)
      exact Or.inr ⟨rfl, rfl⟩
  refine
    { ok := ?_
      past := ?_
      again := ?_
      kept := ?_
      due := ?_
      sorted := (List.pairwise_cons.mp hsorted).2
      ordered := ?_ }
  · refine h.ok.concat ?_
    intro timer' now' heq
    obtain ⟨rfl, rfl⟩ := Event.started.inj heq
    exact front_mayStart hI h hphase htimer
  · intro timer' now' hmem
    rcases hnew timer' now' hmem with hmem | ⟨rfl, rfl⟩
    · exact ⟨(h.past timer' now' hmem).1, insertions_append (h.past timer' now' hmem).2⟩
    · refine ⟨le_refl _, insertions_append ?_⟩
      rw [hseq]
      exact hI.known_of_held htimer
  · intro timer' now' hmem timer'' ht
    rcases hnew timer' now' hmem with hmem | ⟨rfl, rfl⟩
    · obtain ⟨hint, hcur | hlate⟩ := h.again timer' now' hmem timer'' ht
      · rw [hcurrent] at hcur
        exact absurd hcur (by simp)
      · exact ⟨hint, Or.inr hlate⟩
    · change s.queue.timers timer'.sequence = some timer'' at ht
      rw [hseq, htimer] at ht
      obtain rfl := Option.some.inj ht
      exact ⟨rfl, Or.inl (by rw [hseq]; exact List.mem_singleton_self _)⟩
  · intro n hmem
    obtain ⟨hins, hnone⟩ := h.kept n (by simpa [Sys.record] using hmem)
    exact ⟨insertions_append hins, hnone⟩
  · intro e' he'
    exact h.due e' (by rw [hrest]; exact List.mem_cons_of_mem _ he')
  · intro timer' now' hmem e' he'
    change Event.started timer' now' ∈ currentCall (s.log ++ [.started timer s.now]) at hmem
    rw [currentCall_concat (by simp)] at hmem
    rcases List.mem_cons.mp hmem with heq | hmem
    · obtain ⟨rfl, rfl⟩ := Event.started.inj heq
      rw [hentry]
      refine lt_of_le_of_ne ((List.pairwise_cons.mp hsorted).1 e' he') ?_
      rintro rfl
      -- `e` occurs once in the batch
      have hbatch : (e :: rest).Nodup := by
        have hsub := List.Nodup.of_map Entry.sequence (outstanding_nodup hI hcurrent)
        unfold outstanding at hsub
        rw [hrest] at hsub
        exact (List.nodup_append.mp hsub).2.1
      exact (List.nodup_cons.mp hbatch).1 he'
    · exact h.ordered timer' now' hmem e' (by rw [hrest]; exact List.mem_cons_of_mem _ he')

/-- Moving on in the batch without a callback. -/
theorem Fired.skip (h : s.Fired) (hlog : s'.log = s.log) (hnow : s'.now = s.now)
    (htimers : s'.queue.timers = s.queue.timers) (hcurrent : s.phase.current = [])
    (hrest : s'.phase.rest.Sublist s.phase.rest) : s'.Fired where
  ok := by rw [hlog]; exact h.ok
  past := by rw [hlog, hnow]; exact h.past
  again := by
    intro timer now hmem timer' ht
    rw [hlog] at hmem
    rw [htimers] at ht
    obtain ⟨hint, hcur | hlate⟩ := h.again timer now hmem timer' ht
    · rw [hcurrent] at hcur
      exact absurd hcur (by simp)
    · exact ⟨hint, Or.inr hlate⟩
  kept := by rw [hlog, htimers]; exact h.kept
  due := by
    intro e he
    rw [hnow]
    exact h.due e (hrest.subset he)
  sorted := h.sorted.sublist hrest
  ordered := by
    intro timer now hmem e he
    rw [hlog] at hmem
    exact h.ordered timer now hmem e (hrest.subset he)

theorem next_fired (hI : s.Inv) (h : s.Fired) : s.next.Fired := by
  unfold next
  split
  case h_1 hphase =>
    refine h.skip rfl rfl (resetTimerFd_timers _ _) (by rw [hphase]; rfl) ?_
    exact List.nil_sublist _
  case h_2 e rest hphase =>
    split
    · refine h.skip rfl rfl rfl (by rw [hphase]; rfl) ?_
      rw [hphase]
      exact List.sublist_cons_self _ _
    · rename_i timer htimer
      exact started_fired hI h hphase htimer
  case h_3 => exact h

/-- A callback returns: a timer that repeats expires an interval from now. -/
theorem callbackReturns_fired (h : s.Fired) : s.callbackReturns.Fired := by
  unfold callbackReturns
  split
  · rename_i n rest hphase
    have hrest : s.phase.rest = rest := by rw [hphase]; rfl
    have hcurrent : ∀ m, m ∈ s.phase.current → m = n := by
      intro m hm
      rw [hphase] at hm
      exact List.mem_singleton.mp hm
    refine
      { ok := h.ok
        past := h.past
        again := ?_
        kept := ?_
        due := by rw [← hrest]; exact h.due
        sorted := by rw [← hrest]; exact h.sorted
        ordered := by rw [← hrest]; exact h.ordered }
    · intro timer now hmem timer' ht
      rcases rearm_cases s.queue s.now n with ⟨hnone, heq⟩ | ⟨t, hn, hrep, heq⟩ | ⟨t, hn, -, heq⟩
      · rw [heq] at ht
        obtain ⟨hint, hcur | hlate⟩ := h.again timer now hmem timer' ht
        · rw [hcurrent _ hcur, hnone] at ht
          exact absurd ht (by simp)
        · exact ⟨hint, Or.inr hlate⟩
      · rw [heq] at ht
        rcases update_some_inv ht with ⟨hseq, rfl⟩ | ⟨hseq, hold⟩
        · have hint := (h.again timer now hmem t (by rw [hseq]; exact hn)).1
          have hpast := (h.past timer now hmem).1
          have hrestart : t.restart s.now =
              { t with expiration := s.now + t.interval * nsPerMillisecond } := by
            simp [Timer.restart, hrep]
          rw [hrestart]
          refine ⟨hint, Or.inr ⟨hrep, ?_⟩⟩
          exact Int.add_le_add_right hpast _
        · obtain ⟨hint, hcur | hlate⟩ := h.again timer now hmem timer' hold
          · exact absurd (hcurrent _ hcur) hseq
          · exact ⟨hint, Or.inr hlate⟩
      · rw [heq] at ht
        obtain ⟨hseq, hold⟩ := update_none_inv ht
        obtain ⟨hint, hcur | hlate⟩ := h.again timer now hmem timer' hold
        · exact absurd (hcurrent _ hcur) hseq
        · exact ⟨hint, Or.inr hlate⟩
    · intro m hmem
      obtain ⟨hins, hnone⟩ := h.kept m hmem
      exact ⟨hins, rearm_none hnone _ _⟩
  · exact h

/-! ## Runs -/

theorem addTimer_fired (hI : s.Inv) (h : s.Fired) (t : ThreadId) (tp interval : Int) :
    (s.addTimer t tp interval).Fired := by
  have hnext : ({ s with counter := s.counter + 1 } : Sys).Fired :=
    h.frame rfl rfl (le_refl _) fun _ _ ht _ => ht
  unfold addTimer
  dsimp only
  split
  · exact (insert_fired hnext hI.counter_new.1).record rfl (by simp)
  · exact hnext.frame rfl rfl (le_refl _) fun _ _ ht _ => ht

theorem push_fired (h : s.Fired) (i : Nat) : (s.push i).Fired := by
  unfold push
  split
  · exact h
  · rename_i timer hi
    have hpushed : ({ s with
        inFlight := s.inFlight.eraseIdx i
        taskQueue := s.taskQueue ++ [.insert timer] } : Sys).Fired :=
      h.frame rfl rfl (le_refl _) fun _ _ ht _ => ht
    exact hpushed.record rfl (by simp)

theorem cancelTimer_fired (hI : s.Inv) (h : s.Fired) (t : ThreadId) (id : Nat) :
    (s.cancelTimer t id).Fired := by
  have hcalled : (s.record (.cancelCalled id)).Fired := h.record rfl (by simp)
  unfold cancelTimer
  dsimp only
  split
  · exact cancel_fired (hI.record rfl) hcalled id
  · exact hcalled.frame rfl rfl (le_refl _) fun _ _ ht _ => ht

theorem runTask_fired {task : Task} {tasks : List Task} (hI : s.Inv) (h : s.Fired)
    (hqueue : s.taskQueue = task :: tasks) : ({ s with taskQueue := tasks }.execute task).Fired := by
  have hrest : ({ s with taskQueue := tasks } : Sys).Fired :=
    h.frame rfl rfl (le_refl _) fun _ _ ht _ => ht
  cases task with
  | insert timer =>
    have hmem : timer.sequence ∈ s.waiting := by
      unfold waiting
      rw [hqueue]
      exact List.mem_append_right _ List.mem_cons_self
    exact insert_fired hrest (hI.unknown _ hmem)
  | cancel id => exact cancel_fired (s := { s with taskQueue := tasks }) (hI.dequeue hqueue) hrest id

theorem step_fired {l : Label} (hI : s.Inv) (h : s.Fired) (hs : s.step l = .ok s') : s'.Fired := by
  cases l with
  | addTimer t tp interval =>
    obtain rfl := Except.ok.inj hs
    split
    · exact addTimer_fired hI h t tp interval
    · exact h
  | push i =>
    obtain rfl := Except.ok.inj hs
    exact push_fired h i
  | cancelTimer t id =>
    obtain rfl := Except.ok.inj hs
    split
    · exact cancelTimer_fired hI h t id
    · exact h
  | runTask =>
    simp only [step] at hs
    split at hs
    · rename_i hqueue
      obtain rfl := Except.ok.inj hs
      exact runTask_fired hI h hqueue
    · obtain rfl := Except.ok.inj hs
      exact h
  | handleExpiredTimers =>
    obtain rfl := Except.ok.inj hs
    split
    · rename_i hidle
      exact handleExpiredTimers_fired h hidle
    · exact h
  | next =>
    obtain rfl := Except.ok.inj hs
    exact next_fired hI h
  | callbackReturns =>
    obtain rfl := Except.ok.inj hs
    exact callbackReturns_fired h
  | elapse ns =>
    obtain rfl := Except.ok.inj hs
    exact h.frame rfl rfl (by simp [elapse]) fun _ _ ht _ => ht
  | otherLoop =>
    obtain rfl := Except.ok.inj hs
    exact h.frame rfl rfl (le_refl _) fun _ _ ht _ => ht

/-- **The firing semantics of timers**, in every state of every run: no callback starts early, one of a
one-shot timer starts at most once, one of a repeating timer at least an interval after it did before,
none after a cancel that found its timer, and those of one batch in increasing order. -/
theorem timer_firing {loop : LoopId} {now : Nat} {ls : List Label} {s : Sys}
    (h : run step (Sys.start loop now) ls = .ok s) : FiringOk s.log := by
  have hboth : s.Inv ∧ s.Fired := by
    refine run_preserves (I := fun s => s.Inv ∧ s.Fired) ?_
      ⟨start_inv loop now, start_fired loop now⟩ h
    intro s s' l hI hs
    exact ⟨step_inv hI.1 hs, step_fired hI.1 hI.2 hs⟩
  exact hboth.2.ok

/-- A timer that repeats every millisecond fires twice; the second callback cancels it. -/
def repeatTwice : List Label :=
  [.addTimer (.loop 0) 10 1, .elapse 20, .handleExpiredTimers, .next, .callbackReturns, .next,
    .elapse 1000000, .handleExpiredTimers, .next, .cancelTimer (.loop 0) 0, .callbackReturns, .next]

theorem timer_firing_repeatTwice :
    ∃ s, run step (Sys.start 0 0) repeatTwice = .ok s ∧
      s.log = [.inserted ⟨10, 1, 0⟩, .returned 0, .expired, .started ⟨10, 1, 0⟩ 20, .expired,
        .started ⟨1000020, 1, 0⟩ 1000020, .cancelCalled 0, .cancelled 0 true] ∧ FiringOk s.log := by
  have hrun : ∃ s, run step (Sys.start 0 0) repeatTwice = .ok s ∧
      s.log = [.inserted ⟨10, 1, 0⟩, .returned 0, .expired, .started ⟨10, 1, 0⟩ 20, .expired,
        .started ⟨1000020, 1, 0⟩ 1000020, .cancelCalled 0, .cancelled 0 true] := by
    decide +kernel
  obtain ⟨s, hs, hlog⟩ := hrun
  exact ⟨s, hs, hlog, timer_firing hs⟩

end Sys

end HyperMuduo.Net.TimerQueue
