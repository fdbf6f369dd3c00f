import HyperMuduo.Lib.Word
import HyperMuduo.TimerQueue.Arming

/-!
# The arithmetic of deadlines

`runAfter` and `runEvery` of `net/EventLoop` compute `steady_clock::now() + us`, and `Timer::restart`
computes `now() + interval_`. The clock counts nanoseconds and the delay milliseconds, both in 64 bits.
`std::chrono` brings the delay to nanoseconds first, where a millionth of the range of milliseconds
fits, and nothing checks the delay. `resetTimerFd_` then splits the time of the earliest entry into
seconds and nanoseconds.

The model of `TimerQueue` computes with integers. Here the operations are those of 64 bits, and an
overflow, which is undefined, is the fault `signedOverflow`.

* `runAfter`, `runEvery`, `Timer.restart64` and `itValue` are the code; `restart64_eq` and
  `resetTimerFd_itValue` say that without an overflow they are what the model of the queue computes.
* **`deadline_exact_iff`**: the deadlines of a delay are exact, are armed as they are, and are no earlier
  than those of a smaller delay, if and only if the last of them fits in 64 bits.
-/

namespace HyperMuduo.Net

open HyperMuduo.Lib

/-- The conversion of `std::chrono::milliseconds` to `std::chrono::nanoseconds`. -/
def toNanoseconds (ms : Int) : Except Fault Int := int64 (ms * nsPerMillisecond)

/-- `now + ms`, of a `steady_clock::time_point` and `std::chrono::milliseconds`. -/
def timePoint (now ms : Int) : Except Fault Int := do
  let ns ← toNanoseconds ms
  int64 (now + ns)

/-- `Timer::restart`. -/
def Timer.restart64 (t : Timer) (now : Int) : Except Fault Timer :=
  if t.isRepeated then do
    let expiration ← timePoint now t.interval
    return { t with expiration := expiration }
  else .ok t

namespace TimerQueue

/-- `tv_sec` and `tv_nsec` of `resetTimerFd_`. `duration_cast` rounds towards zero; for the subtraction
the seconds are brought to nanoseconds again. -/
def itValue (time : Int) : Except Fault (Int × Int) := do
  let seconds := time.tdiv nsPerSecond
  let ns ← int64 (seconds * nsPerSecond)
  let nanoseconds ← int64 (time - ns)
  return (seconds, nanoseconds)

namespace Sys

/-- `EventLoop::runAfter`. -/
def runAfter (s : Sys) (t : ThreadId) (us : Int) : Except Fault Sys := do
  let tp ← timePoint s.now us
  return s.addTimer t tp 0

/-- `EventLoop::runEvery`. -/
def runEvery (s : Sys) (t : ThreadId) (us : Int) : Except Fault Sys := do
  let tp ← timePoint s.now us
  return s.addTimer t tp us

/-- The timer is in the map and has its entry in the heap, or is on its way there. -/
def Stores (s : Sys) (timer : Timer) : Prop :=
  s.queue.timers timer.sequence = some timer ∧ timer.entry ∈ s.queue.timerQueue.elems ∨
    timer ∈ s.inFlight

end Sys

/-- `tv_sec` and `tv_nsec` are in range and denote the time. -/
def Splits (time : Int) : Prop :=
  ∃ sec nsec, itValue time = .ok (sec, nsec) ∧ 0 ≤ sec ∧ 0 ≤ nsec ∧ nsec < nsPerSecond ∧
    sec * nsPerSecond + nsec = time

/-- A delay of `d` milliseconds, from now on and from a later time of the clock on. The timer of
`runEvery(0)` is not repeated, and `restart` leaves it alone. -/
structure Exact (s : Sys) (t : ThreadId) (d now' : Int) : Prop where
  runAfter : ∃ s', s.runAfter t d = .ok s' ∧ s'.Stores ⟨s.now + d * nsPerMillisecond, 0, s.counter⟩
  runEvery : ∃ s', s.runEvery t d = .ok s' ∧ s'.Stores ⟨s.now + d * nsPerMillisecond, d, s.counter⟩
  restart : ∃ t', (⟨s.now + d * nsPerMillisecond, d, s.counter⟩ : Timer).restart64 now' = .ok t' ∧
    t'.expiration = if 0 < d then now' + d * nsPerMillisecond else s.now + d * nsPerMillisecond
  splits : Splits (s.now + d * nsPerMillisecond) ∧ Splits (now' + d * nsPerMillisecond)
  monotone : ∀ d', 0 ≤ d' → d' ≤ d →
    ∃ tp, timePoint s.now d' = .ok tp ∧ tp ≤ s.now + d * nsPerMillisecond

variable {s : Sys} {t : ThreadId} {now now' d ms tp time : Int}

/-! ## The operations -/

theorem timePoint_of_fits (hnow : 0 ≤ now) (hms : 0 ≤ ms)
    (hfits : now + ms * nsPerMillisecond < 2 ^ 63) :
    timePoint now ms = .ok (now + ms * nsPerMillisecond) := by
  have hns : 0 ≤ ms * nsPerMillisecond := Int.mul_nonneg hms (by decide)
  unfold timePoint toNanoseconds
  rw [int64_of_inInt64 ⟨by omega, by omega⟩, ok_bind, int64_of_inInt64 ⟨by omega, hfits⟩]

theorem timePoint_inv (h : timePoint now ms = .ok tp) :
    tp = now + ms * nsPerMillisecond ∧ tp < 2 ^ 63 := by
  obtain ⟨ns, hns, hsum⟩ := bind_ok_inv h
  obtain ⟨-, rfl⟩ := int64_ok_inv hns
  obtain ⟨hin, rfl⟩ := int64_ok_inv hsum
  exact ⟨rfl, hin.2⟩

/-- Seconds are whole, and the rest is less than one. -/
theorem itValue_of_nonneg (hlo : 0 ≤ time) (hhi : time < 2 ^ 63) :
    itValue time = .ok (time / nsPerSecond, time % nsPerSecond) := by
  have hdiv : time.tdiv nsPerSecond = time / nsPerSecond := Int.tdiv_eq_ediv_of_nonneg hlo
  have hsplit : time / nsPerSecond * nsPerSecond + time % nsPerSecond = time :=
    Int.ediv_mul_add_emod time nsPerSecond
  have hrest : 0 ≤ time % nsPerSecond := Int.emod_nonneg _ (by decide)
  have hwhole : 0 ≤ time / nsPerSecond * nsPerSecond :=
    Int.mul_nonneg (Int.ediv_nonneg hlo (by decide)) (by decide)
  have hsub : time - time / nsPerSecond * nsPerSecond = time % nsPerSecond := by omega
  unfold itValue
  dsimp only
  rw [hdiv, int64_of_inInt64 ⟨by omega, by omega⟩, ok_bind, hsub,
    int64_of_inInt64 ⟨by omega, by omega⟩]
  rfl

theorem splits_of_nonneg (hlo : 0 ≤ time) (hhi : time < 2 ^ 63) : Splits time :=
  ⟨time / nsPerSecond, time % nsPerSecond, itValue_of_nonneg hlo hhi,
    Int.ediv_nonneg hlo (by decide), Int.emod_nonneg _ (by decide), Int.emod_lt_of_pos _ (by decide),
    Int.ediv_mul_add_emod time nsPerSecond⟩

/-! ## The model of the queue -/

/-- A restart that does not overflow is the one of the model. -/
theorem restart64_eq {timer timer' : Timer} (h : timer.restart64 now = .ok timer') :
    timer' = timer.restart now := by
  unfold Timer.restart64 at h
  unfold Timer.restart
  split at h
  · rename_i hrepeated
    obtain ⟨tp, htp, hret⟩ := bind_ok_inv h
    obtain ⟨rfl, -⟩ := timePoint_inv htp
    rw [if_pos hrepeated]
    exact (Except.ok.inj hret).symm
  · rename_i honce
    rw [if_neg honce]
    exact (Except.ok.inj h).symm

/-- The model sets the timerfd to what the code computes. -/
theorem resetTimerFd_itValue {q : TimerQueue} {e : Entry} {sec nsec : Int}
    (htop : q.timerQueue.top = some e) (h : itValue e.time = .ok (sec, nsec)) :
    (q.resetTimerFd now).timerfd = q.timerfd.settime now sec nsec := by
  obtain ⟨ns, hns, h⟩ := bind_ok_inv h
  obtain ⟨-, rfl⟩ := int64_ok_inv hns
  obtain ⟨nanoseconds, hsub, hret⟩ := bind_ok_inv h
  obtain ⟨-, rfl⟩ := int64_ok_inv hsub
  obtain ⟨rfl, rfl⟩ := Prod.mk.inj (Except.ok.inj hret)
  exact resetTimerFd_timerfd htop now

theorem addTimer_stores (s : Sys) (t : ThreadId) (tp interval : Int) :
    (s.addTimer t tp interval).Stores ⟨tp, interval, s.counter⟩ := by
  unfold Sys.addTimer
  dsimp only
  split
  · refine Or.inl ⟨?_, ?_⟩
    · change (s.queue.insert s.now ⟨tp, interval, s.counter⟩).timers s.counter = _
      rw [insert_timers]
      exact Function.update_self ..
    · change _ ∈ (s.queue.insert s.now ⟨tp, interval, s.counter⟩).timerQueue.elems
      rw [insert_timerQueue]
      exact PriorityQueue.mem_emplace.mpr (Or.inl rfl)
  · exact Or.inr (List.mem_append_right _ List.mem_cons_self)

/-! ## Exact deadlines -/

theorem runAfter_of_fits (hnow : 0 ≤ s.now) (hd : 0 ≤ d)
    (hfits : s.now + d * nsPerMillisecond < 2 ^ 63) (t : ThreadId) :
    s.runAfter t d = .ok (s.addTimer t (s.now + d * nsPerMillisecond) 0) := by
  unfold Sys.runAfter
  rw [timePoint_of_fits hnow hd hfits]
  rfl

theorem runEvery_of_fits (hnow : 0 ≤ s.now) (hd : 0 ≤ d)
    (hfits : s.now + d * nsPerMillisecond < 2 ^ 63) (t : ThreadId) :
    s.runEvery t d = .ok (s.addTimer t (s.now + d * nsPerMillisecond) d) := by
  unfold Sys.runEvery
  rw [timePoint_of_fits hnow hd hfits]
  rfl

/-- The restart of a timer that repeats starts from the later time. -/
theorem restart64_of_fits {timer : Timer} (hnow : 0 ≤ now) (hd : 0 ≤ timer.interval)
    (hfits : now + timer.interval * nsPerMillisecond < 2 ^ 63) :
    ∃ t', timer.restart64 now = .ok t' ∧ t'.expiration =
      if 0 < timer.interval then now + timer.interval * nsPerMillisecond else timer.expiration := by
  unfold Timer.restart64 Timer.isRepeated
  by_cases hpos : 0 < timer.interval
  · rw [if_pos (decide_eq_true hpos), if_pos hpos, timePoint_of_fits hnow hd hfits]
    exact ⟨_, rfl, rfl⟩
  · rw [if_neg (by simpa using hpos), if_neg hpos]
    exact ⟨_, rfl, rfl⟩

/-- **Deadlines are exact if and only if the last one fits.** The clock reads `s.now`, and later
`now'`. -/
theorem deadline_exact_iff (hnow : 0 ≤ s.now) (hlater : s.now ≤ now') (hclock : now' < 2 ^ 63)
    (hd : 0 ≤ d) (t : ThreadId) :
    Exact s t d now' ↔ now' + d * nsPerMillisecond < 2 ^ 63 := by
  have hns : 0 ≤ d * nsPerMillisecond := Int.mul_nonneg hd (by decide)
  constructor
  · intro h
    obtain ⟨t', ht', -⟩ := h.restart
    unfold Timer.restart64 Timer.isRepeated at ht'
    by_cases hpos : 0 < d
    · rw [if_pos (decide_eq_true hpos)] at ht'
      obtain ⟨tp, htp, -⟩ := bind_ok_inv ht'
      obtain ⟨rfl, hfits⟩ := timePoint_inv htp
      exact hfits
    · -- the delay is zero
      obtain rfl : d = 0 := by omega
      simpa using hclock
  · intro hfits
    have hfits₀ : s.now + d * nsPerMillisecond < 2 ^ 63 := by omega
    refine
      { runAfter := ⟨_, runAfter_of_fits hnow hd hfits₀ t, addTimer_stores ..⟩
        runEvery := ⟨_, runEvery_of_fits hnow hd hfits₀ t, addTimer_stores ..⟩
        restart := restart64_of_fits (by omega) hd hfits
        splits := ⟨splits_of_nonneg (by omega) hfits₀, splits_of_nonneg (by omega) hfits⟩
        monotone := ?_ }
    intro d' hd' hle
    have hsmaller : d' * nsPerMillisecond ≤ d * nsPerMillisecond :=
      Int.mul_le_mul_of_nonneg_right hle (by decide)
    exact ⟨_, timePoint_of_fits hnow hd' (by omega), by omega⟩

/-- A timer that repeats every second. -/
theorem deadline_exact_everySecond : Exact (.start 0 5) (.loop 0) 1000 7 :=
  (deadline_exact_iff (by decide) (by decide) (by decide) (by decide) _).mpr (by decide)

/-- `milliseconds::max()`, for a timer that is never to fire: the delay does not fit in nanoseconds. -/
theorem deadline_not_exact_max :
    (Sys.start 0 5).runAfter (.loop 0) (2 ^ 63 - 1) = .error .signedOverflow ∧
      ¬ Exact (.start 0 5) (.loop 0) (2 ^ 63 - 1) 5 := by
  have herror : (Sys.start 0 5).runAfter (.loop 0) (2 ^ 63 - 1) = .error .signedOverflow := rfl
  refine ⟨herror, ?_⟩
  intro h
  obtain ⟨s', hs', -⟩ := h.runAfter
  rw [herror] at hs'
  exact absurd hs' (by simp)

end TimerQueue

end HyperMuduo.Net
