import Mathlib.Algebra.Order.Ring.Int
import Mathlib.Data.Prod.Lex
import HyperMuduo.Lib.PriorityQueue

/-!
# `Timer` and `TimerQueue` as the code computes them

Model of `net/Timer` and `net/TimerQueue`, and of the `timerfd` under it. Times are nanoseconds of the
steady clock, from its epoch; intervals are milliseconds.

* `timers_` is a map from sequence numbers to timers, `timer_queue_` a priority queue of pairs of a
  time and a sequence number. `cancelTimer` erases from the map only.
* `handleExpiredTimers_` runs callbacks, which add and cancel timers. It is cut there: `takeExpired` is
  the part up to the loop, `rearm` what follows a callback, and `resetTimerFd` the last call.
* `Timerfd.settime` is `timerfd_settime` with `TFD_TIMER_ABSTIME`: all zero disarms, a time that is not
  a valid `itimerspec` is refused and changes nothing, a time that has passed expires at once, and
  every accepted call forgets expirations not yet read.
* The counter of sequence numbers has 64 bits; it does not wrap here.
-/

namespace HyperMuduo.Net

open HyperMuduo.Lib

def nsPerSecond : Int := 1000000000

def nsPerMillisecond : Int := 1000000

/-- The callback of a timer is named by its sequence number. -/
structure Timer where
  expiration : Int
  interval : Int
  sequence : Nat
  deriving DecidableEq, Repr

namespace Timer

def isRepeated (t : Timer) : Bool := 0 < t.interval

def restart (t : Timer) (now : Int) : Timer :=
  if t.isRepeated then { t with expiration := now + t.interval * nsPerMillisecond } else t

end Timer

/-! ## The timerfd -/

structure Timerfd where
  /-- The absolute expiry it is armed with. -/
  armed : Option Int
  /-- There is an expiration to read. -/
  unread : Bool
  deriving DecidableEq, Repr

namespace Timerfd

def disarmed : Timerfd := ⟨none, false⟩

def settime (fd : Timerfd) (now sec nsec : Int) : Timerfd :=
  if sec = 0 ∧ nsec = 0 then disarmed
  -- EINVAL
  else if sec < 0 ∨ nsec < 0 ∨ nsPerSecond ≤ nsec then fd
  else if sec * nsPerSecond + nsec ≤ now then ⟨none, true⟩
  else ⟨some (sec * nsPerSecond + nsec), false⟩

/-- The clock reads `now`. -/
def elapse (fd : Timerfd) (now : Int) : Timerfd :=
  match fd.armed with
  | none => fd
  | some e => if e ≤ now then ⟨none, true⟩ else fd

end Timerfd

/-! ## The queue -/

namespace TimerQueue

/-- A pair of `timer_queue_`, compared as a `std::pair`. -/
abbrev Entry := Int ×ₗ Nat

def Entry.time (e : Entry) : Int := (ofLex e).1

def Entry.sequence (e : Entry) : Nat := (ofLex e).2

end TimerQueue

open TimerQueue

/-- The entry of a timer. -/
def Timer.entry (t : Timer) : Entry := toLex (t.expiration, t.sequence)

structure TimerQueue where
  timers : Nat → Option Timer
  timerQueue : PriorityQueue Entry
  timerfd : Timerfd

namespace TimerQueue

def empty : TimerQueue := ⟨fun _ => none, .empty, .disarmed⟩

def resetTimerFd (q : TimerQueue) (now : Int) : TimerQueue :=
  match q.timerQueue.top with
  | none => { q with timerfd := q.timerfd.settime now 0 0 }
  | some e =>
    -- `duration_cast` rounds towards zero
    let seconds := e.time.tdiv nsPerSecond
    { q with timerfd := q.timerfd.settime now seconds (e.time - seconds * nsPerSecond) }

/-- The closure of `addTimer`. -/
def insert (q : TimerQueue) (now : Int) (t : Timer) : TimerQueue :=
  let q : TimerQueue :=
    { q with
      timers := Function.update q.timers t.sequence (some t)
      timerQueue := q.timerQueue.emplace t.entry }
  if q.timerQueue.top.map Entry.time = some t.expiration then q.resetTimerFd now else q

/-- The closure of `cancelTimer`. -/
def cancel (q : TimerQueue) (id : Nat) : TimerQueue :=
  { q with timers := Function.update q.timers id none }

/-- The `read` of `handleExpiredTimers_` and `getExpiredTimers_`, when there is an expiration to read. -/
def takeExpired (q : TimerQueue) (now : Int) : List Entry × TimerQueue :=
  let (expired, rest) := q.timerQueue.popWhile fun e => e.time ≤ now
  (expired, { q with timerQueue := rest, timerfd := { q.timerfd with unread := false } })

/-- What follows the callback of a timer. -/
def rearm (q : TimerQueue) (now : Int) (sequence : Nat) : TimerQueue :=
  match q.timers sequence with
  | none => q
  | some t =>
    if t.isRepeated then
      let t := t.restart now
      { q with
        timers := Function.update q.timers sequence (some t)
        timerQueue := q.timerQueue.emplace (toLex (t.expiration, sequence)) }
    else { q with timers := Function.update q.timers sequence none }

end TimerQueue

end HyperMuduo.Net
