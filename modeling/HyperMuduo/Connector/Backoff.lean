import HyperMuduo.Connector.Spec
import HyperMuduo.Connector.System

/-!
# The pace of the attempts

A connector is started once, and restarted only while it is `Connected`, as the close callback of
`TcpClient` does. `retry` doubles `retry_delay_` before it arms the timer, up to `MAX_RETRY_DELAY`, and
`restart` takes it back to `DEFAULT_RETRY_DELAY`.

* What happens next is in exactly one place (`Token`, `Holds`): a closure of `startInLoop` in a call, on
  the queue or in the batch, a channel, a timer, or an expired timer whose closure is still to run.
* `Fits` is the invariant. It says for each place how far the attempts and the delay are.

**`attempts_paced`**: the `n+1`-st attempt since the start or restart is not made before the first `n`
delays have passed.
**`never_asleep`**: as long as `Socket::connect` answers what `connect` has a case for, something happens
next, or the connector is `Connected`.
-/

namespace HyperMuduo.Net.Connector

open HyperMuduo.Lib

/-- `retry_delay_` after `n` retries, in milliseconds. -/
def backoff (n : Nat) : Nat := min (defaultRetryDelay * 2 ^ n) maxRetryDelay

/-- The first `n` delays together. -/
def waited : Nat → Nat
  | 0 => 0
  | n + 1 => waited n + backoff (n + 1)

theorem backoff_zero : backoff 0 = defaultRetryDelay := by decide

theorem backoff_succ (n : Nat) : backoff (n + 1) = min (2 * backoff n) maxRetryDelay := by
  have hpow : defaultRetryDelay * 2 ^ (n + 1) = 2 * (defaultRetryDelay * 2 ^ n) := by
    rw [Nat.pow_succ]
    ac_rfl
  unfold backoff
  rw [hpow]
  omega

/-! ## Counting the attempts -/

def Entry.attempt (n : Nat) : Entry → Nat
  | .called _ _ => 0
  | .effect (.connect _) => n + 1
  | _ => n

/-- How often `Socket::connect` was called since the last call of the user. -/
def attempts (log : List Entry) : Nat := log.foldl Entry.attempt 0

def Effect.isConnect : Effect → Bool
  | .connect _ => true
  | _ => false

theorem attempts_concat (log : List Entry) (e : Entry) :
    attempts (log ++ [e]) = e.attempt (attempts log) := List.foldl_append ..

theorem attempts_effects (log : List Entry) (es : List Effect) :
    attempts (log ++ es.map .effect) = attempts log + es.countP Effect.isConnect := by
  induction es generalizing log with
  | nil => simp
  | cons e es ih =>
    have hsplit : log ++ (e :: es).map Entry.effect = log ++ [.effect e] ++ es.map .effect := by simp
    rw [hsplit, ih, attempts_concat, List.countP_cons]
    cases e <;> simp [Entry.attempt, Effect.isConnect]
    omega

/-- Neither an attempt nor a timer. -/
def Plain (es : List Effect) : Prop :=
  es.countP Effect.isConnect = 0 ∧ ∀ now, es.filterMap (Effect.deadline now) = []

theorem Plain.append {es es' : List Effect} (h : Plain es) (h' : Plain es') : Plain (es ++ es') := by
  refine ⟨?_, fun now => ?_⟩
  · rw [List.countP_append, h.1, h'.1]
  · rw [List.filterMap_append, h.2, h'.2]
    rfl

theorem destroySocket_plain (socket : Option Int) : Plain (destroySocket socket) := by
  unfold destroySocket
  split
  · exact ⟨rfl, fun _ => rfl⟩
  · split <;> exact ⟨rfl, fun _ => rfl⟩

theorem destroyChannel_plain (channel : Option (Nat × Channel Handler)) :
    Plain (destroyChannel channel) := by
  cases channel <;> exact ⟨rfl, fun _ => rfl⟩

theorem removal_plain (channel : Option (Nat × Channel Handler)) : Plain (removal channel) := by
  cases channel <;> exact ⟨rfl, fun _ => rfl⟩

section Opening

variable (fd : Int) (socket : Option Int) (es : List Effect)

/-- Opening a socket and calling `Socket::connect` is one attempt. -/
theorem opening_attempts (log : List Entry) (hes : es.countP Effect.isConnect = 0) :
    attempts (log ++ ((Effect.openSocket fd :: destroySocket socket ++ [Effect.connect fd]) ++ es).map
      .effect) = attempts log + 1 := by
  have hcount := (destroySocket_plain socket).1
  rw [attempts_effects]
  simp [List.countP_append, List.countP_cons, hcount, hes, Effect.isConnect]

theorem opening_timers (now : Nat) :
    ((Effect.openSocket fd :: destroySocket socket ++ [Effect.connect fd]) ++ es).filterMap
      (Effect.deadline now) = es.filterMap (Effect.deadline now) := by
  have hdeadline := (destroySocket_plain socket).2
  simp [List.filterMap_append, List.filterMap_cons, hdeadline, Effect.deadline]

end Opening

/-! ## An attempt -/

/-- An error `connect` has no case for. -/
def ConnectResult.unexpected : ConnectResult → Bool
  | .other _ => true
  | _ => false

/-- `startInLoop` leaves nothing behind only after such an error. -/
theorem startInLoop_gaveUp {c c' : Connector} {t : ThreadId} {k : Kernel} {es : List Effect}
    (h : c.startInLoop t k = .ok (c', es)) (hflag : c.connectFlag = true)
    (hchannel : c'.channel = none) (htimer : ∀ d, .runAfter d ∉ es) : k.connect.unexpected = true := by
  obtain ⟨_, -, h⟩ := bind_ok_inv h
  split at h
  · unfold connect at h
    split at h
    · exact absurd h (by simp)
    · dsimp only [openSocket] at h
      split at h
      case h_1 | h_2 | h_3 | h_4 =>
        obtain ⟨⟨c₁, es₁⟩, hconn, h⟩ := bind_ok_inv h
        obtain ⟨rfl, rfl⟩ := Prod.mk.inj (Except.ok.inj h)
        obtain ⟨_, -, hconn⟩ := bind_ok_inv hconn
        obtain ⟨rfl, rfl⟩ := Prod.mk.inj (Except.ok.inj hconn)
        exact absurd hchannel (by simp)
      case h_5 | h_6 | h_7 | h_8 | h_9 =>
        obtain ⟨rfl, rfl⟩ := Prod.mk.inj (Except.ok.inj h)
        refine absurd ?_ (htimer (min (2 * c.retryDelay) maxRetryDelay))
        simp [retry, resetSocket, setState, hflag]
      case h_10 errno hother =>
        rw [hother]
        rfl
  · exact absurd h (by simp)

/-! ## Where what happens next is -/

/-- The place of what happens next. -/
inductive Token where
  | none
  | call (t : ThreadId) (n : Nat)
  | queued (n : Nat)
  | batched (n : Nat)
  | channel
  | timer (deadline : Nat)
  | expired
  deriving DecidableEq, Repr

namespace Token

def pending : Token → ThreadId → Option Closure
  | .call t n => Function.update (fun _ => Option.none) t (some ⟨.startInLoop, n⟩)
  | _ => fun _ => Option.none

def queue : Token → List Closure
  | .queued n => [⟨.startInLoop, n⟩]
  | _ => []

def batch : Token → List Closure
  | .batched n => [⟨.startInLoop, n⟩]
  | _ => []

def timers : Token → List Nat
  | .timer deadline => [deadline]
  | _ => []

def expiring : Token → Nat
  | .expired => 1
  | _ => 0

end Token

/-- The rest of the batch. -/
def Phase.batch : Phase → List Closure
  | .executing tasks => tasks
  | _ => []

/-- The expired timers whose closures are still to run. -/
def Phase.timers : Phase → Nat
  | .expiring timers _ => timers
  | _ => 0

/-- The token is where it says, and there is no other. -/
structure Holds (s : Sys) (k : Token) : Prop where
  pending : s.pending = k.pending
  queue : s.taskQueue = k.queue
  batch : s.phase.batch = k.batch
  timers : s.timers = k.timers
  expiring : s.phase.timers = k.expiring
  channel : s.connector.channel.isSome = true ↔ k = .channel

/-! ## The invariant -/

/-- After `n` attempts the next one is made at `time` or later. -/
structure Due (s : Sys) (since n time : Nat) : Prop where
  state : s.connector.state = .disconnected
  attempts : attempts s.log = n
  retryDelay : s.connector.retryDelay = backoff n
  connectFlag : s.connector.connectFlag = true
  time : since + waited n ≤ time

/-- The attempts made so far were not too early. -/
def Paced (s : Sys) (since : Nat) : Prop :=
  ∀ n, attempts s.log = n + 1 → since + waited n ≤ s.now

/-- How far the connector is, by the place of the token. -/
def Fits (s : Sys) (since : Nat) (unexpected : Bool) : Token → Prop
  | .none => s.calls = 0 ∧ s.connector.state = .disconnected ∧ s.connector.retryDelay = backoff 0 ∨
      s.calls ≠ 0 ∧ (s.connector.state = .connected ∨ unexpected = true)
  | .call _ _ | .queued _ | .batched _ => Due s since 0 s.now
  | .channel => s.connector.state = .connecting ∧ s.connector.connectFlag = true ∧
      ∃ n, attempts s.log = n + 1 ∧ s.connector.retryDelay = backoff n ∧ since + waited n ≤ s.now
  | .timer deadline => ∃ n, Due s since n deadline
  | .expired => ∃ n, Due s since n s.now

/-- The invariant. Before the first call there is no token. -/
structure Inv (s : Sys) (since : Nat) (unexpected : Bool) : Prop where
  since_le : since ≤ s.now
  paced : Paced s since
  fits : ∃ k, Holds s k ∧ Fits s since unexpected k ∧ (s.calls = 0 → k = .none)

/-- The system, when the connector was last started or restarted, and whether an attempt met an
unexpected error. -/
structure Backoff where
  sys : Sys
  since : Nat
  unexpected : Bool

/-- The kernel answers an attempt with an error `connect` has no case for. -/
def Label.unexpected : Label → Bool
  | .proceed _ k | .loop _ k => k.connect.unexpected
  | _ => false

/-! ## The member functions -/

section Functions

variable {s s' : Sys} {t : ThreadId} {k : Kernel} {since n : Nat}

theorem retryTimer_counts {c : Connector} (hflag : c.connectFlag = true)
    (hdelay : c.retryDelay = backoff n) (now : Nat) :
    c.retryTimer.countP Effect.isConnect = 0 ∧
      c.retryTimer.filterMap (Effect.deadline now) = [now + backoff (n + 1)] := by
  unfold retryTimer
  rw [hflag, if_pos rfl, hdelay, ← backoff_succ]
  exact ⟨rfl, rfl⟩

/-- **An attempt** leaves a channel, or a timer for the next one, or has met an unexpected error. -/
theorem startInLoop_fits (hcalls : s.calls ≠ 0) (hdue : Due s since n s.now) (hnone : Holds s .none)
    (h : s.invoke (s.connector.startInLoop t k) = .ok s') (unexpected : Bool) :
    attempts s'.log = n + 1 ∧ s'.now = s.now ∧ s'.calls = s.calls ∧
      ∃ tok, Holds s' tok ∧ Fits s' since (unexpected || k.connect.unexpected) tok := by
  obtain ⟨⟨c', es⟩, hr, h⟩ := bind_ok_inv h
  obtain rfl := Except.ok.inj h
  have hgaveUp := startInLoop_gaveUp hr hdue.connectFlag
  obtain ⟨-, -, hattempted⟩ := startInLoop_inv hr
  have hchannel : s.connector.channel = none := by
    simpa using hnone.channel
  cases hattempted with
  | inProgress =>
    have hplain : Plain (destroyChannel s.connector.channel ++
        [.updateChannel s.connector.channels k.socket (attemptChannel k.socket).events]) :=
      (destroyChannel_plain _).append ⟨rfl, fun _ => rfl⟩
    have hlog := opening_attempts k.socket s.connector.socket _ s.log hplain.1
    rw [hdue.attempts] at hlog
    refine ⟨hlog, rfl, rfl, .channel, ?_, rfl, hdue.connectFlag, n, hlog, hdue.retryDelay, hdue.time⟩
    refine ⟨hnone.pending, hnone.queue, hnone.batch, ?_, hnone.expiring, by simp [Sys.absorb]⟩
    change s.timers ++ _ = []
    rw [opening_timers, hplain.2, hnone.timers]
    rfl
  | retried =>
    obtain ⟨hcount, htimer⟩ := retryTimer_counts hdue.connectFlag hdue.retryDelay s.now
    have hlog := opening_attempts k.socket s.connector.socket ([.closeSocket k.socket] ++
      s.connector.retryTimer) s.log (by simp [hcount, Effect.isConnect])
    rw [hdue.attempts] at hlog
    refine ⟨hlog, rfl, rfl, .timer (s.now + backoff (n + 1)), ?_, n + 1, ?_⟩
    · refine ⟨hnone.pending, hnone.queue, hnone.batch, ?_, hnone.expiring, ?_⟩
      · change s.timers ++ _ = _
        rw [opening_timers, List.filterMap_append, htimer, hnone.timers]
        rfl
      · simp [Sys.absorb, hchannel]
    · refine ⟨rfl, hlog, ?_, hdue.connectFlag, ?_⟩
      · change min (2 * s.connector.retryDelay) maxRetryDelay = _
        rw [hdue.retryDelay, backoff_succ]
      · have htime := hdue.time
        unfold waited
        omega
  | gaveUp =>
    have hlog := opening_attempts k.socket s.connector.socket [.closeSocket k.socket] s.log rfl
    rw [hdue.attempts] at hlog
    have hunexpected : k.connect.unexpected = true := by
      refine hgaveUp hchannel ?_
      intro d hd
      rcases List.mem_append.mp hd with hd | hd
      · unfold destroySocket at hd
        split at hd
        · simp at hd
        · split at hd <;> simp at hd
      · simp at hd
    refine ⟨hlog, rfl, rfl, .none, ?_, Or.inr ⟨hcalls, Or.inr (by simp [hunexpected])⟩⟩
    refine ⟨hnone.pending, hnone.queue, hnone.batch, ?_, hnone.expiring, by simp [Sys.absorb, hchannel]⟩
    change s.timers ++ _ = []
    rw [opening_timers, hnone.timers]
    rfl

/-- **A writable socket** connects, or the next attempt is due later. -/
theorem handleWritable_fits {err : Int} (hcalls : s.calls ≠ 0) (hflag : s.connector.connectFlag = true)
    (hlog : attempts s.log = n + 1) (hdelay : s.connector.retryDelay = backoff n)
    (htime : since + waited n ≤ s.now) (hchannel : Holds s .channel)
    (h : s.invoke (s.connector.handleWritable t err) = .ok s') (unexpected : Bool) :
    attempts s'.log = n + 1 ∧ s'.now = s.now ∧ s'.calls = s.calls ∧
      ∃ tok, Holds s' tok ∧ Fits s' since unexpected tok := by
  obtain ⟨⟨c', es⟩, hr, h⟩ := bind_ok_inv h
  obtain rfl := Except.ok.inj h
  have hremoval := removal_plain s.connector.channel
  obtain ⟨fd, -, ⟨-, hsettled⟩ | ⟨-, -, rfl, rfl⟩⟩ := handleWritable_inv hr
  · cases hsettled with
    | failed =>
      have hplain := hremoval.append (destroySocket_plain (some fd))
      obtain ⟨hcount, htimer⟩ := retryTimer_counts hflag hdelay s.now
      have hlog' : attempts (s.log ++ (removal s.connector.channel ++ destroySocket (some fd) ++
          s.connector.retryTimer).map .effect) = n + 1 := by
        rw [attempts_effects, List.countP_append, hplain.1, hcount, hlog]
      refine ⟨hlog', rfl, rfl, .timer (s.now + backoff (n + 1)), ?_, n + 1, rfl, hlog', ?_, hflag, ?_⟩
      · refine ⟨hchannel.pending, hchannel.queue, hchannel.batch, ?_, hchannel.expiring, ?_⟩
        · change s.timers ++ _ = _
          rw [List.filterMap_append, hplain.2, htimer, hchannel.timers]
          rfl
        · simp [Sys.absorb]
      · change min (2 * s.connector.retryDelay) maxRetryDelay = _
        rw [hdelay, backoff_succ]
      · unfold waited
        omega
    | ignored _ =>
      have hplain := hremoval.append (destroySocket_plain (some fd))
      refine ⟨?_, rfl, rfl, .none, ?_, Or.inr ⟨hcalls, Or.inl rfl⟩⟩
      · change attempts (s.log ++ _) = _
        rw [attempts_effects, hplain.1, hlog]
      · refine ⟨hchannel.pending, hchannel.queue, hchannel.batch, ?_, hchannel.expiring, ?_⟩
        · change s.timers ++ _ = _
          rw [hplain.2, hchannel.timers]
          rfl
        · simp [Sys.absorb]
  · have hplain : Plain (removal s.connector.channel ++ [.newConnectionCallback fd]) :=
      hremoval.append ⟨rfl, fun _ => rfl⟩
    refine ⟨?_, rfl, rfl, .none, ?_, Or.inr ⟨hcalls, Or.inl rfl⟩⟩
    · change attempts (s.log ++ _) = _
      rw [attempts_effects, hplain.1, hlog]
    · refine ⟨hchannel.pending, hchannel.queue, hchannel.batch, ?_, hchannel.expiring, ?_⟩
      · change s.timers ++ _ = _
        rw [hplain.2, hchannel.timers]
        rfl
      · simp [Sys.absorb]

end Functions

/-! ## The steps -/

section Steps

variable {s s' : Sys} {t : ThreadId} {k : Kernel} {since n : Nat} {unexpected : Bool} {tok : Token}

theorem paced_of_attempts (hlog : attempts s.log = n + 1) (htime : since + waited n ≤ s.now) :
    Paced s since := by
  intro m hm
  obtain rfl : m = n := by omega
  exact htime

/-- How far the connector is does not change. -/
structure Alike (s s' : Sys) : Prop where
  state : s'.connector.state = s.connector.state
  retryDelay : s'.connector.retryDelay = s.connector.retryDelay
  connectFlag : s'.connector.connectFlag = s.connector.connectFlag
  attempts : attempts s'.log = attempts s.log
  calls : s'.calls = s.calls
  now_le : s.now ≤ s'.now

theorem Due.alike {time time' : Nat} (h : Due s since n time) (ha : Alike s s') (hle : time ≤ time') :
    Due s' since n time' :=
  ⟨ha.state.trans h.state, ha.attempts.trans h.attempts, ha.retryDelay.trans h.retryDelay,
    ha.connectFlag.trans h.connectFlag, Nat.le_trans h.time hle⟩

theorem Fits.alike (h : Fits s since unexpected tok) (ha : Alike s s') :
    Fits s' since unexpected tok := by
  cases tok with
  | none =>
    unfold Fits at h ⊢
    rw [ha.state, ha.retryDelay, ha.calls]
    exact h
  | call | queued | batched => exact Due.alike h ha ha.now_le
  | channel =>
    obtain ⟨hstate, hflag, n, hlog, hdelay, htime⟩ := h
    exact ⟨ha.state.trans hstate, ha.connectFlag.trans hflag, n, ha.attempts.trans hlog,
      ha.retryDelay.trans hdelay, Nat.le_trans htime ha.now_le⟩
  | timer deadline =>
    obtain ⟨n, h⟩ := h
    exact ⟨n, h.alike ha (Nat.le_refl _)⟩
  | expired =>
    obtain ⟨n, h⟩ := h
    exact ⟨n, h.alike ha ha.now_le⟩

theorem Fits.weaken (h : Fits s since unexpected tok) (more : Bool) :
    Fits s since (unexpected || more) tok := by
  cases tok with
  | none =>
    obtain h | ⟨hcalls, h | h⟩ := h
    · exact Or.inl h
    · exact Or.inr ⟨hcalls, Or.inl h⟩
    · exact Or.inr ⟨hcalls, Or.inr (by simp [h])⟩
  | call | queued | batched | channel | timer | expired => exact h

theorem Inv.weaken (h : Inv s since unexpected) (more : Bool) : Inv s since (unexpected || more) := by
  obtain ⟨tok, hholds, hfits, hcalls⟩ := h.fits
  exact ⟨h.since_le, h.paced, tok, hholds, hfits.weaken more, hcalls⟩

/-- A step that moves the token, and nothing else. -/
theorem Inv.moved (h : Inv s since unexpected) (ha : Alike s s')
    (hmove : ∀ tok, Holds s tok → Fits s' since unexpected tok →
      ∃ tok', Holds s' tok' ∧ Fits s' since unexpected tok' ∧ (tok = .none → tok' = .none)) :
    Inv s' since unexpected := by
  obtain ⟨tok, hholds, hfits, hcalls⟩ := h.fits
  obtain ⟨tok', hholds', hfits', hnone⟩ := hmove tok hholds (hfits.alike ha)
  refine ⟨Nat.le_trans h.since_le ha.now_le, ?_, tok', hholds', hfits', ?_⟩
  · intro n hn
    rw [ha.attempts] at hn
    exact Nat.le_trans (h.paced n hn) ha.now_le
  · intro hzero
    rw [ha.calls] at hzero
    exact hnone (hcalls hzero)

/-- A closure of `startInLoop` runs. -/
theorem Inv.startInLoop (hsince : since ≤ s.now) (hcalls : s.calls ≠ 0) (hdue : Due s since n s.now)
    (hnone : Holds s .none) (h : s.invoke (s.connector.startInLoop t k) = .ok s') :
    Inv s' since (unexpected || k.connect.unexpected) ∧ s'.calls = s.calls := by
  obtain ⟨hlog, hnow, hsame, tok, hholds, hfits⟩ := startInLoop_fits hcalls hdue hnone h unexpected
  refine ⟨⟨by rw [hnow]; exact hsince, ?_, tok, hholds, hfits, ?_⟩, hsame⟩
  · refine paced_of_attempts hlog ?_
    rw [hnow]
    exact hdue.time
  · intro hzero
    rw [hsame] at hzero
    exact absurd hzero hcalls

theorem Holds.called {cl : Closure} (h : Holds s tok) (hcl : s.pending t = some cl) :
    ∃ n, tok = .call t n ∧ cl = ⟨.startInLoop, n⟩ := by
  rw [h.pending] at hcl
  cases tok with
  | call t' n =>
    change Function.update (fun _ => Option.none) t' (some ⟨.startInLoop, n⟩) t = some cl at hcl
    by_cases ht : t = t'
    · subst ht
      rw [Function.update_self] at hcl
      exact ⟨n, rfl, (Option.some.inj hcl).symm⟩
    · rw [Function.update_of_ne ht] at hcl
      exact absurd hcl (by simp)
  | none | queued | batched | channel | timer | expired => exact absurd hcl (by simp [Token.pending])

theorem Holds.batched {cl : Closure} {cls : List Closure} (h : Holds s tok)
    (hphase : s.phase = .executing (cl :: cls)) :
    ∃ n, tok = .batched n ∧ cl = ⟨.startInLoop, n⟩ ∧ cls = [] := by
  have hbatch := h.batch
  rw [hphase] at hbatch
  cases tok with
  | batched n =>
    obtain ⟨rfl, rfl⟩ := List.cons.inj hbatch
    exact ⟨n, rfl, rfl, rfl⟩
  | none | call | queued | channel | timer | expired =>
    exact absurd hbatch (by simp [Phase.batch, Token.batch])

theorem Holds.expired {m : Nat} {xs : List Ready} (h : Holds s tok)
    (hphase : s.phase = .expiring (m + 1) xs) : tok = .expired ∧ m = 0 := by
  have hexpiring := h.expiring
  rw [hphase] at hexpiring
  cases tok with
  | expired => exact ⟨rfl, Nat.succ.inj hexpiring⟩
  | none | call | queued | batched | channel | timer =>
    exact absurd hexpiring (by simp [Phase.timers, Token.expiring])

/-- The loop goes on to where nothing of the connector is. -/
theorem Inv.phase (h : Inv s since unexpected) {p : Phase} (hbatch : p.batch = s.phase.batch)
    (htimers : p.timers = s.phase.timers) : Inv { s with phase := p } since unexpected := by
  refine h.moved ⟨rfl, rfl, rfl, rfl, rfl, Nat.le_refl _⟩ ?_
  intro tok hholds hfits
  exact ⟨tok, ⟨hholds.pending, hholds.queue, hbatch.trans hholds.batch, hholds.timers,
    htimers.trans hholds.expiring, hholds.channel⟩, hfits, id⟩

/-- The batch is swapped out. -/
theorem Inv.swapped (h : Inv s since unexpected) {xs : List Ready} (hphase : s.phase = .handling xs) :
    Inv { s with phase := .executing s.taskQueue, taskQueue := [] } since unexpected := by
  refine h.moved ⟨rfl, rfl, rfl, rfl, rfl, Nat.le_refl _⟩ ?_
  intro tok hholds hfits
  have hbatch := hholds.batch
  have hexpiring := hholds.expiring
  rw [hphase] at hbatch hexpiring
  cases tok with
  | queued n =>
    exact ⟨.batched n, ⟨hholds.pending, rfl, hholds.queue, hholds.timers, hexpiring, by
      simpa using hholds.channel⟩, hfits, nofun⟩
  | batched n => exact absurd hbatch (by simp [Phase.batch, Token.batch])
  | none | call | channel | timer | expired =>
    exact ⟨_, ⟨hholds.pending, rfl, hholds.queue, hholds.timers, hexpiring, hholds.channel⟩, hfits, id⟩

/-- `getExpiredTimers_`. -/
theorem Inv.expireTimers (h : Inv s since unexpected) {xs : List Ready}
    (hbatch : s.phase.batch = []) (htimers : s.phase.timers = 0) :
    Inv (s.expireTimers xs) since unexpected := by
  refine h.moved ⟨rfl, rfl, rfl, rfl, rfl, Nat.le_refl _⟩ ?_
  intro tok hholds hfits
  have hb := hholds.batch
  have he := hholds.expiring
  have ht := hholds.timers
  rw [hbatch] at hb
  rw [htimers] at he
  cases tok with
  | timer deadline =>
    obtain ⟨n, hdue⟩ := hfits
    by_cases hpast : deadline ≤ s.now
    · refine ⟨.expired, ⟨hholds.pending, hholds.queue, rfl, ?_, ?_, by
        simpa [Sys.expireTimers] using hholds.channel⟩, ⟨n, hdue.state, hdue.attempts, hdue.retryDelay, hdue.connectFlag,
          Nat.le_trans hdue.time hpast⟩, nofun⟩
      · change s.timers.filter _ = []
        rw [ht]
        simp [Token.timers, hpast]
      · change (s.timers.filter _).length = 1
        rw [ht]
        simp [Token.timers, hpast]
    · refine ⟨.timer deadline, ⟨hholds.pending, hholds.queue, rfl, ?_, ?_, hholds.channel⟩,
        ⟨n, hdue⟩, nofun⟩
      · change s.timers.filter _ = _
        rw [ht]
        simp [Token.timers, Nat.lt_of_not_le hpast]
      · change (s.timers.filter _).length = 0
        rw [ht]
        simp [Token.timers, Nat.lt_of_not_le hpast]
  | none | call | queued | batched | channel | expired =>
    refine ⟨_, ⟨hholds.pending, hholds.queue, hb, ?_, ?_, hholds.channel⟩, hfits, id⟩
    · change s.timers.filter _ = _
      rw [ht]
      rfl
    · change (s.timers.filter _).length = _
      rw [ht]
      exact he

/-- A closure of a call runs on the loop thread, with the token out of its place. -/
theorem Inv.execute {cl : Closure} (hsince : since ≤ s.now) (hcalls : s.calls ≠ 0)
    (hdue : Due s since 0 s.now) (hnone : Holds s .none) (hcl : cl = ⟨.startInLoop, n⟩)
    (h : s.execute t k cl = .ok s') :
    Inv s' since (unexpected || k.connect.unexpected) ∧ s'.calls = s.calls := by
  subst hcl
  have hlog : attempts (s.log ++ [Entry.ran .startInLoop n]) = attempts s.log := attempts_concat ..
  exact Inv.startInLoop (s := s.record (.ran .startInLoop n)) hsince hcalls
    ⟨hdue.state, hlog.trans hdue.attempts, hdue.retryDelay, hdue.connectFlag, hdue.time⟩
    ⟨hnone.pending, hnone.queue, hnone.batch, hnone.timers, hnone.expiring, hnone.channel⟩ h

/-- A report of the connector's channel. -/
theorem Inv.handleEvent {id : Nat} {revents : PollEvents} (h : Inv s since unexpected)
    (he : s.handleEvent k id revents = .ok s') : Inv s' since unexpected ∧ s'.calls = s.calls := by
  unfold Sys.handleEvent at he
  split at he
  · exact absurd he (by simp)
  · rename_i id' ch hch
    split at he
    · obtain ⟨tok, hholds, hfits, hcalls⟩ := h.fits
      obtain rfl : tok = .channel := hholds.channel.mp (by rw [hch]; rfl)
      have hcalls' : s.calls ≠ 0 := fun hzero => absurd (hcalls hzero) (by simp)
      obtain ⟨hstate, hflag, n, hlog, hdelay, htime⟩ := hfits
      dsimp only at he
      -- only the conditions reported are new in the channel
      have hholds' : Holds { s with connector := { s.connector with
          channel := some (id', ch.setReturnEvents revents) } } .channel :=
        ⟨hholds.pending, hholds.queue, hholds.batch, hholds.timers, hholds.expiring, by simp⟩
      split at he
      · obtain rfl := Except.ok.inj he
        exact ⟨⟨h.since_le, h.paced, .channel, hholds', ⟨hstate, hflag, n, hlog, hdelay, htime⟩,
          fun hzero => absurd hzero hcalls'⟩, rfl⟩
      · obtain ⟨hlog', hnow, hsame, tok', hholds', hfits'⟩ := handleWritable_fits
          (s := { s with connector := { s.connector with
            channel := some (id', ch.setReturnEvents revents) } })
          hcalls' hflag hlog hdelay htime hholds' he unexpected
        refine ⟨⟨?_, ?_, tok', hholds', hfits', ?_⟩, hsame⟩
        · rw [hnow]
          exact h.since_le
        · refine paced_of_attempts hlog' ?_
          rw [hnow]
          exact htime
        · intro hzero
          rw [hsame] at hzero
          exact absurd hzero hcalls'
    · exact absurd he (by simp)

theorem Inv.loopStep {ready : List Ready} (h : Inv s since unexpected)
    (he : s.loopStep ready k = .ok s') :
    Inv s' since (unexpected || k.connect.unexpected) ∧ s'.calls = s.calls := by
  unfold Sys.loopStep at he
  split at he
  · rename_i hphase
    obtain rfl := Except.ok.inj he
    exact ⟨(h.phase (by rw [hphase]; rfl) (by rw [hphase]; rfl)).weaken _, rfl⟩
  · rename_i id revents xs hphase
    have hnext : Inv { s with phase := .handling xs } since unexpected :=
      h.phase (by rw [hphase]; rfl) (by rw [hphase]; rfl)
    obtain ⟨hinv, hcalls⟩ := hnext.handleEvent he
    exact ⟨hinv.weaken _, hcalls⟩
  · rename_i xs hphase
    obtain rfl := Except.ok.inj he
    exact ⟨(h.expireTimers (by rw [hphase]; rfl) (by rw [hphase]; rfl)).weaken _, rfl⟩
  · rename_i hphase
    obtain rfl := Except.ok.inj he
    exact ⟨(h.swapped hphase).weaken _, rfl⟩
  · -- the closure of a retry timer
    rename_i m xs hphase
    obtain ⟨tok, hholds, hfits, hcalls⟩ := h.fits
    obtain ⟨rfl, rfl⟩ := hholds.expired hphase
    obtain ⟨n, hdue⟩ := hfits
    have hbatch := hholds.batch
    rw [hphase] at hbatch
    exact Inv.startInLoop (s := { s with phase := .expiring 0 xs }) h.since_le
      (fun hzero => absurd (hcalls hzero) (by simp))
      ⟨hdue.state, hdue.attempts, hdue.retryDelay, hdue.connectFlag, hdue.time⟩
      ⟨hholds.pending, hholds.queue, hbatch, hholds.timers, rfl, by simpa using hholds.channel⟩ he
  · rename_i hphase
    obtain rfl := Except.ok.inj he
    exact ⟨(h.phase (by rw [hphase]; rfl) (by rw [hphase]; rfl)).weaken _, rfl⟩
  · rename_i cl cls hphase
    obtain ⟨tok, hholds, hfits, hcalls⟩ := h.fits
    obtain ⟨n, rfl, hcl, rfl⟩ := hholds.batched hphase
    have hdue : Due s since 0 s.now := hfits
    exact Inv.execute (s := { s with phase := .executing [] }) h.since_le
      (fun hzero => absurd (hcalls hzero) (by simp))
      ⟨hdue.state, hdue.attempts, hdue.retryDelay, hdue.connectFlag, hdue.time⟩
      ⟨hholds.pending, hholds.queue, rfl, hholds.timers, rfl, by simpa using hholds.channel⟩ hcl he
  · rename_i hphase
    obtain rfl := Except.ok.inj he
    exact ⟨(h.phase (by rw [hphase]; rfl) (by rw [hphase]; rfl)).weaken _, rfl⟩

/-- The rest of a call: the closure runs here, or is queued. -/
theorem Inv.proceed {cl : Closure} (h : Inv s since unexpected) (hcl : s.pending t = some cl)
    (he : { s with pending := Function.update s.pending t none }.runInLoop t k cl = .ok s') :
    Inv s' since (unexpected || k.connect.unexpected) ∧ s'.calls = s.calls := by
  obtain ⟨tok, hholds, hfits, hcalls⟩ := h.fits
  obtain ⟨n, rfl, rfl⟩ := hholds.called hcl
  have hdue : Due s since 0 s.now := hfits
  have hcalls' : s.calls ≠ 0 := fun hzero => absurd (hcalls hzero) (by simp)
  have hpending : Function.update s.pending t none = fun _ => none := by
    rw [hholds.pending]
    change Function.update (Function.update _ _ _) _ _ = _
    rw [Function.update_idem, Function.update_eq_self_iff]
  unfold Sys.runInLoop at he
  split at he
  · exact Inv.execute (s := { s with pending := Function.update s.pending t none }) h.since_le hcalls'
      ⟨hdue.state, hdue.attempts, hdue.retryDelay, hdue.connectFlag, hdue.time⟩
      ⟨hpending, hholds.queue, hholds.batch, hholds.timers, hholds.expiring,
        by simpa using hholds.channel⟩ rfl he
  · obtain rfl := Except.ok.inj he
    have hqueue : s.taskQueue = [] := hholds.queue
    refine ⟨⟨h.since_le, h.paced, .queued n, ?_, ?_, fun hzero => absurd hzero hcalls'⟩, rfl⟩
    · refine ⟨hpending, ?_, hholds.batch, hholds.timers, hholds.expiring, by
        simpa using hholds.channel⟩
      change s.taskQueue ++ _ = _
      rw [hqueue]
      rfl
    · exact ⟨hdue.state, hdue.attempts, hdue.retryDelay, hdue.connectFlag, hdue.time⟩

end Steps

namespace Backoff

def start (loop : LoopId) (newConnectionCallback : Bool) : Backoff :=
  ⟨.start loop newConnectionCallback, 0, false⟩

def step (b : Backoff) (l : Label) : Except Fault Backoff := do
  let s ← b.sys.step l
  return ⟨s, if s.calls = b.sys.calls then b.since else b.sys.now, b.unexpected || l.unexpected⟩

/-- One `start()`, and `restart()` while the connector is `Connected` and its callback has returned. -/
def Admissible (b : Backoff) : Label → Prop
  | .call _ .start => b.sys.calls = 0
  | .call _ .restart => b.sys.connector.state = .connected ∧ b.sys.inCallback = false
  | .call _ .stop => False
  | _ => True

instance (b : Backoff) : ∀ l : Label, Decidable (b.Admissible l)
  | .call _ .start => inferInstanceAs (Decidable (_ = 0))
  | .call _ .restart => inferInstanceAs (Decidable (_ ∧ _))
  | .call _ .stop => isFalse not_false
  | .proceed _ _ | .loop _ _ | .callbackReturns | .elapse _ => isTrue trivial

variable {b b' : Backoff} {l : Label}

/-- A call that starts the connector anew. -/
theorem entered_inv {s : Sys} {t : ThreadId} {call : Call} {c : Connector}
    (hnone : Holds s .none) (hc : c.channel = s.connector.channel) (hstate : c.state = .disconnected)
    (hdelay : c.retryDelay = backoff 0) (hflag : c.connectFlag = true) (unexpected : Bool) :
    Inv (s.entered t call c .startInLoop) s.now unexpected := by
  have hlog : attempts (s.log ++ [Entry.called call s.calls]) = 0 := attempts_concat ..
  refine ⟨Nat.le_refl _, ?_, .call t s.calls, ?_, ?_, fun hzero => absurd hzero (Nat.succ_ne_zero _)⟩
  · intro n hn
    exact absurd (hlog.symm.trans hn) (Nat.succ_ne_zero n).symm
  · refine ⟨?_, hnone.queue, hnone.batch, hnone.timers, hnone.expiring, ?_⟩
    · change Function.update s.pending t _ = _
      rw [hnone.pending]
      rfl
    · change c.channel.isSome = true ↔ _
      rw [hc]
      simpa using hnone.channel
  · exact ⟨hstate, hlog, hdelay, hflag, Nat.le_refl _⟩

/-- While the connector is `Connected` there is nothing to come. -/
theorem token_of_connected {s : Sys} {since : Nat} {unexpected : Bool} {tok : Token}
    (h : Fits s since unexpected tok) (hstate : s.connector.state = .connected) : tok = .none := by
  cases tok with
  | none => rfl
  | call | queued | batched => exact absurd (hstate.symm.trans (Due.state h)) (by simp)
  | channel => exact absurd (hstate.symm.trans h.1) (by simp)
  | timer | expired =>
    obtain ⟨n, hdue⟩ := h
    exact absurd (hstate.symm.trans hdue.state) (by simp)

theorem sys_step_inv {s s' : Sys} {since : Nat} {unexpected : Bool} (h : Inv s since unexpected)
    (ha : Admissible ⟨s, since, unexpected⟩ l) (he : s.step l = .ok s') :
    Inv s' (if s'.calls = s.calls then since else s.now) (unexpected || l.unexpected) := by
  have hsame : ∀ {s₁ : Sys} {u : Bool}, Inv s₁ since u ∧ s₁.calls = s.calls →
      Inv s₁ (if s₁.calls = s.calls then since else s.now) u := by
    rintro s₁ u ⟨hinv, hcalls⟩
    rw [if_pos hcalls]
    exact hinv
  cases l with
  | call t c =>
    simp only [Sys.step] at he
    split at he
    · obtain rfl := Except.ok.inj he
      exact hsame ⟨h.weaken _, rfl⟩
    · obtain ⟨tok, hholds, hfits, hcalls⟩ := h.fits
      have hnew : ∀ c₁, (s.entered t c c₁ .startInLoop).calls ≠ s.calls :=
        fun _ => Nat.succ_ne_self _
      cases c with
      | start =>
        obtain rfl := hcalls ha
        obtain ⟨-, hstate, hdelay⟩ | ⟨hne, -⟩ := hfits
        · obtain rfl := Except.ok.inj he
          rw [if_neg (hnew _)]
          exact entered_inv (c := { s.connector with connectFlag := true }) hholds rfl hstate hdelay rfl _
        · exact absurd ha hne
      | restart =>
        obtain ⟨⟨c, task⟩, hrestart, he⟩ := bind_ok_inv he
        obtain ⟨rfl, rfl⟩ := restart_inv hrestart
        obtain rfl := Except.ok.inj he
        obtain rfl := token_of_connected hfits ha.1
        rw [if_neg (hnew _)]
        exact entered_inv (c := { s.connector with
          state := .disconnected, connectFlag := true, retryDelay := defaultRetryDelay })
          hholds rfl rfl backoff_zero.symm rfl _
      | stop => exact ha.elim
  | proceed t k =>
    simp only [Sys.step] at he
    split at he
    · obtain rfl := Except.ok.inj he
      exact hsame ⟨h.weaken _, rfl⟩
    · rename_i cl hcl
      exact hsame (h.proceed hcl he)
  | loop ready k =>
    simp only [Sys.step] at he
    split at he
    · exact hsame (h.loopStep he)
    · obtain rfl := Except.ok.inj he
      exact hsame ⟨h.weaken _, rfl⟩
  | callbackReturns =>
    simp only [Sys.step] at he
    split at he
    · obtain rfl := Except.ok.inj he
      have hplain := destroySocket_plain s.connector.socket
      have halike : Alike s ({ s with inCallback := false }.absorb { s.connector with socket := none }
          (destroySocket s.connector.socket)) := by
        refine ⟨rfl, rfl, rfl, ?_, rfl, Nat.le_refl _⟩
        change attempts (s.log ++ _) = _
        rw [attempts_effects, hplain.1]
        rfl
      refine hsame ⟨(h.moved halike ?_).weaken _, rfl⟩
      intro tok hholds hfits
      refine ⟨tok, ⟨hholds.pending, hholds.queue, hholds.batch, ?_, hholds.expiring,
        hholds.channel⟩, hfits, id⟩
      change s.timers ++ _ = _
      rw [hplain.2, List.append_nil]
      exact hholds.timers
    · obtain rfl := Except.ok.inj he
      exact hsame ⟨h.weaken _, rfl⟩
  | elapse ms =>
    obtain rfl := Except.ok.inj he
    have halike : Alike s { s with now := s.now + ms } :=
      ⟨rfl, rfl, rfl, rfl, rfl, Nat.le_add_right _ _⟩
    refine hsame ⟨(h.moved halike ?_).weaken _, rfl⟩
    intro tok hholds hfits
    exact ⟨tok, ⟨hholds.pending, hholds.queue, hholds.batch, hholds.timers, hholds.expiring,
      hholds.channel⟩, hfits, id⟩

theorem step_inv (h : Inv b.sys b.since b.unexpected) (ha : b.Admissible l)
    (he : b.step l = .ok b') : Inv b'.sys b'.since b'.unexpected := by
  obtain ⟨s, hs, he⟩ := bind_ok_inv he
  obtain rfl := Except.ok.inj he
  exact sys_step_inv h ha hs

theorem start_inv (loop : LoopId) (cb : Bool) :
    Inv (start loop cb).sys (start loop cb).since (start loop cb).unexpected := by
  refine ⟨Nat.le_refl _, fun n hn => absurd hn (Nat.succ_ne_zero n).symm, .none, ?_, ?_, fun _ => rfl⟩
  · exact ⟨rfl, rfl, rfl, rfl, rfl, by simp [start, Sys.start, construct]⟩
  · exact Or.inl ⟨rfl, rfl, backoff_zero.symm⟩

/-! ## Every run -/

/-- From the fifth delay on they are all `MAX_RETRY_DELAY`. -/
theorem waited_add (m : Nat) : waited (5 + m) = 31000 + 30000 * m := by
  induction m with
  | zero => decide
  | succ m ih =>
    have hcap : backoff (5 + m + 1) = 30000 := by
      have hpos : 1 ≤ 2 ^ m := Nat.one_le_two_pow
      have hpow : defaultRetryDelay * 2 ^ (5 + m + 1) = 32000 * 2 ^ m := by
        rw [show 5 + m + 1 = 6 + m by omega, Nat.pow_add]
        unfold defaultRetryDelay
        omega
      unfold backoff maxRetryDelay
      rw [hpow]
      omega
    change waited (5 + m) + backoff (5 + m + 1) = _
    rw [ih, hcap]
    omega

theorem waited_rate (n : Nat) : 30000 * n ≤ waited n + 119000 := by
  by_cases hn : n < 5
  · have hfirst : ∀ n < 5, 30000 * n ≤ waited n + 119000 := by decide
    exact hfirst n hn
  · obtain ⟨m, rfl⟩ := Nat.exists_eq_add_of_le (Nat.le_of_not_lt hn)
    rw [waited_add]
    omega

/-- **The attempts are paced.** In every run in which a connector is started once and restarted only
while it is `Connected`, the `n+1`-st attempt after a start or restart comes when the first `n` delays
have passed: attempts cannot come faster than one in 30 seconds for long. -/
theorem attempts_paced (loop : LoopId) (cb : Bool) (labels : List Label)
    (hadm : Along step Admissible (start loop cb) labels) (b : Backoff)
    (hrun : run step (start loop cb) labels = .ok b) :
    (∀ n, attempts b.sys.log = n + 1 → b.since + waited n ≤ b.sys.now) ∧
      30000 * attempts b.sys.log ≤ (b.sys.now - b.since) + 149000 := by
  have h := run_invariant (I := fun b => Inv b.sys b.since b.unexpected) step_inv
    (start_inv loop cb) hadm hrun
  refine ⟨h.paced, ?_⟩
  cases hn : attempts b.sys.log with
  | zero => omega
  | succ n =>
    have htime := h.paced n hn
    have hrate := waited_rate n
    omega

/-- Two refusals, and an attempt that gets on. -/
def refusedTwice : List Label :=
  [.call (.user 3) .start, .proceed (.user 3) ⟨7, .econnrefused, 0⟩,
    .loop [] ⟨7, .econnrefused, 0⟩, .loop [] ⟨7, .econnrefused, 0⟩, .loop [] ⟨7, .econnrefused, 0⟩,
    .loop [] ⟨7, .econnrefused, 0⟩, .elapse 1000, .loop [.timerfd] ⟨7, .econnrefused, 0⟩,
    .loop [] ⟨7, .econnrefused, 0⟩, .loop [] ⟨7, .econnrefused, 0⟩, .loop [] ⟨7, .econnrefused, 0⟩,
    .loop [] ⟨7, .econnrefused, 0⟩, .loop [] ⟨7, .econnrefused, 0⟩, .elapse 2000,
    .loop [.timerfd] ⟨7, .einprogress, 0⟩, .loop [] ⟨7, .einprogress, 0⟩,
    .loop [] ⟨7, .einprogress, 0⟩]

theorem attempts_paced_refusedTwice :
    ∃ b, run step (start 0 true) refusedTwice = .ok b ∧ attempts b.sys.log = 3 ∧
      b.since + waited 2 ≤ b.sys.now := by
  have hadm : Along step Admissible (start 0 true) refusedTwice := by decide +kernel
  have hend : ∃ b, run step (start 0 true) refusedTwice = .ok b ∧ attempts b.sys.log = 3 := by
    decide +kernel
  obtain ⟨b, hrun, hlog⟩ := hend
  exact ⟨b, hrun, hlog, (attempts_paced 0 true refusedTwice hadm b hrun).1 2 hlog⟩

/-- **A started connector never falls asleep.** As long as every attempt is answered with a code `connect`
has a case for, what happens next is in exactly one place (a closure of `startInLoop`, the channel of an
attempt, a retry timer, or an expired one whose closure is still to run), or the connector is
`Connected`. -/
theorem never_asleep (loop : LoopId) (cb : Bool) (labels : List Label)
    (hadm : Along step Admissible (start loop cb) labels)
    (hexpected : ∀ l ∈ labels, l.unexpected = false) (b : Backoff)
    (hrun : run step (start loop cb) labels = .ok b) (hstarted : b.sys.calls ≠ 0) :
    ∃ tok, Holds b.sys tok ∧ (tok = .none ↔ b.sys.connector.state = .connected) := by
  have hstep : ∀ {b b' : Backoff} {l : Label},
      (Inv b.sys b.since b.unexpected ∧ b.unexpected = false) →
      (b.Admissible l ∧ l.unexpected = false) → b.step l = .ok b' →
        Inv b'.sys b'.since b'.unexpected ∧ b'.unexpected = false := by
    rintro b b' l ⟨h, hnone⟩ ⟨ha, hl⟩ he
    refine ⟨step_inv h ha he, ?_⟩
    obtain ⟨s, -, he⟩ := bind_ok_inv he
    obtain rfl := Except.ok.inj he
    simp [hnone, hl]
  obtain ⟨h, hnone⟩ := run_invariant
    (I := fun b => Inv b.sys b.since b.unexpected ∧ b.unexpected = false) hstep
    ⟨start_inv loop cb, rfl⟩ (hadm.and (along_of_forall hexpected)) hrun
  obtain ⟨tok, hholds, hfits, -⟩ := h.fits
  refine ⟨tok, hholds, ?_, token_of_connected hfits⟩
  rintro rfl
  obtain ⟨hzero, -⟩ | ⟨-, hstate | hunexpected⟩ := hfits
  · exact absurd hzero hstarted
  · exact hstate
  · exact absurd (hunexpected.symm.trans hnone) (by simp)

theorem never_asleep_refusedTwice :
    ∃ b, run step (start 0 true) refusedTwice = .ok b ∧
      ∃ tok, Holds b.sys tok ∧ (tok = .none ↔ b.sys.connector.state = .connected) := by
  have hadm : Along step Admissible (start 0 true) refusedTwice := by decide +kernel
  have hend : ∃ b, run step (start 0 true) refusedTwice = .ok b ∧ b.sys.calls ≠ 0 := by
    decide +kernel
  obtain ⟨b, hrun, hcalls⟩ := hend
  exact ⟨b, hrun, never_asleep 0 true refusedTwice hadm (by decide) b hrun hcalls⟩

end Backoff

end HyperMuduo.Net.Connector
