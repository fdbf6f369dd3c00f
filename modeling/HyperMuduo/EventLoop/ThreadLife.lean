import HyperMuduo.EventLoop.Thread

/-!
# Starting, quitting and joining an `EventLoopThread`

Three things the owner of an `EventLoopThread` relies on, and when the code gives them.

* The destructor leaves no joinable thread behind. It decides by `loop_`, which the body resets when
  its loop ends, so a loop that was quit by its own tasks is not joined and the process terminates.
  **`joined_iff`**: the destructor is right exactly when it finds `loop_` set or nothing to join.
* `startLoop` returns. Its wait is for `loop_ != nullptr`, and a loop that quits at once resets `loop_`
  before the owner looks. **`startLoop_not_stuck`**: this does not happen in any run in which no
  `quit()` is executed inside `loop()` before `startLoop` returned.
* A `quit()` of another thread after `startLoop` returned takes the loop out of `loop()`. `startLoop`
  returns as soon as `loop_` is published, and only then does the body call `loop()`, whose first act
  is `quit_ = false`: a `quit()` in between is forgotten, and the destructor joins a loop that runs on.
  **`quit_not_lost`**: it is not lost in any run in which these calls come after that store.
-/

namespace HyperMuduo.Net.EventLoopThread

open HyperMuduo.Lib
open EventLoop (Ready Phase)

variable {τ : Type} {s s' t : Sys τ}

/-! ## What a step does -/

/-- A call on the loop by user code leaves the phase alone and sets `quit_` if it is `quit`. -/
theorem user_loop_step {l l' : EventLoop.Sys τ} {t : ThreadId} {call : UserCall τ}
    (he : l.step (call.toLabel t) = .ok l') :
    l'.phase = l.phase ∧ l'.isRunning = l.isRunning ∧
      l'.quit = (l.quit || (call.isQuit && l.free t)) := by
  cases call with
  | queueInLoop task =>
    obtain rfl := Except.ok.inj he
    refine ⟨?_, ?_, ?_⟩ <;> split <;> simp [UserCall.isQuit, EventLoop.Sys.push]
  | runInLoop task =>
    obtain rfl := Except.ok.inj he
    refine ⟨?_, ?_, ?_⟩ <;> (split; · split <;> simp [UserCall.isQuit, EventLoop.Sys.push]) <;>
      simp [UserCall.isQuit]
  | quit =>
    obtain rfl := Except.ok.inj he
    by_cases hfree : l.free t = true
    · rw [if_pos hfree]
      exact ⟨rfl, rfl, by simp [UserCall.isQuit, hfree]⟩
    · rw [if_neg hfree]
      exact ⟨rfl, rfl, by simp [hfree]⟩
  | proceed =>
    simp only [UserCall.toLabel, EventLoop.Sys.step] at he
    split at he
    · obtain rfl := Except.ok.inj he
      exact ⟨rfl, rfl, by simp [UserCall.isQuit]⟩
    · rename_i p _
      obtain rfl := Except.ok.inj he
      cases p with
      | queueInLoop =>
        simp only [EventLoop.Sys.proceed]
        split <;> exact ⟨rfl, rfl, by simp [UserCall.isQuit, EventLoop.Sys.wakeup]⟩
      | quit =>
        simp only [EventLoop.Sys.proceed]
        split <;> exact ⟨rfl, rfl, by simp [UserCall.isQuit, EventLoop.Sys.wakeup]⟩

/-- A step of user code: nothing, or a step on a loop that exists. -/
theorem userStep_inv {t : ThreadId} {call : UserCall τ} (he : s.userStep t call = .ok s') :
    s' = s ∨ (s.body ≠ .notStarted ∧ s.body ≠ .finished ∧ s.inUserCode t = true ∧
      ∃ loop, s.loop.step (call.toLabel t) = .ok loop ∧ s' = { s with
        loop := loop
        quitRequested := s.quitRequested ||
          (s.storesQuit t call && !isInLoopThread 0 t && s.owner.hasStarted) }) := by
  unfold Sys.userStep at he
  split at he
  · rename_i hin
    split at he
    · obtain rfl := Except.ok.inj he
      exact Or.inl rfl
    · exact absurd he (by simp)
    · rename_i h1 h2
      obtain ⟨loop, hloop, he⟩ := bind_ok_inv he
      obtain rfl := Except.ok.inj he
      exact Or.inr ⟨h1, h2, hin, loop, hloop, rfl⟩
  · obtain rfl := Except.ok.inj he
    exact Or.inl rfl

/-- What the owner can do. -/
inductive OwnerMove (s : Sys τ) : Sys τ → Prop where
  | stay : OwnerMove s s
  | lock (h : s.owner = .starting ∨ s.owner = .waking) (hm : s.mutex = none) :
      OwnerMove s { s with mutex := some .owner, owner := .testing }
  | found (h : s.owner = .testing) (hp : s.loopPtr = true) : OwnerMove s { s with owner := .returning }
  | wait (h : s.owner = .testing) (hp : s.loopPtr = false) :
      OwnerMove s { s with mutex := none, owner := .waiting }
  | unlock (h : s.owner = .returning) : OwnerMove s { s with mutex := none, owner := .started }
  | skip (h : s.owner = .destructor) (hp : s.loopPtr = false) :
      OwnerMove s { s with owner := .destroyed }
  | read (h : s.owner = .destructor) (hp : s.loopPtr = true) :
      OwnerMove s { s with owner := .quitting }
  | quit (h : s.owner = .quitting) : OwnerMove s
      { s with owner := .wakingUp, loop := { s.loop with quit := true }, quitRequested := true }
  | wakeup (h : s.owner = .wakingUp) :
      OwnerMove s { s with owner := .joining, loop := s.loop.wakeup }
  | join (h : s.owner = .joining) (hb : s.body = .finished) :
      OwnerMove s { s with joinable := false, owner := .destroyed }
  | leave (h : s.owner = .joining) (hj : s.joinable = false) :
      OwnerMove s { s with owner := .destroyed }

theorem ownerStep_move (he : s.ownerStep = .ok s') : OwnerMove s s' := by
  unfold Sys.ownerStep at he
  split at he
  · rename_i h
    obtain rfl := Except.ok.inj he
    split
    · exact .lock (Or.inl h) ‹_›
    · exact .stay
  · rename_i h
    obtain rfl := Except.ok.inj he
    split
    · exact .lock (Or.inr h) ‹_›
    · exact .stay
  · rename_i h
    obtain rfl := Except.ok.inj he
    split
    · exact .found h ‹_›
    · exact .wait h (Bool.eq_false_iff.mpr ‹_›)
  · rename_i h
    obtain rfl := Except.ok.inj he
    exact .unlock h
  · rename_i h
    obtain rfl := Except.ok.inj he
    split
    · exact .read h ‹_›
    · exact .skip h (Bool.eq_false_iff.mpr ‹_›)
  · rename_i h
    split at he
    · exact absurd he (by simp)
    · obtain rfl := Except.ok.inj he
      exact .quit h
  · rename_i h
    split at he
    · exact absurd he (by simp)
    · obtain rfl := Except.ok.inj he
      exact .wakeup h
  · rename_i h
    obtain rfl := Except.ok.inj he
    split
    · split
      · exact .join h ‹_›
      · exact .stay
    · exact .leave h (Bool.eq_false_iff.mpr ‹_›)
  all_goals
    obtain rfl := Except.ok.inj he
    exact .stay

/-- What the body can do. -/
inductive BodyMove (s : Sys τ) (ready : List Ready) : Sys τ → Prop where
  | stay : BodyMove s ready s
  | returned (h : s.body = .callback) : BodyMove s ready { s with body := .locking }
  | lock (h : s.body = .locking) (hm : s.mutex = none) :
      BodyMove s ready { s with mutex := some .body, body := .storing }
  | store (h : s.body = .storing) : BodyMove s ready { s with loopPtr := true, body := .notifying }
  | notify (h : s.body = .notifying) : BodyMove s ready
      { s with owner := if s.owner = .waiting then .waking else s.owner, body := .unlocking }
  | unlock (h : s.body = .unlocking) : BodyMove s ready { s with mutex := none, body := .entering }
  | enter (h : s.body = .entering) (loop : EventLoop.Sys τ)
      (he : s.loop.enter bodyThread = .ok loop) :
      BodyMove s ready { s with loop := loop, body := .looping }
  | turn (h : s.body = .looping) (hp : s.loop.pending bodyThread = none)
      (hin : (s.loop.advance ready).phase.isOutside = false) : BodyMove s ready { s with
        loop := s.loop.advance ready
        pollsAfterQuit :=
          if s.quitRequested && s.loop.phase.isTesting then s.pollsAfterQuit + 1
          else s.pollsAfterQuit }
  | leave (h : s.body = .looping) (hp : s.loop.pending bodyThread = none)
      (hout : (s.loop.advance ready).phase.isOutside = true) :
      BodyMove s ready { s with loop := s.loop.advance ready, body := .relocking }
  | relock (h : s.body = .relocking) (hm : s.mutex = none) :
      BodyMove s ready { s with mutex := some .body, body := .clearing }
  | clear (h : s.body = .clearing) : BodyMove s ready { s with loopPtr := false, body := .releasing }
  | release (h : s.body = .releasing) : BodyMove s ready { s with mutex := none, body := .destroying }
  | destroy (h : s.body = .destroying) : BodyMove s ready { s with body := .finished }

theorem bodyStep_move {ready : List Ready} (he : s.bodyStep ready = .ok s') : BodyMove s ready s' := by
  unfold Sys.bodyStep at he
  split at he
  · rename_i h
    obtain rfl := Except.ok.inj he
    split
    · exact .returned h
    · exact .stay
  · rename_i h
    obtain rfl := Except.ok.inj he
    split
    · exact .lock h ‹_›
    · exact .stay
  · obtain rfl := Except.ok.inj he
    exact .store ‹_›
  · obtain rfl := Except.ok.inj he
    exact .notify ‹_›
  · obtain rfl := Except.ok.inj he
    exact .unlock ‹_›
  · obtain ⟨loop, hloop, he⟩ := bind_ok_inv he
    obtain rfl := Except.ok.inj he
    exact .enter ‹_› loop hloop
  · rename_i h
    obtain rfl := Except.ok.inj he
    unfold Sys.loopStep
    split
    · rename_i hp
      have hp' : s.loop.pending bodyThread = none := Option.isNone_iff_eq_none.mp hp
      by_cases hout : (s.loop.advance ready).phase.isOutside = true
      · rw [if_pos hout]
        exact .leave h hp' hout
      · rw [if_neg hout]
        exact .turn h hp' (Bool.eq_false_iff.mpr hout)
    · exact .stay
  · rename_i h
    obtain rfl := Except.ok.inj he
    split
    · exact .relock h ‹_›
    · exact .stay
  · obtain rfl := Except.ok.inj he
    exact .clear ‹_›
  · obtain rfl := Except.ok.inj he
    exact .release ‹_›
  · obtain rfl := Except.ok.inj he
    exact .destroy ‹_›
  all_goals
    obtain rfl := Except.ok.inj he
    exact .stay

/-- What any step can do. -/
inductive Move (s : Sys τ) : Label τ → Sys τ → Prop where
  | stay (a : Label τ) : Move s a s
  | start (h : s.owner = .idle ∨ s.owner = .started) (hj : s.joinable = false) : Move s .startLoop
      { s with joinable := true, owner := .starting, body := .callback, loop := .start 0 }
  | destroy (h : s.owner = .idle ∨ s.owner = .started) :
      Move s .destroy { s with exiting := true, owner := .destructor }
  | spurious (h : s.owner = .waiting) : Move s .spurious { s with owner := .waking }
  | owner {s' : Sys τ} (h : OwnerMove s s') : Move s .owner s'
  | body {ready : List Ready} {s' : Sys τ} (h : BodyMove s ready s') : Move s (.body ready) s'
  | user {t : ThreadId} {call : UserCall τ} {loop : EventLoop.Sys τ} (hns : s.body ≠ .notStarted)
      (hnf : s.body ≠ .finished) (hin : s.inUserCode t = true)
      (he : s.loop.step (call.toLabel t) = .ok loop) : Move s (.user t call) { s with
        loop := loop
        quitRequested := s.quitRequested ||
          (s.storesQuit t call && !isInLoopThread 0 t && s.owner.hasStarted) }

theorem step_move {a : Label τ} (he : s.step a = .ok s') : Move s a s' := by
  cases a with
  | startLoop =>
    simp only [Sys.step] at he
    split at he
    · rename_i h
      unfold Sys.startLoop at he
      split at he
      · exact absurd he (by simp)
      · obtain rfl := Except.ok.inj he
        exact .start h.1 (Bool.eq_false_iff.mpr ‹_›)
    · obtain rfl := Except.ok.inj he
      exact .stay _
  | destroy =>
    obtain rfl := Except.ok.inj he
    split
    · rename_i h
      exact .destroy h.1
    · exact .stay _
  | owner => exact .owner (ownerStep_move he)
  | spurious =>
    obtain rfl := Except.ok.inj he
    split
    · exact .spurious ‹_›
    · exact .stay _
  | body ready => exact .body (bodyStep_move he)
  | user t call =>
    rcases userStep_inv he with rfl | ⟨hns, hnf, hin, loop, hloop, rfl⟩
    · exact .stay _
    · exact .user hns hnf hin hloop

/-! ## The destructor joins -/

/-- The destructor has run and left nothing to join. -/
def LeftJoined (s : Sys τ) : Prop := s.owner = .destroyed → s.joinable = false

/-- When the destructor reads `loop_`, it is set, or there is no thread to join. -/
def FindsLoop (s : Sys τ) (a : Label τ) : Prop :=
  match a with
  | .owner => s.owner = .destructor → s.loopPtr = true ∨ s.joinable = false
  | _ => True

instance (s : Sys τ) : ∀ a : Label τ, Decidable (FindsLoop s a)
  | .owner =>
    inferInstanceAs (Decidable (s.owner = .destructor → s.loopPtr = true ∨ s.joinable = false))
  | .startLoop | .destroy | .spurious | .body _ | .user _ _ => isTrue trivial

theorem step_leftJoined {a : Label τ} (h : LeftJoined s) (hf : FindsLoop s a)
    (he : s.step a = .ok s') : LeftJoined s' := by
  cases step_move he with
  | stay => exact h
  | start => exact fun hd => absurd hd (by simp)
  | destroy => exact fun hd => absurd hd (by simp)
  | spurious => exact fun hd => absurd hd (by simp)
  | user => exact h
  | owner hm =>
    cases hm with
    | stay => exact h
    | skip hdes hp =>
      rcases hf hdes with hptr | hj
      · rw [hp] at hptr
        exact absurd hptr (by simp)
      · exact fun _ => hj
    | join => exact fun _ => rfl
    | leave _ hj => exact fun _ => hj
    | lock | found | wait | unlock | read | quit | wakeup => exact fun hd => absurd hd (by simp)
  | body hm =>
    cases hm with
    | notify =>
      intro hd
      refine h ?_
      simp only at hd
      split at hd
      · exact absurd hd (by simp)
      · exact hd
    | _ => exact h

/-- The destructor finds `loop_` reset and a thread to join: it leaves it joinable. -/
theorem findsLoop_of_leftJoined {a : Label τ} (he : s.step a = .ok s') (h : LeftJoined s') :
    FindsLoop s a := by
  cases a with
  | owner =>
    intro hdes
    by_cases hp : s.loopPtr = true
    · exact Or.inl hp
    · right
      simp only [Sys.step, Sys.ownerStep, hdes, if_neg hp] at he
      obtain rfl := Except.ok.inj he
      exact h rfl
  | startLoop | destroy | spurious | body _ | user _ _ => trivial

/-- **The thread is joined, exactly when the destructor finds it.** In every run: in every state
reached, a destructor that has completed left no joinable thread, if and only if whenever a
destructor read `loop_` it was set or there was no thread to join. -/
theorem joined_iff {ls : List (Label τ)} (hrun : run Sys.step (Sys.init : Sys τ) ls = .ok t) :
    (∀ before after s, ls = before ++ after → run Sys.step Sys.init before = .ok s → LeftJoined s) ↔
      Along Sys.step FindsLoop Sys.init ls := by
  constructor
  · refine along_of_prefixes (I := fun _ => True) (fun _ _ _ => trivial) ?_ trivial hrun
    exact fun _ => findsLoop_of_leftJoined
  · rintro hf before after s rfl hs
    have h0 : LeftJoined (Sys.init : Sys τ) := fun hd => absurd hd (by simp [Sys.init])
    exact run_invariant step_leftJoined h0 ((along_append hs).mp hf).1 hs

/-- The body publishes its loop, `startLoop` returns, and the loop polls. -/
def upAndPolling : List (Label Unit) :=
  [.startLoop, .body [], .body [], .body [], .body [], .body [], .owner, .owner, .owner,
    .body [], .body []]

/-- The iteration in progress ends, `loop()` returns and the body too. -/
def loopEnds : List (Label Unit) := List.replicate 8 (.body [])

/-- The destructor quits the loop and joins. -/
def quitAndJoin : List (Label Unit) :=
  upAndPolling ++ [.destroy, .owner, .owner, .owner, .body [.wakeup], .body []] ++ loopEnds ++ [.owner]

theorem joined_quitAndJoin :
    ∃ t, run Sys.step Sys.init quitAndJoin = .ok t ∧ t.owner = .destroyed ∧ t.joinable = false := by
  have hf : Along Sys.step FindsLoop Sys.init quitAndJoin := by decide +kernel
  have hend : ∃ t, run Sys.step Sys.init quitAndJoin = .ok t ∧ t.owner = .destroyed := by
    decide +kernel
  obtain ⟨t, hrun, hdes⟩ := hend
  exact ⟨t, hrun, hdes, (joined_iff hrun).mpr hf quitAndJoin [] t (List.append_nil _).symm hrun hdes⟩

/-- A handler quits the loop, and the `EventLoopThread` is destroyed later. -/
def quitByHandler : List (Label Unit) :=
  upAndPolling ++ [.body [.other], .body [], .user bodyThread .quit, .user bodyThread .proceed] ++
    loopEnds ++ [.destroy, .owner]

/-- The destructor completes and the thread is still joinable. -/
theorem not_joined_quitByHandler :
    ∃ t, run Sys.step Sys.init quitByHandler = .ok t ∧ t.owner = .destroyed ∧ t.joinable = true := by
  decide +kernel

/-! ## `startLoop` returns -/

/-- `loop_` is set while the body is here. -/
def Body.published : Body → Bool
  | .notifying | .unlocking | .entering | .looping | .relocking | .clearing => true
  | _ => false

/-- The body has the mutex here. -/
def Body.locked : Body → Bool
  | .storing | .notifying | .unlocking | .clearing | .releasing => true
  | _ => false

/-- The notification is still to come. -/
def Body.beforeNotify : Body → Bool
  | .callback | .locking | .storing | .notifying => true
  | _ => false

/-- `loop()` is still to store `quit_ = false`. -/
def Body.beforeLoop : Body → Bool
  | .callback | .locking | .storing | .notifying | .unlocking | .entering => true
  | _ => false

/-- `loop_` has been reset. -/
def Body.hasReset : Body → Bool
  | .releasing | .destroying | .finished => true
  | _ => false

/-- The owner has the mutex here. -/
def Owner.locked : Owner → Bool
  | .testing | .returning => true
  | _ => false

theorem advance_quit (l : EventLoop.Sys τ) (ready : List Ready) : (l.advance ready).quit = l.quit := by
  unfold EventLoop.Sys.advance
  split
  · rfl
  · split <;> rfl
  · split <;> rfl
  · rename_i x _ _
    cases x <;> rfl
  all_goals rfl

theorem advance_pending (l : EventLoop.Sys τ) (ready : List Ready) :
    (l.advance ready).pending = l.pending := by
  unfold EventLoop.Sys.advance
  split
  · rfl
  · split <;> rfl
  · split <;> rfl
  · rename_i x _ _
    cases x <;> rfl
  all_goals rfl

/-- The loop is left at the test of `quit_` only. -/
theorem advance_outside {l : EventLoop.Sys τ} {ready : List Ready} (hin : l.phase.isOutside = false)
    (hout : (l.advance ready).phase.isOutside = true) : l.phase = .testing ∧ l.quit = true := by
  unfold EventLoop.Sys.advance at hout
  split at hout
  · rename_i h
    rw [h] at hin
    exact absurd hin (by simp [Phase.isOutside])
  · rename_i h
    refine ⟨h, ?_⟩
    split at hout
    · assumption
    · exact absurd hout (by simp [Phase.isOutside])
  · rename_i h
    split at hout
    · rw [h] at hout
      exact absurd hout (by simp [Phase.isOutside])
    · exact absurd hout (by simp [Phase.isOutside])
  · rename_i x _ _
    cases x <;> exact absurd hout (by simp [Phase.isOutside, EventLoop.Sys.handleEvent])
  all_goals exact absurd hout (by simp [Phase.isOutside])

/-- `loop()` stores `quit_ = false` and is inside. -/
theorem enter_inside {l l' : EventLoop.Sys τ} (hr : l.isRunning = false)
    (he : l.enter bodyThread = .ok l') : l'.quit = false ∧ l'.phase = .testing := by
  unfold EventLoop.Sys.enter at he
  rw [hr] at he
  simp only [Bool.false_eq_true, if_false] at he
  obtain ⟨-, -, he⟩ := bind_ok_inv he
  obtain rfl := Except.ok.inj he
  exact ⟨rfl, rfl⟩

/-- Where the owner and the body can be together. -/
structure Coupled (s : Sys τ) : Prop where
  ptr : s.loopPtr = s.body.published
  ownerLocked : s.mutex = some .owner ↔ s.owner.locked = true
  bodyLocked : s.mutex = some .body ↔ s.body.locked = true
  idle : s.owner = .idle → s.body = .notStarted
  joinable : s.owner.inStartLoop = true ∨ s.owner = .started → s.joinable = true
  unborn : s.owner.inStartLoop = true → s.body ≠ .notStarted
  outside : s.body.beforeLoop = true → s.loop.isRunning = false
  inside : s.body = .looping → s.loop.phase.isOutside = false

theorem init_coupled : Coupled (Sys.init : Sys τ) := by
  constructor <;> simp [Sys.init, Body.published, Owner.locked, Body.locked, Owner.inStartLoop,
    Body.beforeLoop]

/-- The owner moves on within `startLoop`, or out of it. -/
theorem Coupled.owner (h : Coupled s) (hbody : s'.body = s.body) (hptr : s'.loopPtr = s.loopPtr)
    (hrun : s'.loop.isRunning = s.loop.isRunning) (hphase : s'.loop.phase = s.loop.phase)
    (hmutex : s'.mutex = some .body ↔ s.mutex = some .body)
    (hlocked : s'.mutex = some .owner ↔ s'.owner.locked = true) (hidle : s'.owner ≠ .idle)
    (hstart : s'.owner.inStartLoop = true ∨ s'.owner = .started →
      s.owner.inStartLoop = true ∧ s'.joinable = s.joinable) : Coupled s' where
  ptr := by rw [hptr, hbody]; exact h.ptr
  ownerLocked := hlocked
  bodyLocked := by rw [hmutex, hbody]; exact h.bodyLocked
  idle := fun ho => absurd ho hidle
  joinable := by
    intro ho
    obtain ⟨hin, hjoin⟩ := hstart ho
    rw [hjoin]
    exact h.joinable (Or.inl hin)
  unborn := by
    intro ho
    rw [hbody]
    exact h.unborn (hstart (Or.inl ho)).1
  outside := by rw [hbody, hrun]; exact h.outside
  inside := by rw [hbody, hphase]; exact h.inside

/-- The owner moves on and leaves the mutex as it is. -/
theorem Coupled.ownerGoes (h : Coupled s) (hbody : s'.body = s.body) (hptr : s'.loopPtr = s.loopPtr)
    (hrun : s'.loop.isRunning = s.loop.isRunning) (hphase : s'.loop.phase = s.loop.phase)
    (hmutex : s'.mutex = s.mutex) (hlocked : s'.owner.locked = s.owner.locked)
    (hidle : s'.owner ≠ .idle)
    (hstart : s'.owner.inStartLoop = true ∨ s'.owner = .started →
      s.owner.inStartLoop = true ∧ s'.joinable = s.joinable) : Coupled s' := by
  refine h.owner hbody hptr hrun hphase (by rw [hmutex]) ?_ hidle hstart
  rw [hmutex, hlocked]
  exact h.ownerLocked

/-- The body moves on. -/
theorem Coupled.body (h : Coupled s) (howner : s'.owner = s.owner) (hjoin : s'.joinable = s.joinable)
    (hborn : s.body ≠ .notStarted) (hborn' : s'.body ≠ .notStarted)
    (hptr : s'.loopPtr = s'.body.published) (hmutex : s'.mutex = some .owner ↔ s.mutex = some .owner)
    (hlocked : s'.mutex = some .body ↔ s'.body.locked = true)
    (hout : s'.body.beforeLoop = true → s'.loop.isRunning = false)
    (hin : s'.body = .looping → s'.loop.phase.isOutside = false) : Coupled s' where
  ptr := hptr
  ownerLocked := by rw [hmutex, howner]; exact h.ownerLocked
  bodyLocked := hlocked
  idle := by
    rw [howner]
    exact fun ho => absurd (h.idle ho) hborn
  joinable := by rw [howner, hjoin]; exact h.joinable
  unborn := fun _ => hborn'
  outside := hout
  inside := hin

/-- The body moves on and leaves the mutex and `loop_` as they are. -/
theorem Coupled.bodyGoes (h : Coupled s) (howner : s'.owner = s.owner) (hjoin : s'.joinable = s.joinable)
    (hborn : s.body ≠ .notStarted) (hborn' : s'.body ≠ .notStarted) (hptr : s'.loopPtr = s.loopPtr)
    (hmutex : s'.mutex = s.mutex) (hpublished : s'.body.published = s.body.published)
    (hlocked : s'.body.locked = s.body.locked)
    (hout : s'.body.beforeLoop = true → s'.loop.isRunning = false)
    (hin : s'.body = .looping → s'.loop.phase.isOutside = false) : Coupled s' := by
  refine h.body howner hjoin hborn hborn' ?_ (by rw [hmutex]) ?_ hout hin
  · rw [hptr, hpublished]
    exact h.ptr
  · rw [hmutex, hlocked]
    exact h.bodyLocked

theorem OwnerMove.coupled (h : Coupled s) (hm : OwnerMove s s') : Coupled s' := by
  cases hm with
  | stay => exact h
  | lock ho hfree =>
    refine h.owner rfl rfl rfl rfl (by simp [hfree]) (by simp [Owner.locked]) (by simp) fun _ => ⟨?_, rfl⟩
    rcases ho with ho | ho <;> rw [ho] <;> rfl
  | found ho =>
    exact h.ownerGoes rfl rfl rfl rfl rfl (by rw [ho]; rfl) (by simp) fun _ => ⟨by rw [ho]; rfl, rfl⟩
  | wait ho | unlock ho =>
    have hmutex : s.mutex = some .owner := h.ownerLocked.mpr (by rw [ho]; rfl)
    exact h.owner rfl rfl rfl rfl (by simp [hmutex]) (by simp [Owner.locked]) (by simp)
      fun _ => ⟨by rw [ho]; rfl, rfl⟩
  | skip ho | read ho | quit ho | wakeup ho | join ho | leave ho =>
    exact h.ownerGoes rfl rfl rfl rfl rfl (by rw [ho]; rfl) (by simp) (by simp [Owner.inStartLoop])

theorem BodyMove.coupled {ready : List Ready} (h : Coupled s) (hm : BodyMove s ready s') :
    Coupled s' := by
  have hmutex : s.body.locked = true → s.mutex = some .body := h.bodyLocked.mpr
  have hrun := h.outside
  cases hm with
  | stay => exact h
  | returned hb =>
    rw [hb] at hrun
    exact h.bodyGoes rfl rfl (by simp [hb]) (by simp) rfl rfl (by rw [hb]; rfl) (by rw [hb]; rfl)
      (fun _ => hrun rfl) (by simp)
  | lock hb hfree =>
    have hptr := h.ptr
    rw [hb] at hrun hptr
    exact h.body rfl rfl (by simp [hb]) (by simp) hptr (by simp [hfree]) (by simp [Body.locked])
      (fun _ => hrun rfl) (by simp)
  | store hb =>
    rw [hb] at hrun hmutex
    exact h.body rfl rfl (by simp [hb]) (by simp) rfl Iff.rfl (by simp [hmutex rfl, Body.locked])
      (fun _ => hrun rfl) (by simp)
  | notify hb =>
    -- first the owner wakes up, then the body goes on
    have hwoken : Coupled { s with owner := if s.owner = .waiting then .waking else s.owner } := by
      by_cases hw : s.owner = .waiting
      · rw [if_pos hw]
        exact h.ownerGoes rfl rfl rfl rfl rfl (by rw [hw]; rfl) (by simp)
          fun _ => ⟨by rw [hw]; rfl, rfl⟩
      · rw [if_neg hw]
        exact h
    rw [hb] at hrun
    exact hwoken.bodyGoes rfl rfl (by simp [hb]) (by simp) rfl rfl (by rw [hb]; rfl) (by rw [hb]; rfl)
      (fun _ => hrun rfl) (by simp)
  | unlock hb =>
    have hptr := h.ptr
    rw [hb] at hrun hmutex hptr
    exact h.body rfl rfl (by simp [hb]) (by simp) hptr (by simp [hmutex rfl]) (by simp [Body.locked])
      (fun _ => hrun rfl) (by simp)
  | enter hb loop he =>
    obtain ⟨-, hphase⟩ := enter_inside (hrun (by rw [hb]; rfl)) he
    exact h.bodyGoes rfl rfl (by simp [hb]) (by simp) rfl rfl (by rw [hb]; rfl) (by rw [hb]; rfl)
      (by simp [Body.beforeLoop]) (fun _ => by rw [hphase]; rfl)
  | turn hb hp hin =>
    exact h.bodyGoes rfl rfl (by simp [hb]) (by simp [hb]) rfl rfl rfl rfl (by simp [hb, Body.beforeLoop])
      (fun _ => hin)
  | leave hb =>
    have hptr := h.ptr
    have hunlocked := h.bodyLocked
    rw [hb] at hptr hunlocked
    exact h.body rfl rfl (by simp [hb]) (by simp) hptr Iff.rfl hunlocked (by simp [Body.beforeLoop])
      (by simp)
  | relock hb hfree =>
    have hptr := h.ptr
    rw [hb] at hptr
    exact h.body rfl rfl (by simp [hb]) (by simp) hptr (by simp [hfree]) (by simp [Body.locked])
      (by simp [Body.beforeLoop]) (by simp)
  | clear hb =>
    rw [hb] at hmutex
    exact h.body rfl rfl (by simp [hb]) (by simp) rfl Iff.rfl (by simp [hmutex rfl, Body.locked])
      (by simp [Body.beforeLoop]) (by simp)
  | release hb =>
    have hptr := h.ptr
    rw [hb] at hmutex hptr
    exact h.body rfl rfl (by simp [hb]) (by simp) hptr (by simp [hmutex rfl]) (by simp [Body.locked])
      (by simp [Body.beforeLoop]) (by simp)
  | destroy hb =>
    exact h.bodyGoes rfl rfl (by simp [hb]) (by simp) rfl rfl (by rw [hb]; rfl) (by rw [hb]; rfl)
      (by simp [Body.beforeLoop]) (by simp)

theorem step_coupled {a : Label τ} (h : Coupled s) (he : s.step a = .ok s') : Coupled s' := by
  cases step_move he with
  | stay => exact h
  | start ho hj =>
    -- a thread was never there: `joinable` is false
    have hidle : s.owner = .idle := by
      refine ho.resolve_right fun hstarted => ?_
      rw [h.joinable (Or.inr hstarted)] at hj
      exact absurd hj (by simp)
    have hptr := h.ptr
    have howner := h.ownerLocked
    have hbody := h.bodyLocked
    rw [h.idle hidle] at hptr hbody
    rw [hidle] at howner
    exact ⟨hptr, howner, hbody, by simp, fun _ => rfl, by simp, fun _ => rfl, by simp⟩
  | destroy ho =>
    refine h.ownerGoes rfl rfl rfl rfl rfl ?_ (by simp) (by simp [Owner.inStartLoop])
    rcases ho with ho | ho <;> rw [ho] <;> rfl
  | spurious ho =>
    exact h.ownerGoes rfl rfl rfl rfl rfl (by rw [ho]; rfl) (by simp) fun _ => ⟨by rw [ho]; rfl, rfl⟩
  | owner hm => exact hm.coupled h
  | body hm => exact hm.coupled h
  | user hns hnf hin hloop =>
    obtain ⟨hphase, hrun, -⟩ := user_loop_step hloop
    exact ⟨h.ptr, h.ownerLocked, h.bodyLocked, h.idle, h.joinable, h.unborn,
      fun hb => hrun.trans (h.outside hb), fun hb => by rw [hphase]; exact h.inside hb⟩

/-- No `quit()` is executed inside `loop()` while the owner is still in `startLoop`. -/
def NoEarlyQuit (s : Sys τ) (a : Label τ) : Prop :=
  match a with
  | .user t call => s.storesQuit t call = true → s.body = .looping → s.owner.inStartLoop = false
  | _ => True

instance (s : Sys τ) : ∀ a : Label τ, Decidable (NoEarlyQuit s a)
  | .user t call => inferInstanceAs (Decidable
      (s.storesQuit t call = true → s.body = .looping → s.owner.inStartLoop = false))
  | .startLoop | .destroy | .owner | .spurious | .body _ => isTrue trivial

/-- The owner is blocked in `condition_.wait`, and the body has reset `loop_` already. -/
def Stuck (s : Sys τ) : Prop := s.owner = .waiting ∧ s.body.hasReset = true

/-- While the owner is in `startLoop` the loop does not end, and while it is blocked the notification
is still to come. -/
structure Starting (s : Sys τ) : Prop extends Coupled s where
  early : s.owner.inStartLoop = true → s.body.beforeLoop = true ∨ s.body = .looping
  running : s.owner.inStartLoop = true → s.body = .looping → s.loop.quit = false
  waiting : s.owner = .waiting → s.body.beforeNotify = true

theorem Starting.not_stuck (h : Starting s) : ¬ Stuck s := by
  rintro ⟨hw, hreset⟩
  have hbefore := h.waiting hw
  have hdisjoint : ∀ b : Body, b.beforeNotify = true → b.hasReset = true → False := by
    intro b
    cases b <;> simp [Body.beforeNotify, Body.hasReset]
  exact hdisjoint s.body hbefore hreset

/-- Out of `startLoop` there is nothing to say. -/
theorem starting_of_outside (h : Coupled s) (hno : s.owner.inStartLoop ≠ true) : Starting s := by
  refine ⟨h, fun ho => absurd ho hno, fun ho => absurd ho hno, fun hw => ?_⟩
  rw [hw] at hno
  exact absurd rfl hno

theorem init_starting : Starting (Sys.init : Sys τ) :=
  starting_of_outside init_coupled (by simp [Sys.init, Owner.inStartLoop])

theorem OwnerMove.starting (h : Starting s) (hm : OwnerMove s s') : Starting s' := by
  have hc := hm.coupled h.toCoupled
  cases hm with
  | stay => exact h
  | lock ho hfree =>
    have hin : s.owner.inStartLoop = true := by rcases ho with ho | ho <;> rw [ho] <;> rfl
    exact ⟨hc, fun _ => h.early hin, fun _ => h.running hin, by simp⟩
  | found ho hp =>
    have hin : s.owner.inStartLoop = true := by rw [ho]; rfl
    exact ⟨hc, fun _ => h.early hin, fun _ => h.running hin, by simp⟩
  | wait ho hp =>
    -- `loop_` is not set, so the body has not come to the notification
    have hin : s.owner.inStartLoop = true := by rw [ho]; rfl
    have hbefore : s.body.beforeNotify = true := by
      have hptr : s.body.published = false := h.ptr.symm.trans hp
      rcases h.early hin with hearly | hloop
      · revert hearly hptr
        cases s.body <;> simp [Body.published, Body.beforeNotify, Body.beforeLoop]
      · rw [hloop] at hptr
        exact absurd hptr (by simp [Body.published])
    exact ⟨hc, fun _ => h.early hin, fun _ => h.running hin, fun _ => hbefore⟩
  | unlock | skip | read | quit | wakeup | join | leave =>
    exact starting_of_outside hc (by simp [Owner.inStartLoop])

theorem BodyMove.starting {ready : List Ready} (h : Starting s) (hm : BodyMove s ready s') :
    Starting s' := by
  have hc := hm.coupled h.toCoupled
  cases hm with
  | stay => exact h
  | returned hb | lock hb | store hb =>
    exact ⟨hc, fun _ => Or.inl rfl, fun _ hl => absurd hl (by simp), fun _ => rfl⟩
  | notify hb =>
    refine ⟨hc, fun _ => Or.inl rfl, fun _ hl => absurd hl (by simp), ?_⟩
    intro hw
    simp only at hw
    split at hw
    · exact absurd hw (by simp)
    · exact absurd hw ‹_›
  | unlock hb =>
    refine ⟨hc, fun _ => Or.inl rfl, fun _ hl => absurd hl (by simp), ?_⟩
    intro hw
    have hbefore := h.waiting hw
    rw [hb] at hbefore
    exact absurd hbefore (by simp [Body.beforeNotify])
  | enter hb loop he =>
    have hrun : s.loop.isRunning = false := h.outside (by rw [hb]; rfl)
    obtain ⟨hquit, -⟩ := enter_inside hrun he
    refine ⟨hc, fun _ => Or.inr rfl, fun _ _ => hquit, ?_⟩
    intro hw
    have hbefore := h.waiting hw
    rw [hb] at hbefore
    exact absurd hbefore (by simp [Body.beforeNotify])
  | turn hb hp hin =>
    exact ⟨hc, h.early, fun ho hl => by rw [advance_quit]; exact h.running ho hl, h.waiting⟩
  | leave hb hp hout =>
    obtain ⟨-, hquit⟩ := advance_outside (h.inside hb) hout
    have hno : s.owner.inStartLoop ≠ true := by
      intro ho
      have hfalse := h.running ho hb
      rw [hquit] at hfalse
      exact absurd hfalse (by simp)
    exact starting_of_outside hc hno
  | relock hb | clear hb | release hb | destroy hb =>
    have hno : s.owner.inStartLoop ≠ true := by
      intro ho
      have hearly := h.early ho
      rw [hb] at hearly
      exact absurd hearly (by simp [Body.beforeLoop])
    exact starting_of_outside hc hno

theorem step_starting {a : Label τ} (h : Starting s) (hq : NoEarlyQuit s a)
    (he : s.step a = .ok s') : Starting s' := by
  have hc := step_coupled h.toCoupled he
  cases step_move he with
  | stay => exact h
  | start => exact ⟨hc, fun _ => Or.inl rfl, fun _ hl => absurd hl (by simp), by simp⟩
  | destroy => exact starting_of_outside hc (by simp [Owner.inStartLoop])
  | spurious ho =>
    have hin : s.owner.inStartLoop = true := by rw [ho]; rfl
    exact ⟨hc, fun _ => h.early hin, fun _ => h.running hin, by simp⟩
  | owner hm => exact hm.starting h
  | body hm => exact hm.starting h
  | @user t call loop hns hnf hin hloop =>
    obtain ⟨-, -, hquit⟩ := user_loop_step hloop
    refine ⟨hc, h.early, fun ho hl => ?_, h.waiting⟩
    have hno : s.storesQuit t call ≠ true := by
      intro hstores
      have hout := hq hstores hl
      rw [show s.owner.inStartLoop = true from ho] at hout
      exact absurd hout (by simp)
    have hstore : (call.isQuit && s.loop.free t) = false := by
      simpa [Sys.storesQuit, hin] using hno
    rw [hquit, hstore, Bool.or_false]
    exact h.running ho hl

/-- **`startLoop` does not get stuck** in any run in which no `quit()` is executed inside `loop()`
before `startLoop` has returned: whenever its caller is blocked the notification is still to come. -/
theorem startLoop_not_stuck {ls : List (Label τ)} (hq : Along Sys.step NoEarlyQuit Sys.init ls)
    (hrun : run Sys.step (Sys.init : Sys τ) ls = .ok t) :
    ¬ Stuck t ∧ (t.owner = .waiting → t.body.beforeNotify = true) := by
  have h := run_invariant step_starting init_starting hq hrun
  exact ⟨h.not_stuck, h.waiting⟩

/-- The init callback queues a task, and the owner comes to wait before the loop is published. -/
def callbackQueues : List (Label Unit) :=
  [.startLoop, .user bodyThread (.queueInLoop ()), .user bodyThread .proceed, .owner, .owner]

theorem startLoop_not_stuck_callbackQueues :
    ∃ t, run Sys.step Sys.init callbackQueues = .ok t ∧ t.owner = .waiting ∧ ¬ Stuck t ∧
      t.body.beforeNotify = true := by
  have hq : Along Sys.step NoEarlyQuit Sys.init callbackQueues := by decide +kernel
  have hend : ∃ t, run Sys.step Sys.init callbackQueues = .ok t ∧ t.owner = .waiting := by
    decide +kernel
  obtain ⟨t, hrun, hw⟩ := hend
  obtain ⟨hstuck, hbefore⟩ := startLoop_not_stuck hq hrun
  exact ⟨t, hrun, hw, hstuck, hbefore hw⟩

/-- The task the init callback queued quits the loop, and the body ends before the owner has looked at
`loop_` once. -/
def quitBeforeStarted : List (Label Unit) :=
  [.startLoop, .user bodyThread (.queueInLoop ()), .user bodyThread .proceed] ++
    List.replicate 11 (.body []) ++ [.user bodyThread .quit, .user bodyThread .proceed] ++
    List.replicate 6 (.body []) ++ [.owner, .owner]

/-- The owner is blocked in `startLoop`, and there is no body left to notify it. -/
theorem stuck_quitBeforeStarted :
    ∃ t, run Sys.step Sys.init quitBeforeStarted = .ok t ∧
      t.owner = .waiting ∧ t.body = .finished ∧ t.loopPtr = false := by
  decide +kernel

/-! ## A request to quit is not lost -/

/-- A thread other than the body's calls `quit()` after `startLoop` has returned: the store. -/
def Sys.requestsQuit (s : Sys τ) : Label τ → Bool
  | .user t call => s.storesQuit t call && !isInLoopThread 0 t && s.owner.hasStarted
  | .owner => s.owner = .quitting
  | _ => false

/-- The request comes after `loop()` has stored `quit_ = false`. -/
def Timely (s : Sys τ) (a : Label τ) : Prop := s.requestsQuit a = true → s.body.beforeLoop = false

instance (s : Sys τ) (a : Label τ) : Decidable (Timely s a) :=
  inferInstanceAs (Decidable (s.requestsQuit a = true → s.body.beforeLoop = false))

/-- A request, once made, stands until the loop is left, and no poll begins meanwhile. -/
structure Standing (s : Sys τ) : Prop extends Coupled s where
  fresh : s.owner.hasStarted = false → s.quitRequested = false
  entered : s.quitRequested = true → s.body.beforeLoop = false
  kept : s.quitRequested = true → s.body = .looping → s.loop.quit = true
  noPoll : s.pollsAfterQuit = 0

theorem init_standing : Standing (Sys.init : Sys τ) :=
  ⟨init_coupled, fun _ => rfl, by simp [Sys.init], by simp [Sys.init], rfl⟩

theorem OwnerMove.standing (h : Standing s) (ht : Timely s .owner) (hm : OwnerMove s s') :
    Standing s' := by
  have hc := hm.coupled h.toCoupled
  cases hm with
  | stay => exact h
  | lock ho =>
    have hnot : s.owner.hasStarted = false := by rcases ho with ho | ho <;> rw [ho] <;> rfl
    exact ⟨hc, fun _ => h.fresh hnot, h.entered, h.kept, h.noPoll⟩
  | found ho | wait ho =>
    have hnot : s.owner.hasStarted = false := by rw [ho]; rfl
    exact ⟨hc, fun _ => h.fresh hnot, h.entered, h.kept, h.noPoll⟩
  | quit ho =>
    have hreq : s.requestsQuit .owner = true := by simp [Sys.requestsQuit, ho]
    exact ⟨hc, by simp [Owner.hasStarted], fun _ => ht hreq, fun _ _ => rfl, h.noPoll⟩
  | unlock | skip | read | wakeup | join | leave =>
    exact ⟨hc, by simp [Owner.hasStarted], h.entered, h.kept, h.noPoll⟩

theorem BodyMove.standing {ready : List Ready} (h : Standing s) (hm : BodyMove s ready s') :
    Standing s' := by
  have hc := hm.coupled h.toCoupled
  -- before `loop()` there is no request
  have hearly : s.body.beforeLoop = true → s.quitRequested = false := by
    intro hb
    by_contra hq
    have hent := h.entered (by simpa using hq)
    rw [hb] at hent
    exact absurd hent (by simp)
  cases hm with
  | stay => exact h
  | returned hb | lock hb | store hb | unlock hb =>
    have hno := hearly (by rw [hb]; rfl)
    exact ⟨hc, h.fresh, fun hq => by simp_all, fun _ hl => absurd hl (by simp), h.noPoll⟩
  | notify hb =>
    have hno := hearly (by rw [hb]; rfl)
    exact ⟨hc, fun _ => hno, fun hq => by simp_all, fun _ hl => absurd hl (by simp), h.noPoll⟩
  | enter hb loop he =>
    have hno := hearly (by rw [hb]; rfl)
    exact ⟨hc, h.fresh, fun _ => rfl, fun hq => by simp_all, h.noPoll⟩
  | turn hb hp hin =>
    refine ⟨hc, h.fresh, h.entered, fun hq hl => ?_, ?_⟩
    · rw [advance_quit]
      exact h.kept hq hl
    · -- a requested loop does not get from the test to a poll
      by_cases hq : (s.quitRequested && s.loop.phase.isTesting) = true
      · obtain ⟨hreq, htest⟩ := Bool.and_eq_true_iff.mp hq
        have hquit := h.kept hreq hb
        have hphase : s.loop.phase = .testing := by
          revert htest
          cases s.loop.phase <;> simp [Phase.isTesting]
        exact absurd hin (by simp [EventLoop.Sys.advance, hphase, hquit, Phase.isOutside])
      · simp only [if_neg hq]
        exact h.noPoll
  | leave | relock | clear | release | destroy =>
    exact ⟨hc, h.fresh, fun _ => rfl, fun _ hl => absurd hl (by simp), h.noPoll⟩

theorem step_standing {a : Label τ} (h : Standing s) (ht : Timely s a) (he : s.step a = .ok s') :
    Standing s' := by
  have hc := step_coupled h.toCoupled he
  cases step_move he with
  | stay => exact h
  | start ho hj =>
    have hno : s.quitRequested = false := by
      rcases ho with ho | ho
      · exact h.fresh (by rw [ho]; rfl)
      · have hjoin := h.joinable (Or.inr ho)
        rw [hj] at hjoin
        exact absurd hjoin (by simp)
    exact ⟨hc, fun _ => hno, fun hq => by simp_all, fun _ hl => absurd hl (by simp), h.noPoll⟩
  | destroy => exact ⟨hc, by simp [Owner.hasStarted], h.entered, h.kept, h.noPoll⟩
  | spurious ho =>
    exact ⟨hc, fun _ => h.fresh (by rw [ho]; rfl), h.entered, h.kept, h.noPoll⟩
  | owner hm => exact hm.standing h ht
  | body hm => exact hm.standing h
  | @user t call loop hns hnf hin hloop =>
    obtain ⟨-, -, hquit⟩ := user_loop_step hloop
    by_cases hreq : s.requestsQuit (.user t call) = true
    · have hent := ht hreq
      obtain ⟨hother, hstarted⟩ := Bool.and_eq_true_iff.mp hreq
      refine ⟨hc, fun hnot => ?_, fun _ => hent, fun _ _ => ?_, h.noPoll⟩
      · rw [show s.owner.hasStarted = false from hnot] at hstarted
        exact absurd hstarted (by simp)
      · have hstore : (call.isQuit && s.loop.free t) = true := by
          simp only [Sys.storesQuit, Bool.and_eq_true] at hother ⊢
          exact ⟨hother.1.1.1, hother.1.2⟩
        rw [hquit, hstore, Bool.or_true]
    · have hsame : (s.storesQuit t call && !isInLoopThread 0 t && s.owner.hasStarted) = false :=
        Bool.eq_false_iff.mpr hreq
      rw [hsame, Bool.or_false] at hc ⊢
      refine ⟨hc, h.fresh, h.entered, fun hq hl => ?_, h.noPoll⟩
      rw [hquit, h.kept hq hl, Bool.true_or]

/-- A step of the thread of the body. -/
def Label.ofBody : Label τ → Bool
  | .body _ => true
  | .user t _ => t = bodyThread
  | _ => false

/-- The thread of the body, left to itself, gets out of `loop()`. -/
def Leaves (s : Sys τ) : Prop :=
  ∃ ls : List (Label τ), (∀ a ∈ ls, a.ofBody = true) ∧
    ∃ s', run Sys.step s ls = .ok s' ∧ s'.body = .relocking

theorem Leaves.cons {a : Label τ} (ha : a.ofBody = true) (he : s.step a = .ok s') (h : Leaves s') :
    Leaves s := by
  obtain ⟨ls, hls, t, hrun, hb⟩ := h
  exact ⟨a :: ls, List.forall_mem_cons.mpr ⟨ha, hls⟩, t, (run_cons_ok he).mpr hrun, hb⟩

/-- The body is in `loop()` and in no call, and `quit_` is set. -/
structure Ending (s : Sys τ) : Prop where
  looping : s.body = .looping
  free : s.loop.pending bodyThread = none
  quit : s.loop.quit = true

/-- A step of `loop()` that does not leave it. -/
theorem Ending.turn {p : Phase τ} (h : Ending s) (hphase : (s.loop.advance []).phase = p)
    (hin : p.isOutside = false) (hnext : ∀ s', Ending s' → s'.loop.phase = p → Leaves s') :
    Leaves s := by
  obtain ⟨s', hok, hb, hl⟩ : ∃ s', s.step (.body []) = .ok s' ∧ s'.body = .looping ∧
      s'.loop = s.loop.advance [] := by
    simp only [Sys.step, Sys.bodyStep, h.looping, Sys.loopStep, h.free, Option.isNone_none, if_true,
      hphase, hin, Bool.false_eq_true, if_false]
    exact ⟨_, rfl, rfl, rfl⟩
  refine (hnext s' ⟨hb, ?_, ?_⟩ (by rw [hl, hphase])).cons rfl hok
  · rw [hl, advance_pending]
    exact h.free
  · rw [hl, advance_quit]
    exact h.quit

theorem leaves_testing (h : Ending s) (hphase : s.loop.phase = .testing) : Leaves s := by
  obtain ⟨s', hok, hb⟩ : ∃ s', s.step (.body []) = .ok s' ∧ s'.body = .relocking := by
    simp only [Sys.step, Sys.bodyStep, h.looping, Sys.loopStep, h.free, Option.isNone_none, if_true,
      EventLoop.Sys.advance, hphase, h.quit, Phase.isOutside]
    exact ⟨_, rfl, rfl⟩
  exact ⟨[.body []], by simp [Label.ofBody], s', (run_cons_ok hok).mpr rfl, hb⟩

theorem leaves_executing (qs : List (EventLoop.Queued τ)) (h : Ending s)
    (hphase : s.loop.phase = .executing qs) : Leaves s := by
  induction qs generalizing s with
  | nil =>
    refine h.turn (p := .testing) ?_ rfl fun s' => leaves_testing
    simp only [EventLoop.Sys.advance, hphase]
  | cons q qs ih =>
    refine h.turn (p := .executing qs) ?_ rfl fun s' => ih
    simp only [EventLoop.Sys.advance, hphase]

theorem leaves_swapping (h : Ending s) (hphase : s.loop.phase = .swapping) : Leaves s := by
  refine h.turn (p := .executing s.loop.taskQueue) ?_ rfl fun s' => leaves_executing _
  simp only [EventLoop.Sys.advance, hphase]

theorem leaves_dispatching (rs : List Ready) (h : Ending s)
    (hphase : s.loop.phase = .dispatching rs) : Leaves s := by
  induction rs generalizing s with
  | nil =>
    refine h.turn (p := .swapping) ?_ rfl fun s' => leaves_swapping
    simp only [EventLoop.Sys.advance, hphase]
  | cons r rs ih =>
    refine h.turn (p := .dispatching rs) ?_ rfl fun s' => ih
    simp only [EventLoop.Sys.advance, hphase]
    cases r <;> rfl

/-- The iteration in progress ends and `loop()` returns, from wherever it is. -/
theorem Ending.leaves (h : Ending s) (hin : s.loop.phase.isOutside = false) : Leaves s := by
  cases hphase : s.loop.phase with
  | outside =>
    rw [hphase] at hin
    exact absurd hin (by simp [Phase.isOutside])
  | testing => exact leaves_testing h hphase
  | polling =>
    refine h.turn (p := .dispatching []) ?_ rfl fun s' => leaves_dispatching []
    simp [EventLoop.Sys.advance, hphase]
  | dispatching rs => exact leaves_dispatching rs h hphase
  | swapping => exact leaves_swapping h hphase
  | executing qs => exact leaves_executing qs h hphase

/-- The call the thread is in ends first. -/
theorem leaves_of_quit (hb : s.body = .looping) (hin : s.loop.phase.isOutside = false)
    (hq : s.loop.quit = true) : Leaves s := by
  cases hp : s.loop.pending bodyThread with
  | none => exact Ending.leaves ⟨hb, hp, hq⟩ hin
  | some p =>
    obtain ⟨s', hok, hb', hphase, hquit, hpend⟩ : ∃ s', s.step (.user bodyThread .proceed) = .ok s' ∧
        s'.body = .looping ∧ s'.loop.phase = s.loop.phase ∧ s'.loop.quit = s.loop.quit ∧
        s'.loop.pending bodyThread = none := by
      simp only [Sys.step, Sys.userStep, Sys.inUserCode, hb, UserCall.toLabel, EventLoop.Sys.step, hp]
      refine ⟨_, rfl, rfl, ?_, ?_, ?_⟩ <;> cases p <;> simp only [EventLoop.Sys.proceed] <;> split <;>
        simp [EventLoop.Sys.wakeup]
    exact (Ending.leaves ⟨hb', hpend, hquit.trans hq⟩ (by rw [hphase]; exact hin)).cons rfl hok

/-- **A request to quit is not lost** in any run in which `quit()` is not called from another thread
between the return of `startLoop` and the store of `quit_ = false` in `loop()`: from the request on
`quit_` is set until the loop is left, no poll begins, and the thread gets out of `loop()` without
anything happening outside it, so that the destructor's `join` ends. -/
theorem quit_not_lost {ls : List (Label τ)} (ht : Along Sys.step Timely Sys.init ls)
    (hrun : run Sys.step (Sys.init : Sys τ) ls = .ok t) (hreq : t.quitRequested = true) :
    t.body.beforeLoop = false ∧ t.pollsAfterQuit = 0 ∧
      (t.body = .looping → t.loop.quit = true ∧ Leaves t) := by
  have h := run_invariant step_standing init_standing ht hrun
  refine ⟨h.entered hreq, h.noPoll, fun hb => ⟨h.kept hreq hb, ?_⟩⟩
  exact leaves_of_quit hb (h.inside hb) (h.kept hreq hb)

/-- The destructor has stored `quit_` while the loop polls. -/
def quitWhilePolling : List (Label Unit) := upAndPolling ++ [.destroy, .owner, .owner]

theorem quit_not_lost_quitWhilePolling :
    ∃ t, run Sys.step Sys.init quitWhilePolling = .ok t ∧ t.quitRequested = true ∧
      t.body = .looping ∧ t.loop.quit = true ∧ t.pollsAfterQuit = 0 ∧ Leaves t := by
  have ht : Along Sys.step Timely Sys.init quitWhilePolling := by decide +kernel
  have hend : ∃ t, run Sys.step Sys.init quitWhilePolling = .ok t ∧
      t.quitRequested = true ∧ t.body = .looping := by decide +kernel
  obtain ⟨t, hrun, hreq, hb⟩ := hend
  obtain ⟨-, hpolls, hkept⟩ := quit_not_lost ht hrun hreq
  exact ⟨t, hrun, hreq, hb, (hkept hb).1, hpolls, (hkept hb).2⟩

/-- The `EventLoopThread` is destroyed as soon as `startLoop` has returned, before the body has called
`loop()`. -/
def quitBeforeLoop : List (Label Unit) :=
  [.startLoop, .body [], .body [], .body [], .body [], .body [], .owner, .owner, .owner,
    .destroy, .owner, .owner, .owner, .body [], .body []]

/-- The destructor is in `join`, and the loop polls again with `quit_` reset. -/
theorem quit_lost_quitBeforeLoop :
    ∃ t, run Sys.step Sys.init quitBeforeLoop = .ok t ∧ t.owner = .joining ∧ t.quitRequested = true ∧
      t.body = .looping ∧ t.loop.quit = false ∧ t.pollsAfterQuit = 1 := by
  decide +kernel

end HyperMuduo.Net.EventLoopThread
