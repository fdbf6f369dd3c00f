import HyperMuduo.EventLoop.Loop

/-!
# Handlers and tasks that call `loop()`

The system of `EventLoop/Loop`, where a handler or a task may also call `loop()` on the loop that runs
it, any number of times (`reenter`). A call that finds `is_running_` set is meant to return at once. It
does, but the store of `false` after the guarded block is on its way: from then on the flag says that
nothing runs, and the next such call starts a second activation of the loop on top of the first.

* `sys` is the activation on top with what all activations share: the flags, the queue, the eventfd.
  `outer` are the activations below it, each where its handler or task made the call.
* An activation clears and refills `ready_channels_` at every turn. The ones below it that are in the
  range-for over `ready_channels_` then hold iterators that are no longer valid (`cleared`); going on
  with such a range-for follows them.

**`one_activation_iff`**: in a run there is never more than one activation, with `is_running_` set
while there is one, if and only if no handler and no task called `loop()`. `second_call_nests` is what
two calls do.
-/

namespace HyperMuduo.Net.EventLoop

open HyperMuduo.Lib

/-- An activation of `loop()` below the one that runs. -/
structure Suspended (τ : Type) where
  phase : Phase τ
  /-- `ready_channels_` was cleared since its `poll`. -/
  cleared : Bool
  deriving DecidableEq, Repr

/-- A loop with its activations. -/
structure Nested (τ : Type) where
  sys : Sys τ
  cleared : Bool
  outer : List (Suspended τ)

inductive NestedLabel (τ : Type) where
  /-- A step of one activation, or of another thread. -/
  | base (l : Label τ)
  /-- The handler or the task that is executed calls `loop()`. -/
  | reenter
  deriving DecidableEq, Repr

namespace Nested

variable {τ : Type}

/-- A constructed loop. -/
def start (loop : LoopId) : Nested τ := ⟨.start loop, false, []⟩

/-- The activations of the while loop. -/
def activations (s : Nested τ) : Nat := (if s.sys.phase.isOutside then 0 else 1) + s.outer.length

/-- A handler or a task is executed, and can call `loop()`. -/
def calling (s : Nested τ) : Bool := !s.sys.phase.isOutside && s.sys.free (.loop s.sys.loop)

/-- The while loop of the activation on top is left: `loop()` returns to its caller. -/
def leave (s : Nested τ) : Nested τ :=
  match s.outer with
  | [] => { s with sys := { s.sys with isRunning := false, phase := .outside } }
  | f :: outer =>
    { sys := { s.sys with isRunning := false, phase := f.phase }, cleared := f.cleared, outer := outer }

/-- The next step of the activation on top. -/
def advance (s : Nested τ) (ready : List Ready) : Except Fault (Nested τ) :=
  match s.sys.phase with
  | .testing => .ok (if s.sys.quit then s.leave else { s with sys := s.sys.advance ready })
  | .polling =>
    .ok
      { sys := s.sys.advance ready
        cleared := false
        outer := s.outer.map fun f => { f with cleared := true } }
  | .dispatching _ =>
    if s.cleared then .error .invalidPointer else .ok { s with sys := s.sys.advance ready }
  | _ => .ok { s with sys := s.sys.advance ready }

/-- `loop()`, from a handler or a task. -/
def reenter (s : Nested τ) : Except Fault (Nested τ) := do
  let sys ← s.sys.enter (.loop s.sys.loop)
  if s.sys.isRunning then return { s with sys := sys }
  else return { sys := sys, cleared := false, outer := ⟨s.sys.phase, s.cleared⟩ :: s.outer }

def step (s : Nested τ) : NestedLabel τ → Except Fault (Nested τ)
  | .base (.advance ready) => if (s.sys.pending s.sys.runner).isNone then s.advance ready else .ok s
  | .base l => do
    let sys ← s.sys.step l
    return { s with sys := sys }
  | .reenter => if s.calling then s.reenter else .ok s

/-- At most one activation, with `is_running_` set while there is one. -/
def OneActivation (s : Nested τ) : Prop :=
  s.activations ≤ 1 ∧ (0 < s.activations → s.sys.isRunning = true)

instance (s : Nested τ) : Decidable s.OneActivation := inferInstanceAs (Decidable (_ ∧ _))

/-- The step is no call of `loop()` from a handler or a task. -/
def NoReentry (s : Nested τ) (l : NestedLabel τ) : Prop := l = .reenter → s.calling = false

instance [DecidableEq τ] (s : Nested τ) (l : NestedLabel τ) : Decidable (s.NoReentry l) :=
  inferInstanceAs (Decidable (_ → _))

variable {s s' : Nested τ} {l : NestedLabel τ}

/-! ## Without nested calls -/

/-- The invariant: nothing below the activation on top, and `is_running_` set in it. -/
structure Single (s : Nested τ) : Prop where
  outer : s.outer = []
  running : s.sys.phase.isOutside = false → s.sys.isRunning = true

theorem Single.oneActivation (h : Single s) : OneActivation s := by
  unfold OneActivation activations
  rw [h.outer]
  cases hphase : s.sys.phase.isOutside with
  | true => simp
  | false => simp [h.running hphase]

theorem single_of_oneActivation (h : OneActivation s) (hin : s.sys.phase.isOutside = false) :
    Single s := by
  obtain ⟨hone, hrun⟩ := h
  unfold activations at hone hrun
  rw [hin] at hone hrun
  simp only [Bool.false_eq_true, if_false] at hone hrun
  exact ⟨List.length_eq_zero_iff.mp (by omega), fun _ => hrun (by omega)⟩

/-- No step of one activation clears `is_running_` and stays inside. -/
theorem advance_running {s : Sys τ} {ready : List Ready}
    (h : s.phase.isOutside = false → s.isRunning = true) :
    (s.advance ready).phase.isOutside = false → (s.advance ready).isRunning = true := by
  unfold Sys.advance
  split
  · exact h
  · split
    · exact fun hin => absurd hin (by simp [Phase.isOutside])
    · exact fun _ => h (by simp_all [Phase.isOutside])
  · split
    · exact h
    · exact fun _ => h (by simp_all [Phase.isOutside])
  · rename_i x xs hphase
    cases x <;> exact fun _ => h (by simp_all [Phase.isOutside])
  · exact fun _ => h (by simp_all [Phase.isOutside])
  · exact fun _ => h (by simp_all [Phase.isOutside])
  · exact fun _ => h (by simp_all [Phase.isOutside])
  · exact fun _ => h (by simp_all [Phase.isOutside])

theorem base_running {s s' : Sys τ} {l : Label τ}
    (h : s.phase.isOutside = false → s.isRunning = true) (he : s.step l = .ok s') :
    s'.phase.isOutside = false → s'.isRunning = true := by
  cases l with
  | loop t =>
    simp only [Sys.step] at he
    split at he
    · rename_i hfree
      have hout : s.phase.isOutside = true := by
        simp only [Bool.and_eq_true] at hfree
        exact hfree.2
      unfold Sys.enter at he
      split at he
      · obtain rfl := Except.ok.inj he
        exact fun hin => absurd (hout.symm.trans hin) (by simp)
      · obtain ⟨_, -, hret⟩ := bind_ok_inv he
        obtain rfl := Except.ok.inj hret
        exact fun _ => rfl
    · obtain rfl := Except.ok.inj he
      exact h
  | advance ready =>
    obtain rfl := Except.ok.inj he
    split
    · exact advance_running h
    · exact h
  | queueInLoop t task =>
    obtain rfl := Except.ok.inj he
    split <;> exact h
  | runInLoop t task =>
    obtain rfl := Except.ok.inj he
    split
    · split <;> exact h
    · exact h
  | quit t =>
    obtain rfl := Except.ok.inj he
    split <;> exact h
  | proceed t =>
    simp only [Sys.step] at he
    split at he
    · obtain rfl := Except.ok.inj he
      exact h
    · obtain rfl := Except.ok.inj he
      unfold Sys.proceed
      split <;> split <;> exact h

theorem Single.advance (h : Single s) {ready : List Ready} (he : s.advance ready = .ok s') :
    Single s' := by
  have hsame : Single { s with sys := s.sys.advance ready } := ⟨h.outer, advance_running h.running⟩
  unfold Nested.advance at he
  split at he
  · obtain rfl := Except.ok.inj he
    split
    · unfold leave
      rw [h.outer]
      exact ⟨rfl, fun hin => absurd hin (by simp [Phase.isOutside])⟩
    · exact hsame
  · obtain rfl := Except.ok.inj he
    refine ⟨?_, hsame.running⟩
    rw [h.outer]
    rfl
  · split at he
    · exact absurd he (by simp)
    · obtain rfl := Except.ok.inj he
      exact hsame
  · obtain rfl := Except.ok.inj he
    exact hsame

theorem step_single (h : Single s) (hno : NoReentry s l) (he : s.step l = .ok s') : Single s' := by
  cases l with
  | reenter =>
    simp only [step, hno rfl] at he
    obtain rfl := Except.ok.inj he
    exact h
  | base l =>
    cases l with
    | advance ready =>
      simp only [step] at he
      split at he
      · exact h.advance he
      · obtain rfl := Except.ok.inj he
        exact h
    | _ =>
      obtain ⟨sys, hsys, hret⟩ := bind_ok_inv he
      obtain rfl := Except.ok.inj hret
      exact ⟨h.outer, base_running h.running hsys⟩

/-! ## With them -/

theorem inside_of_calling (hcall : s.calling = true) : s.sys.phase.isOutside = false := by
  simp only [calling, Bool.and_eq_true, Bool.not_eq_true'] at hcall
  exact hcall.1

/-- The first nested call clears `is_running_` under the activation that made it. -/
theorem reenter_clears (h : OneActivation s) (hcall : s.calling = true) :
    s.step .reenter = .ok { s with sys := { s.sys with isRunning := false } } := by
  have hin := inside_of_calling hcall
  have hrun := (single_of_oneActivation h hin).running hin
  simp only [step, hcall, if_true, reenter, Sys.enter, hrun, ok_bind]
  rfl

theorem noReentry_of_oneActivation (h : OneActivation s) (he : s.step l = .ok s')
    (h' : OneActivation s') : NoReentry s l := by
  rintro rfl
  by_contra hcall
  rw [Bool.not_eq_false] at hcall
  rw [reenter_clears h hcall] at he
  obtain rfl := Except.ok.inj he
  have hin := inside_of_calling hcall
  exact absurd ((single_of_oneActivation h' hin).running hin) (by simp)

/-- A nested call that finds `is_running_` clear starts an activation. -/
theorem reenter_nests (hrun : s.sys.isRunning = false) (hcall : s.calling = true) :
    ∃ t, s.step .reenter = .ok t ∧ t.outer = ⟨s.sys.phase, s.cleared⟩ :: s.outer ∧
      t.sys.phase = .testing := by
  simp only [step, hcall, if_true, reenter, Sys.enter, hrun, Bool.false_eq_true, if_false,
    assertInLoopThread, isInLoopThread_self, ok_bind]
  exact ⟨_, rfl, rfl, rfl⟩

/-- **The second nested call starts a second activation**, whatever handler or task makes the two. -/
theorem second_call_nests (h : OneActivation s) (hcall : s.calling = true) :
    ∃ t, run step s [.reenter, .reenter] = .ok t ∧ t.activations = 2 ∧ t.sys.phase = .testing := by
  have houter := (single_of_oneActivation h (inside_of_calling hcall)).outer
  obtain ⟨t, ht, htouter, htphase⟩ :=
    reenter_nests (s := { s with sys := { s.sys with isRunning := false } }) rfl hcall
  refine ⟨t, (run_cons_ok (reenter_clears h hcall)).mpr ((run_cons_ok ht).mpr rfl), ?_, htphase⟩
  unfold activations
  rw [htphase, htouter, houter]
  rfl

/-- **One activation exactly without nested calls.** Every state of a run has at most one activation,
with `is_running_` set while it is there, if and only if no handler and no task of the run called
`loop()`. -/
theorem one_activation_iff {loop : LoopId} {labels : List (NestedLabel τ)} {t : Nested τ}
    (hrun : run step (start loop) labels = .ok t) :
    (∀ before after s, labels = before ++ after → run step (start loop) before = .ok s →
      OneActivation s) ↔ Along step NoReentry (start loop) labels := by
  have h₀ : Single (start loop : Nested τ) :=
    ⟨rfl, fun hin => absurd hin (by simp [start, Sys.start, Phase.isOutside])⟩
  constructor
  · intro hall
    exact along_of_prefixes (I := Single) step_single
      (fun hI hs h' => noReentry_of_oneActivation hI.oneActivation hs h') h₀ hrun hall
  · rintro halong before after s rfl hs
    have hbefore := ((along_append hs).mp halong).1
    exact (run_invariant (I := Single) step_single h₀ hbefore hs).oneActivation

/-- `loop()`, a turn with a ready channel and a task that its handler queued, and `quit()`. -/
def oneTurn : List (NestedLabel Nat) :=
  [.base (.loop (.loop 0)), .base (.advance []), .base (.advance [.other]), .base (.advance []),
    .base (.queueInLoop (.loop 0) 3), .base (.proceed (.loop 0)), .base (.advance []),
    .base (.advance []), .base (.advance []), .base (.quit (.loop 0)), .base (.proceed (.loop 0)),
    .base (.advance []), .base (.advance [])]

theorem one_activation_iff_oneTurn :
    ∃ t, run step (start 0) oneTurn = .ok t ∧ t.activations = 0 ∧
      ∀ before after s, oneTurn = before ++ after → run step (start 0) before = .ok s →
        OneActivation s := by
  obtain ⟨t, hrun, hdone⟩ :
      ∃ t, run step (start 0) oneTurn = .ok t ∧ t.activations = 0 := by decide +kernel
  have halong : Along step NoReentry (start 0) oneTurn := by decide +kernel
  exact ⟨t, hrun, hdone, (one_activation_iff hrun).mpr halong⟩

/-- A handler calls `loop()` twice: the first call clears `is_running_` while the loop runs, the
second polls inside the handler. -/
theorem one_activation_nested :
    (∃ t : Nested Nat, run step (start 0) [.base (.loop (.loop 0)), .base (.advance []),
        .base (.advance [.other]), .base (.advance []), .reenter] = .ok t ∧
      t.activations = 1 ∧ t.sys.isRunning = false ∧ ¬ OneActivation t) ∧
    ∃ t : Nested Nat, run step (start 0) [.base (.loop (.loop 0)), .base (.advance []),
        .base (.advance [.other]), .base (.advance []), .reenter, .reenter, .base (.advance [])] =
          .ok t ∧
      t.activations = 2 ∧ t.sys.phase = .polling ∧ ¬ OneActivation t := by
  decide +kernel

end Nested

end HyperMuduo.Net.EventLoop
