import Mathlib.Data.List.Induction
import HyperMuduo.Connector.Spec
import HyperMuduo.Connector.System

/-!
# When `stop` is final

`StopInForce log` says that a stop is in force at the end of the log: a `stop()` was called, its
`stopInLoop` has run, and neither `start()` nor `restart()` was called since. `StopIsFinal log` says
that no `Socket::connect` and no call of `new_connection_callback_` was made while one was.

`stop` clears `connect_`, and `retry` looks at the flag before it arms a timer. `startInLoop` does not
look at it: the closure of a timer armed before the stop, or of a `start()` still on the queue, opens a
socket after it. That is the only way:

* `step_inv`, `step_inv_final`: while no such closure runs, a stop in force finds the connector
  `Disconnected` with no socket left to become writable.
* **`stop_is_final_iff`**: a run keeps the stop final exactly when the loop runs no closure of
  `startInLoop` while a stop is in force.
-/

namespace HyperMuduo.Net.Connector

open HyperMuduo.Lib

/-! ## A stop in force -/

/-- A call after which a stop is no longer in force. -/
def Entry.starts : Entry → Bool
  | .called .start _ | .called .restart _ => true
  | _ => false

/-- An attempt to connect begins, or a connection is handed over. -/
def Entry.opens : Entry → Bool
  | .effect (.connect _) | .effect (.newConnectionCallback _) => true
  | _ => false

/-- The `n`-th call is a `stop()`, and none has started the connector since. -/
def StopIssued (n : Nat) (log : List Entry) : Prop :=
  ∃ before after, log = before ++ .called .stop n :: after ∧ ∀ e ∈ after, e.starts = false

/-- A `stop()` has run its `stopInLoop`, and no call has started the connector since the `stop()`. -/
def StopInForce (log : List Entry) : Prop :=
  ∃ n before after, log = before ++ .ran .stopInLoop n :: after ∧ StopIssued n before ∧
    ∀ e ∈ after, e.starts = false

/-- While a stop is in force no attempt begins and no connection is handed over. -/
def StopIsFinal (log : List Entry) : Prop :=
  Justified (fun before e => e.opens = true → ¬ StopInForce before) log

theorem stopInForce_nil : ¬ StopInForce [] := by
  rintro ⟨n, before, after, h, -, -⟩
  exact absurd h (by simp)

/-- A stop stays in force. -/
theorem StopInForce.append {log new : List Entry} (h : StopInForce log)
    (hnew : ∀ e ∈ new, e.starts = false) : StopInForce (log ++ new) := by
  obtain ⟨n, before, after, rfl, hissued, hafter⟩ := h
  refine ⟨n, before, after ++ new, by simp, hissued, ?_⟩
  intro e he
  rcases List.mem_append.mp he with h | h
  · exact hafter e h
  · exact hnew e h

/-- What the last entry did to a stop in force: it did not start the connector, and put the stop in
force only if it is a `stopInLoop`. -/
theorem stopInForce_concat {log : List Entry} {e : Entry} (h : StopInForce (log ++ [e])) :
    e.starts = false ∧ (StopInForce log ∨ ∃ n, e = .ran .stopInLoop n) := by
  obtain ⟨n, before, after, heq, hissued, hafter⟩ := h
  rcases List.eq_nil_or_concat after with rfl | ⟨after', e', rfl⟩
  · obtain ⟨-, rfl⟩ := List.append_inj' heq rfl |>.imp id List.singleton_inj.mp
    exact ⟨rfl, Or.inr ⟨n, rfl⟩⟩
  · have heq' : log ++ [e] = (before ++ .ran .stopInLoop n :: after') ++ [e'] := by
      rw [heq]; simp
    obtain ⟨rfl, h1⟩ := List.append_inj' heq' rfl
    obtain rfl := List.singleton_inj.mp h1
    refine ⟨hafter e (by simp), Or.inl ⟨n, before, after', rfl, hissued, ?_⟩⟩
    intro x hx
    exact hafter x (by simp [hx])

/-- Effects do not put a stop in force. -/
theorem stopInForce_of_effects {log : List Entry} {es : List Effect}
    (h : StopInForce (log ++ es.map .effect)) : StopInForce log := by
  induction es using List.reverseRecOn with
  | nil => simpa using h
  | append_singleton es e ih =>
    rw [List.map_append, ← List.append_assoc] at h
    rcases (stopInForce_concat h).2 with h' | ⟨n, hn⟩
    · exact ih h'
    · exact absurd hn (by simp)

theorem starts_of_effects (es : List Effect) : ∀ e ∈ es.map Entry.effect, e.starts = false := by
  intro e he
  obtain ⟨x, -, rfl⟩ := List.mem_map.mp he
  rfl

/-- The log of a call that opens nothing, or of any call when no stop is in force. -/
theorem StopIsFinal.effects {log : List Entry} {es : List Effect} (h : StopIsFinal log)
    (hes : StopInForce log → ∀ e ∈ es, (Entry.effect e).opens = false) :
    StopIsFinal (log ++ es.map .effect) := by
  refine Justified.append h ?_
  intro before e after heq hopens hforce
  obtain ⟨xs, ys, rfl, rfl, hys⟩ := List.map_eq_append_iff.mp heq
  obtain ⟨y, ys', rfl, rfl, -⟩ := List.map_eq_cons_iff.mp hys
  have hq := hes (stopInForce_of_effects hforce) y (by simp)
  rw [hq] at hopens
  exact absurd hopens (by simp)

theorem StopIsFinal.concat {log : List Entry} {e : Entry} (h : StopIsFinal log)
    (he : e.opens = false) : StopIsFinal (log ++ [e]) := by
  refine Justified.append h ?_
  intro before x after heq hopens
  obtain ⟨rfl, rfl, rfl⟩ : before = [] ∧ x = e ∧ after = [] := by
    cases before with
    | nil => simpa [eq_comm] using heq
    | cons b bs => simp at heq
  rw [he] at hopens
  exact absurd hopens (by simp)

/-- An attempt while a stop is in force. -/
theorem StopInForce.not_final {log : List Entry} {es : List Effect} {fd : Int}
    (h : StopInForce log) (hmem : Effect.connect fd ∈ es) :
    ¬ StopIsFinal (log ++ es.map .effect) := by
  intro hfinal
  obtain ⟨xs, ys, rfl⟩ := List.append_of_mem hmem
  refine hfinal (log ++ xs.map .effect) (.effect (.connect fd)) (ys.map .effect) (by simp) rfl ?_
  exact h.append (starts_of_effects xs)

/-! ## What the member functions do -/

/-- No attempt begins, and no connection is handed over. -/
def Quiet (es : List Effect) : Prop := ∀ e ∈ es, (Entry.effect e).opens = false

theorem Quiet.append {es es' : List Effect} (h : Quiet es) (h' : Quiet es') : Quiet (es ++ es') := by
  intro e he
  rcases List.mem_append.mp he with hmem | hmem
  · exact h e hmem
  · exact h' e hmem

theorem destroySocket_quiet (socket : Option Int) : Quiet (destroySocket socket) := by
  unfold Quiet destroySocket
  split
  · simp
  · split <;> simp [Entry.opens]

theorem removal_quiet (channel : Option (Nat × Channel Handler)) : Quiet (removal channel) := by
  cases channel <;> simp [Quiet, removal, Entry.opens]

section Functions

variable {c c' : Connector} {t : ThreadId} {k : Kernel} {es : List Effect}

theorem stopInLoop_ok (h : c.stopInLoop t = .ok (c', es)) :
    c'.loop = c.loop ∧ c'.state = .disconnected ∧
      (c'.socket.isSome → c.socket.isSome ∧ c.state ≠ .connecting) ∧ Quiet es := by
  obtain ⟨-, rfl, rfl⟩ | ⟨hstate, rfl, rfl⟩ := stopInLoop_inv h
  · refine ⟨rfl, rfl, ?_, (removal_quiet _).append (destroySocket_quiet _)⟩
    intro hsome
    exact absurd hsome (by simp)
  · exact ⟨rfl, rfl, fun hsome => ⟨hsome, hstate⟩, by simp [Quiet]⟩

theorem startInLoop_ok (h : c.startInLoop t k = .ok (c', es)) :
    c'.loop = c.loop ∧ (c'.socket.isSome → c'.state = .connecting) ∧
      ∃ fd, Effect.connect fd ∈ es := by
  obtain ⟨-, -, hattempted⟩ := startInLoop_inv h
  cases hattempted with
  | inProgress => exact ⟨rfl, fun _ => rfl, k.socket, by simp⟩
  -- `retry`, and the error that gives up, leave no socket
  | retried | gaveUp => exact ⟨rfl, fun hsome => absurd hsome (by simp), k.socket, by simp⟩

/-- The callback is called only on a socket, and only then is one left behind. -/
theorem handleWritable_ok {err : Int} (h : c.handleWritable t err = .ok (c', es)) :
    c.socket.isSome ∧ c'.loop = c.loop ∧
      (c'.socket.isSome → es.any Effect.isNewConnectionCallback = true) := by
  obtain ⟨fd, hsocket, ⟨-, hsettled⟩ | ⟨-, -, rfl, rfl⟩⟩ := handleWritable_inv h
  · refine ⟨by rw [hsocket]; rfl, ?_⟩
    cases hsettled with
    | failed | ignored => exact ⟨rfl, fun hsome => absurd hsome (by simp)⟩
  · exact ⟨by rw [hsocket]; rfl, rfl, fun _ => by simp [Effect.isNewConnectionCallback]⟩

end Functions

/-! ## The invariant -/

namespace Sys

/-- The loop thread is about to run `startInLoop`, in a call of `start` or `restart`. -/
def Starting (s : Sys) : Prop := ∃ n, s.pending s.loopThread = some ⟨.startInLoop, n⟩

/-- What holds while no stale closure runs. -/
structure Inv (s : Sys) : Prop where
  /-- A socket is there for an attempt, during the callback, or for `restart` to replace. -/
  socket : s.connector.socket.isSome → s.connector.state = .connecting ∨ s.inCallback = true ∨ s.Starting
  stopped : StopInForce s.log → s.connector.state = .disconnected
  starting : s.Starting → ¬ StopInForce s.log
  final : StopIsFinal s.log

theorem start_inv (loop : LoopId) (cb : Bool) : (Sys.start loop cb).Inv where
  socket h := absurd h (by simp [Sys.start, construct])
  stopped h := absurd h stopInForce_nil
  starting h := by
    obtain ⟨n, hn⟩ := h
    exact absurd hn (by simp [Sys.start])
  final := justified_nil _

/-- The loop would run `startInLoop` for a retry timer, or for a `start()` made on another thread. -/
def runsStale (s : Sys) : Label → Bool
  | .loop _ _ =>
    s.loopFree &&
      match s.phase with
      | .expiring (_ + 1) _ => true
      | .executing (cl :: _) => cl.task = .startInLoop
      | _ => false
  | _ => false

/-- The step runs no such closure while a stop is in force. -/
def SparesStop (s : Sys) (l : Label) : Prop := StopInForce s.log → s.runsStale l = false

variable {s s' : Sys} {t : ThreadId} {k : Kernel}

theorem invoke_ok {r : Result} (h : s.invoke r = .ok s') :
    ∃ c es, r = .ok (c, es) ∧ s' = s.absorb c es := by
  obtain ⟨⟨c, es⟩, hr, h⟩ := bind_ok_inv h
  exact ⟨c, es, hr, (Except.ok.inj h).symm⟩

theorem loopFree_iff : s.loopFree = true ↔ s.inCallback = false ∧ s.pending s.loopThread = none := by
  simp [loopFree]

theorem not_starting_of_none (h : s.pending s.loopThread = none) : ¬ s.Starting := by
  rintro ⟨n, hn⟩
  rw [h] at hn
  exact absurd hn (by simp)

/-! ### The closures -/

/-- `startInLoop`, where no stop is in force. -/
theorem startInLoop_inv (hfinal : StopIsFinal s.log) (hforce : ¬ StopInForce s.log)
    (hpending : s.pending s.loopThread = none)
    (h : s.invoke (s.connector.startInLoop t k) = .ok s') : s'.Inv := by
  obtain ⟨c', es, hr, rfl⟩ := invoke_ok h
  obtain ⟨hloop, hsocket, -⟩ := startInLoop_ok hr
  have hforce' : ¬ StopInForce (s.absorb c' es).log := fun hf => hforce (stopInForce_of_effects hf)
  have hidle : ¬ (s.absorb c' es).Starting := by
    refine not_starting_of_none ?_
    change s.pending (.loop c'.loop) = none
    rw [hloop]
    exact hpending
  exact
    { socket := fun hsome => Or.inl (hsocket hsome)
      stopped := fun hf => absurd hf hforce'
      starting := fun hs => absurd hs hidle
      final := hfinal.effects fun hf => absurd hf hforce }

/-- `stopInLoop` leaves the connector `Disconnected`. -/
theorem stopInLoop_inv (hfinal : StopIsFinal s.log)
    (hsocket : s.connector.socket.isSome → s.connector.state = .connecting ∨ s.inCallback = true)
    (hpending : s.pending s.loopThread = none)
    (h : s.invoke (s.connector.stopInLoop t) = .ok s') : s'.Inv := by
  obtain ⟨c', es, hr, rfl⟩ := invoke_ok h
  obtain ⟨hloop, hstate, hsome, hquiet⟩ := stopInLoop_ok hr
  have hidle : ¬ (s.absorb c' es).Starting := by
    refine not_starting_of_none ?_
    change s.pending (.loop c'.loop) = none
    rw [hloop]
    exact hpending
  refine
    { socket := ?_
      stopped := fun _ => hstate
      starting := fun hs => absurd hs hidle
      final := hfinal.effects fun _ => hquiet }
  intro h1
  obtain ⟨h2, h3⟩ := hsome h1
  rcases hsocket h2 with h4 | h4
  · exact absurd h4 h3
  · refine Or.inr (Or.inl ?_)
    simp [absorb, h4]

/-- A closure run on the loop thread. -/
theorem execute_inv {cl : Closure} (hfinal : StopIsFinal s.log)
    (hpending : s.pending s.loopThread = none)
    (hstart : cl.task = .startInLoop → ¬ StopInForce s.log)
    (hstop : cl.task = .stopInLoop → s.connector.socket.isSome →
      s.connector.state = .connecting ∨ s.inCallback = true)
    (h : s.execute t k cl = .ok s') : s'.Inv := by
  obtain ⟨task, n⟩ := cl
  have hfinal' : StopIsFinal (s.record (.ran task n)).log := hfinal.concat rfl
  cases task with
  | startInLoop =>
    refine startInLoop_inv hfinal' ?_ hpending h
    intro hforce
    rcases (stopInForce_concat hforce).2 with hf | ⟨m, hm⟩
    · exact hstart rfl hf
    · exact absurd hm (by simp)
  | stopInLoop => exact stopInLoop_inv hfinal' (hstop rfl) hpending h

/-! ### The steps -/

theorem starting_update_ne (hne : s.loopThread ≠ t) (o : Option Closure) :
    { s with pending := Function.update s.pending t o }.Starting ↔ s.Starting := by
  unfold Starting
  change (∃ n, Function.update s.pending t o s.loopThread = some ⟨.startInLoop, n⟩) ↔ _
  rw [Function.update_of_ne hne]

/-- No stop is in force right after `start` or `restart` was called. -/
theorem not_stopInForce_of_starts {log : List Entry} {e : Entry} (he : e.starts = true) :
    ¬ StopInForce (log ++ [e]) := by
  intro h
  rw [(stopInForce_concat h).1] at he
  exact absurd he (by simp)

theorem enter_inv {call : Call} (hI : s.Inv) (hnone : s.pending t = none)
    (h : s.enter t call = .ok s') : s'.Inv := by
  -- the thread that calls is not the loop thread in the middle of a call
  have hne : s.Starting → s.loopThread ≠ t := by
    rintro ⟨n, hn⟩ rfl
    rw [hnone] at hn
    exact absurd hn (by simp)
  have hsocket : ∀ o, s.connector.socket.isSome → s.connector.state = .connecting ∨
      s.inCallback = true ∨ { s with pending := Function.update s.pending t o }.Starting := by
    intro o hsome
    rcases hI.socket hsome with h1 | h1 | h1
    · exact Or.inl h1
    · exact Or.inr (Or.inl h1)
    · exact Or.inr (Or.inr ((starting_update_ne (hne h1) o).mpr h1))
  cases call with
  | start =>
    obtain rfl := Except.ok.inj h
    have hforce : ¬ StopInForce (s.log ++ [Entry.called .start s.calls]) :=
      not_stopInForce_of_starts rfl
    exact
      { socket := hsocket _
        stopped := fun hf => absurd hf hforce
        starting := fun _ => hforce
        final := hI.final.concat rfl }
  | stop =>
    obtain rfl := Except.ok.inj h
    have hforce : StopInForce (s.log ++ [Entry.called .stop s.calls]) → StopInForce s.log := by
      intro hf
      rcases (stopInForce_concat hf).2 with h1 | ⟨n, hn⟩
      · exact h1
      · exact absurd hn (by simp)
    refine
      { socket := hsocket _
        stopped := fun hf => hI.stopped (hforce hf)
        starting := ?_
        final := hI.final.concat rfl }
    intro hs hf
    by_cases ht : s.loopThread = t
    · obtain ⟨n, hn⟩ := hs
      change Function.update s.pending t _ s.loopThread = _ at hn
      rw [ht, Function.update_self] at hn
      exact absurd hn (by simp)
    · exact hI.starting ((starting_update_ne ht _).mp hs) (hforce hf)
  | restart =>
    obtain ⟨⟨c, task⟩, hr, h⟩ := bind_ok_inv h
    obtain rfl := Except.ok.inj h
    obtain ⟨_, hthread, hr⟩ := bind_ok_inv hr
    obtain ⟨rfl, rfl⟩ := Prod.mk.inj (Except.ok.inj hr)
    have hforce : ¬ StopInForce (s.log ++ [Entry.called .restart s.calls]) :=
      not_stopInForce_of_starts rfl
    have ht : t = s.loopThread := by
      unfold assertInLoopThread isInLoopThread at hthread
      split at hthread
      · rename_i heq
        exact of_decide_eq_true heq
      · exact absurd hthread (by simp)
    refine
      { socket := fun _ => Or.inr (Or.inr ⟨s.calls, ?_⟩)
        stopped := fun hf => absurd hf hforce
        starting := fun _ => hforce
        final := hI.final.concat rfl }
    subst ht
    exact Function.update_self ..

theorem proceed_inv {cl : Closure} (hI : s.Inv) (hcl : s.pending t = some cl)
    (h : { s with pending := Function.update s.pending t none }.runInLoop t k cl = .ok s') :
    s'.Inv := by
  unfold runInLoop at h
  split at h
  · -- the rest of the call runs here
    rename_i hloop
    have ht : t = s.loopThread := of_decide_eq_true hloop
    subst ht
    refine execute_inv (s := { s with pending := Function.update s.pending s.loopThread none })
      hI.final (Function.update_self ..) ?_ ?_ h
    · intro htask
      refine hI.starting ⟨cl.call, ?_⟩
      rw [hcl, ← htask]
    · intro htask hsome
      rcases hI.socket hsome with h1 | h1 | ⟨n, hn⟩
      · exact Or.inl h1
      · exact Or.inr h1
      · rw [hcl] at hn
        obtain rfl := Option.some.inj hn
        exact absurd htask (by simp)
  · rename_i hloop
    obtain rfl := Except.ok.inj h
    have hne : s.loopThread ≠ t := by
      intro heq
      exact hloop (decide_eq_true heq.symm)
    have hiff := starting_update_ne hne none
    refine
      { socket := ?_
        stopped := hI.stopped
        starting := fun hs => hI.starting (hiff.mp hs)
        final := hI.final }
    intro hsome
    rcases hI.socket hsome with h1 | h1 | h1
    · exact Or.inl h1
    · exact Or.inr (Or.inl h1)
    · exact Or.inr (Or.inr (hiff.mpr h1))

/-- A writable socket is one of an attempt, so no stop is in force. -/
theorem handleEvent_inv {id : Nat} {revents : PollEvents} (hI : s.Inv) (hfree : s.loopFree = true)
    (h : s.handleEvent k id revents = .ok s') : s'.Inv := by
  obtain ⟨hcallback, hpending⟩ := loopFree_iff.mp hfree
  unfold handleEvent at h
  split at h
  · exact absurd h (by simp)
  · split at h
    · dsimp only at h
      split at h
      · obtain rfl := Except.ok.inj h
        exact ⟨hI.socket, hI.stopped, hI.starting, hI.final⟩
      · obtain ⟨c', es, hr, rfl⟩ := invoke_ok h
        obtain ⟨hsome, hloop, hcb⟩ := handleWritable_ok hr
        have hforce : ¬ StopInForce s.log := by
          intro hf
          rcases hI.socket hsome with h1 | h1 | h1
          · rw [hI.stopped hf] at h1
            exact absurd h1 (by simp)
          · rw [hcallback] at h1
            exact absurd h1 (by simp)
          · exact not_starting_of_none hpending h1
        have hforce' : ¬ StopInForce (s.absorb c' es).log :=
          fun hf => hforce (stopInForce_of_effects hf)
        refine
          { socket := ?_
            stopped := fun hf => absurd hf hforce'
            starting := fun _ => hforce'
            final := hI.final.effects fun hf => absurd hf hforce }
        intro hsome'
        refine Or.inr (Or.inl ?_)
        simp [absorb, hcb hsome']
    · exact absurd h (by simp)

theorem loopStep_inv {reported : List Ready} (hI : s.Inv) (hfree : s.loopFree = true)
    (hspares : s.SparesStop (.loop reported k)) (h : s.loopStep reported k = .ok s') : s'.Inv := by
  obtain ⟨hcallback, hpending⟩ := loopFree_iff.mp hfree
  unfold loopStep at h
  split at h
  · obtain rfl := Except.ok.inj h
    exact ⟨hI.socket, hI.stopped, hI.starting, hI.final⟩
  · rename_i id revents xs hphase
    exact handleEvent_inv (s := { s with phase := .handling xs })
      ⟨hI.socket, hI.stopped, hI.starting, hI.final⟩ hfree h
  · obtain rfl := Except.ok.inj h
    exact ⟨hI.socket, hI.stopped, hI.starting, hI.final⟩
  · obtain rfl := Except.ok.inj h
    exact ⟨hI.socket, hI.stopped, hI.starting, hI.final⟩
  · -- a retry timer
    rename_i n xs hphase
    refine startInLoop_inv (s := { s with phase := .expiring n xs }) hI.final ?_ hpending h
    intro hforce
    have hstale := hspares hforce
    simp [runsStale, hfree, hphase] at hstale
  · obtain rfl := Except.ok.inj h
    exact ⟨hI.socket, hI.stopped, hI.starting, hI.final⟩
  · rename_i cl cls hphase
    refine execute_inv (s := { s with phase := .executing cls }) hI.final hpending ?_ ?_ h
    · intro htask hforce
      have hstale := hspares hforce
      simp [runsStale, hfree, hphase, htask] at hstale
    · intro _ hsome
      rcases hI.socket hsome with h1 | h1 | h1
      · exact Or.inl h1
      · exact Or.inr h1
      · exact absurd h1 (not_starting_of_none hpending)
  · obtain rfl := Except.ok.inj h
    exact ⟨hI.socket, hI.stopped, hI.starting, hI.final⟩

/-- **One step.** A step that runs no stale closure while a stop is in force keeps the stop final. -/
theorem step_inv {l : Label} (hI : s.Inv) (hspares : s.SparesStop l) (h : s.step l = .ok s') :
    s'.Inv := by
  cases l with
  | call t call =>
    simp only [step] at h
    split at h
    · obtain rfl := Except.ok.inj h
      exact hI
    · rename_i hnone
      exact enter_inv hI hnone h
  | proceed t k =>
    simp only [step] at h
    split at h
    · obtain rfl := Except.ok.inj h
      exact hI
    · rename_i cl hcl
      exact proceed_inv hI hcl h
  | loop reported k =>
    simp only [step] at h
    split at h
    · rename_i hfree
      exact loopStep_inv hI hfree hspares h
    · obtain rfl := Except.ok.inj h
      exact hI
  | callbackReturns =>
    simp only [step] at h
    split at h
    · rename_i hret
      obtain rfl := Except.ok.inj h
      have hpending : s.pending s.loopThread = none := by
        simpa using (Bool.and_eq_true_iff.mp hret).2
      exact
        { socket := fun hsome => absurd hsome (by simp [absorb, afterNewConnection, resetSocket])
          stopped := fun hf => hI.stopped (stopInForce_of_effects hf)
          starting := fun hs => absurd hs (not_starting_of_none hpending)
          final := hI.final.effects fun _ => destroySocket_quiet _ }
    · obtain rfl := Except.ok.inj h
      exact hI
  | elapse ms =>
    obtain rfl := Except.ok.inj h
    exact ⟨hI.socket, hI.stopped, hI.starting, hI.final⟩

/-! ## The other direction -/

/-- `startInLoop` calls `Socket::connect`, whatever `connect_` says. -/
theorem startInLoop_not_final (hforce : StopInForce s.log)
    (h : s.invoke (s.connector.startInLoop t k) = .ok s') : ¬ StopIsFinal s'.log := by
  obtain ⟨c', es, hr, rfl⟩ := invoke_ok h
  obtain ⟨-, -, fd, hmem⟩ := startInLoop_ok hr
  exact hforce.not_final hmem

/-- A step that runs a stale closure while a stop is in force makes the stop not final. -/
theorem sparesStop_of_final {l : Label} (h : s.step l = .ok s') (hfinal : StopIsFinal s'.log) :
    s.SparesStop l := by
  intro hforce
  cases l with
  | loop reported k =>
    by_cases hfree : s.loopFree = true
    · simp only [step, hfree, if_true] at h
      simp only [runsStale, hfree, Bool.true_and]
      unfold loopStep at h
      split at h
      case h_5 n xs hphase =>
        exact absurd hfinal
          (startInLoop_not_final (s := { s with phase := .expiring n xs }) hforce h)
      case h_7 cl cls hphase =>
        obtain ⟨task, m⟩ := cl
        cases task with
        | stopInLoop => simp [hphase]
        | startInLoop =>
          have hforce' : StopInForce (s.log ++ [Entry.ran .startInLoop m]) :=
            hforce.append (by simp [Entry.starts])
          unfold execute at h
          exact absurd hfinal (startInLoop_not_final
            (s := { s with phase := .executing cls }.record (.ran .startInLoop m)) hforce' h)
      -- no closure runs in the other phases
      all_goals
        rename_i hphase
        simp [hphase]
    · simp [runsStale, hfree]
  | call t call => rfl
  | proceed t k => rfl
  | callbackReturns => rfl
  | elapse ms => rfl

/-- The log only grows. -/
theorem invoke_log {r : Result} (h : s.invoke r = .ok s') : ∃ new, s'.log = s.log ++ new := by
  obtain ⟨c, es, -, rfl⟩ := invoke_ok h
  exact ⟨_, rfl⟩

theorem execute_log {cl : Closure} (h : s.execute t k cl = .ok s') :
    ∃ new, s'.log = s.log ++ new := by
  obtain ⟨new, hnew⟩ := invoke_log h
  exact ⟨.ran cl.task cl.call :: new, by rw [hnew]; simp [record]⟩

theorem handleEvent_log {id : Nat} {revents : PollEvents} (h : s.handleEvent k id revents = .ok s') :
    ∃ new, s'.log = s.log ++ new := by
  unfold handleEvent at h
  split at h
  · exact absurd h (by simp)
  · split at h
    · dsimp only at h
      split at h
      · obtain rfl := Except.ok.inj h
        exact ⟨[], by simp⟩
      · exact invoke_log h
    · exact absurd h (by simp)

theorem loopStep_log {reported : List Ready} (h : s.loopStep reported k = .ok s') :
    ∃ new, s'.log = s.log ++ new := by
  unfold loopStep at h
  split at h
  case h_2 =>
    obtain ⟨new, hnew⟩ := handleEvent_log h
    exact ⟨new, hnew⟩
  case h_5 =>
    obtain ⟨new, hnew⟩ := invoke_log h
    exact ⟨new, hnew⟩
  case h_7 =>
    obtain ⟨new, hnew⟩ := execute_log h
    exact ⟨new, hnew⟩
  all_goals
    obtain rfl := Except.ok.inj h
    exact ⟨[], by simp [expireTimers]⟩

theorem enter_log {call : Call} (h : s.enter t call = .ok s') : ∃ new, s'.log = s.log ++ new := by
  cases call with
  | start | stop =>
    obtain rfl := Except.ok.inj h
    exact ⟨_, rfl⟩
  | restart =>
    obtain ⟨⟨c, task⟩, -, h⟩ := bind_ok_inv h
    obtain rfl := Except.ok.inj h
    exact ⟨_, rfl⟩

theorem runInLoop_log {cl : Closure} (h : s.runInLoop t k cl = .ok s') :
    ∃ new, s'.log = s.log ++ new := by
  unfold runInLoop at h
  split at h
  · exact execute_log h
  · obtain rfl := Except.ok.inj h
    exact ⟨[], by simp⟩

theorem step_log {l : Label} (h : s.step l = .ok s') : ∃ new, s'.log = s.log ++ new := by
  cases l with
  | call t call =>
    simp only [step] at h
    split at h
    · obtain rfl := Except.ok.inj h
      exact ⟨[], by simp⟩
    · exact enter_log h
  | proceed t k =>
    simp only [step] at h
    split at h
    · obtain rfl := Except.ok.inj h
      exact ⟨[], by simp⟩
    · obtain ⟨new, hnew⟩ := runInLoop_log h
      exact ⟨new, hnew⟩
  | loop reported k =>
    simp only [step] at h
    split at h
    · exact loopStep_log h
    · obtain rfl := Except.ok.inj h
      exact ⟨[], by simp⟩
  | callbackReturns =>
    simp only [step] at h
    split at h
    · obtain rfl := Except.ok.inj h
      exact ⟨_, rfl⟩
    · obtain rfl := Except.ok.inj h
      exact ⟨[], by simp⟩
  | elapse ms =>
    obtain rfl := Except.ok.inj h
    exact ⟨[], by simp⟩

/-- **`stop` is final exactly when the loop runs no stale closure.** In every run of a connector, under
every interleaving of calls, connect results, writable events and timers: no attempt begins and
`new_connection_callback_` is not called while a stop is in force, if and only if no retry timer and no
queued `startInLoop` runs while one is. -/
theorem stop_is_final_iff {loop : LoopId} {cb : Bool} {ls : List Label} {s : Sys}
    (h : run step (Sys.start loop cb) ls = .ok s) :
    StopIsFinal s.log ↔ Along step SparesStop (Sys.start loop cb) ls := by
  constructor
  · intro hfinal
    refine (along_of_final (J := fun s => StopIsFinal s.log) ?_ h hfinal).2
    intro s s' l hstep hfinal'
    obtain ⟨new, hnew⟩ := step_log hstep
    have hgrown : StopIsFinal (s.log ++ new) := by
      rw [← hnew]
      exact hfinal'
    exact ⟨Justified.of_append hgrown, sparesStop_of_final hstep hfinal'⟩
  · intro hspares
    exact (run_invariant step_inv (start_inv loop cb) hspares h).final

/-- The kernel has descriptor `7` for a socket, and refuses the connection. -/
def refused : Kernel := ⟨7, .econnrefused, 0⟩

/-- An attempt in progress on descriptor `7`, stopped from another thread. -/
def stoppedAttempt : List Label :=
  [.call (.loop 0) .start, .proceed (.loop 0) ⟨7, .einprogress, 0⟩,
    .call (.user 1) .stop, .proceed (.user 1) refused,
    .loop [] refused, .loop [] refused, .loop [] refused]

theorem stop_is_final_iff_stoppedAttempt :
    ∃ s, run step (Sys.start 0 true) stoppedAttempt = .ok s ∧ s.connector.state = .disconnected ∧
      Along step SparesStop (Sys.start 0 true) stoppedAttempt ∧ StopIsFinal s.log := by
  have hrun : ∃ s, run step (Sys.start 0 true) stoppedAttempt = .ok s ∧
      s.connector.state = .disconnected := by decide +kernel
  have hspares : Along step SparesStop (Sys.start 0 true) stoppedAttempt := by
    have hnone : Along step (fun s l => s.runsStale l = false) (Sys.start 0 true) stoppedAttempt := by
      decide +kernel
    refine hnone.mono ?_
    intro s l h _
    exact h
  obtain ⟨s, hs, hstate⟩ := hrun
  exact ⟨s, hs, hstate, hspares, (stop_is_final_iff hs).mpr hspares⟩

/-- The connection is refused, the retry timer is armed, `stop` is called and runs, and a second later
the timer expires. -/
def stoppedRetry : List Label :=
  [.call (.loop 0) .start, .proceed (.loop 0) refused,
    .call (.loop 0) .stop, .proceed (.loop 0) refused,
    .elapse 1000, .loop [.timerfd] refused, .loop [] refused, .loop [] refused]

theorem stop_is_not_final :
    ∃ s, run step (Sys.start 0 true) stoppedRetry = .ok s ∧ ¬ StopIsFinal s.log := by
  have hrun : ∃ s, run step (Sys.start 0 true) stoppedRetry = .ok s ∧
      s.log = [.called .start 0, .ran .startInLoop 0, .effect (.openSocket 7), .effect (.connect 7),
        .effect (.closeSocket 7), .effect (.runAfter 1000), .called .stop 1, .ran .stopInLoop 1] ++
        [Effect.openSocket 7, .connect 7, .closeSocket 7].map Entry.effect := by
    decide +kernel
  obtain ⟨s, hs, hlog⟩ := hrun
  refine ⟨s, hs, ?_⟩
  rw [hlog]
  have hissued : StopIssued 1 [.called .start 0, .ran .startInLoop 0, .effect (.openSocket 7),
      .effect (.connect 7), .effect (.closeSocket 7), .effect (.runAfter 1000), .called .stop 1] :=
    ⟨[.called .start 0, .ran .startInLoop 0, .effect (.openSocket 7), .effect (.connect 7),
      .effect (.closeSocket 7), .effect (.runAfter 1000)], [], rfl, by simp⟩
  have hforce : StopInForce [.called .start 0, .ran .startInLoop 0, .effect (.openSocket 7),
      .effect (.connect 7), .effect (.closeSocket 7), .effect (.runAfter 1000), .called .stop 1,
      .ran .stopInLoop 1] := ⟨1, _, [], rfl, hissued, by simp⟩
  have hconnect : Effect.connect 7 ∈ [Effect.openSocket 7, .connect 7, .closeSocket 7] := by simp
  exact hforce.not_final hconnect

end Sys

end HyperMuduo.Net.Connector
