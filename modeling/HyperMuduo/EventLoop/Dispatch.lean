import HyperMuduo.Connector.Model
import HyperMuduo.Lib.Run

/-!
# Dispatching to the ready channels

Model of the body of `EventLoop::loop` with the `Channel` objects in memory and `Epoller`. The loop
copies the ready channels into `ready_channels_` and calls `handleEvent` on one after the other, while
the callbacks, on the same thread, construct, update, remove and destroy channels as they like.

* `ρ` is what a `Channel*` refers to and `κ` what a callback slot holds. What a callback does is steps
  of its own; a callback that ends in `Connector::stop`, in `~TcpClient` or in `connectionDestroyed` is
  the sequence of calls these make (`ofConnector` for the first).
* `handleEvent` makes its three tests one after the other and reads the channel at each of them.
  Reading a channel that was destroyed follows a dangling pointer.
* `removed` and `handled` are ghosts: the channels taken out of the poller since the last `poll`, and
  for every call of `handleEvent` whether its channel was among them.

Nothing takes a removed channel off `ready_channels_`; `Channel::handleEventWithGuard` could have
found out that the owner is gone and is called by nobody. **`dispatched_registered`**: `handleEvent`
runs on no removed channel in any run in which no call of `removeChannel` takes out a channel that is
ready and not handled yet. `removed_is_dispatched`: after such a call the loop gets there.
-/

namespace HyperMuduo.Net.Dispatch

open HyperMuduo.Lib

/-- What `handleEvent` tests next. -/
inductive Test where
  | error
  | read
  | write
  | done
  deriving DecidableEq, Repr

/-- Where the thread of the loop is. -/
inductive Phase (ρ : Type) where
  | outside
  | polling
  /-- Between two channels of `ready_channels_`. -/
  | dispatching (ready : List ρ)
  /-- In `handleEvent` of `c`, in the callback called last. -/
  | handling (c : ρ) (next : Test) (ready : List ρ)
  /-- In `executePendingTasks`. -/
  | executing
  deriving DecidableEq, Repr

/-- The channels `handleEvent` is still to be called on. -/
def Phase.ready {ρ : Type} : Phase ρ → List ρ
  | .dispatching ready | .handling _ _ ready => ready
  | _ => []

/-- User code can run: outside `loop()`, in a callback, in a task. -/
def Phase.user {ρ : Type} : Phase ρ → Bool
  | .handling _ next _ => next ≠ .error
  | .outside | .executing => true
  | _ => false

structure Sys (ρ κ : Type) where
  poller : Epoller ρ
  /-- The channels that exist. -/
  objs : ρ → Option (Channel κ)
  quit : Bool
  phase : Phase ρ
  /-- The callbacks called, in order. -/
  called : List (ρ × κ)
  removed : List ρ
  handled : List (ρ × Bool)

inductive Label (ρ κ : Type) where
  /-- `loop()` is called. -/
  | loop
  /-- The next step of `loop()`; `reports` is what `epoll_wait` answers. -/
  | advance (reports : List (Int × EpollEvents))
  | quit
  /-- `Channel(loop, fd)` and its callbacks. -/
  | construct (c : ρ) (fd : Int) (read write error : Option κ)
  /-- The channel's interest becomes `events`, and `notifyLoop` passes it on. -/
  | updateChannel (c : ρ) (events : PollEvents)
  | removeChannel (c : ρ)
  /-- `~Channel`. -/
  | destroy (c : ρ)
  deriving DecidableEq, Repr

namespace Sys

variable {ρ κ : Type} [DecidableEq ρ]

/-- A constructed loop. -/
def init : Sys ρ κ where
  poller := .empty
  objs := fun _ => none
  quit := true
  phase := .outside
  called := []
  removed := []
  handled := []

/-! ## `loop` -/

/-- What `epoll_wait` stores: a descriptor of the epoll set at most once, with what it was asked for,
errors and hang-ups. -/
def epollWait (s : Sys ρ κ) (reports : List (Int × EpollEvents)) : List (ρ × EpollEvents) :=
  if (reports.map Prod.fst).Nodup then
    reports.filterMap fun report =>
      match s.poller.kernel report.1 with
      | none => none
      | some (c, asked) => if asked.MayReport report.2 then some (c, report.2) else none
  else []

def fillActiveChannels : (ρ → Option (Channel κ)) → List (ρ × EpollEvents) → List ρ →
    Except Fault ((ρ → Option (Channel κ)) × List ρ)
  | objs, [], active => .ok (objs, active)
  | objs, (c, events) :: es, active =>
    match objs c with
    | none => .error .invalidPointer
    | some ch =>
      fillActiveChannels (Function.update objs c (some (ch.setReturnEvents (setPollEvents events))))
        es (active ++ [c])

def poll (s : Sys ρ κ) (reports : List (Int × EpollEvents)) : Except Fault (Sys ρ κ) := do
  let (objs, ready) ← fillActiveChannels s.objs (s.epollWait reports) []
  return { s with objs := objs, phase := .dispatching ready, removed := [] }

/-- A callback is called, if the slot holds one. -/
def call (s : Sys ρ κ) (c : ρ) (cb : Option κ) : Sys ρ κ :=
  { s with called := s.called ++ cb.toList.map fun k => (c, k) }

/-- The next test of `handleEvent`. -/
def handleEvent (s : Sys ρ κ) (c : ρ) (next : Test) (ready : List ρ) : Except Fault (Sys ρ κ) :=
  match next with
  | .done => .ok { s with phase := .dispatching ready }
  | .error =>
    match s.objs c with
    | none => .error .invalidPointer
    | some ch =>
      let occurs := ch.returnEvents.pollnval || ch.returnEvents.pollerr
      .ok ({ s with phase := .handling c .read ready }.call c (if occurs then ch.errorCallback else none))
  | .read =>
    match s.objs c with
    | none => .error .invalidPointer
    | some ch =>
      let occurs := ch.returnEvents.pollin || ch.returnEvents.pollpri || ch.returnEvents.pollrdhup
      .ok ({ s with phase := .handling c .write ready }.call c (if occurs then ch.readCallback else none))
  | .write =>
    match s.objs c with
    | none => .error .invalidPointer
    | some ch =>
      .ok ({ s with phase := .handling c .done ready }.call c
        (if ch.returnEvents.pollout then ch.writeCallback else none))

/-- The next step of `loop`. -/
def advance (s : Sys ρ κ) (reports : List (Int × EpollEvents)) : Except Fault (Sys ρ κ) :=
  match s.phase with
  | .outside => .ok s
  | .polling => s.poll reports
  | .dispatching (c :: ready) =>
    .ok { s with
      phase := .handling c .error ready
      handled := s.handled ++ [(c, decide (c ∈ s.removed))] }
  | .dispatching [] => .ok { s with phase := .executing }
  | .handling c next ready => s.handleEvent c next ready
  | .executing => .ok { s with phase := if s.quit then .outside else .polling }

/-! ## Calls on channels -/

def updateChannel (s : Sys ρ κ) (c : ρ) (events : PollEvents) : Except Fault (Sys ρ κ) :=
  match s.objs c with
  | none => .error .invalidPointer
  | some ch =>
    .ok { s with
      objs := Function.update s.objs c (some { ch with events := events })
      poller := s.poller.updateChannel c ch.fd events }

/-- The channel `removeChannel(c)` takes out of `channel_map_`: the one registered for its descriptor. -/
def takenOut (s : Sys ρ κ) (c : ρ) : Option ρ :=
  match s.objs c with
  | none => none
  | some ch => s.poller.channelMap ch.fd

def removeChannel (s : Sys ρ κ) (c : ρ) : Except Fault (Sys ρ κ) :=
  match s.objs c with
  | none => .error .invalidPointer
  | some ch =>
    .ok { s with
      poller := s.poller.removeChannel ch.fd
      removed := s.removed ++ (s.takenOut c).toList }

/-- What user code does. -/
def userStep (s : Sys ρ κ) : Label ρ κ → Except Fault (Sys ρ κ)
  | .loop | .advance _ => .ok s
  | .quit => .ok { s with quit := true }
  | .construct c fd read write error =>
    .ok { s with objs := Function.update s.objs c (some ⟨fd, .none, .none, read, write, error⟩) }
  | .updateChannel c events => s.updateChannel c events
  | .removeChannel c => s.removeChannel c
  | .destroy c => .ok { s with objs := Function.update s.objs c none }

def step (s : Sys ρ κ) (a : Label ρ κ) : Except Fault (Sys ρ κ) :=
  match a with
  | .loop => .ok (if s.phase = .outside then { s with quit := false, phase := .polling } else s)
  | .advance reports => s.advance reports
  | _ => if s.phase.user then s.userStep a else .ok s

end Sys

variable {ρ κ : Type} [DecidableEq ρ] {s s' t : Sys ρ κ}

/-! ## What a step does -/

/-- What any step does to the ready channels, the removed ones and the log. -/
inductive Move (s : Sys ρ κ) : Label ρ κ → Sys ρ κ → Prop where
  /-- Nothing happens to them, or channels are dropped from the ready ones. -/
  | other {a : Label ρ κ} {s' : Sys ρ κ} (hready : s'.phase.ready ⊆ s.phase.ready)
      (hremoved : s'.removed = s.removed) (hhandled : s'.handled = s.handled) : Move s a s'
  | poll {reports : List (Int × EpollEvents)} {s' : Sys ρ κ} (hremoved : s'.removed = [])
      (hhandled : s'.handled = s.handled) : Move s (.advance reports) s'
  | handle {reports : List (Int × EpollEvents)} {c : ρ} {ready : List ρ}
      (h : s.phase = .dispatching (c :: ready)) : Move s (.advance reports)
        { s with
          phase := .handling c .error ready
          handled := s.handled ++ [(c, decide (c ∈ s.removed))] }
  | remove {c : ρ} {s' : Sys ρ κ} (huser : s.phase.user = true) (hphase : s'.phase = s.phase)
      (hremoved : s'.removed = s.removed ++ (s.takenOut c).toList)
      (hhandled : s'.handled = s.handled) : Move s (.removeChannel c) s'

omit [DecidableEq ρ] in
theorem handleEvent_inv {c : ρ} {next : Test} {ready : List ρ}
    (he : s.handleEvent c next ready = .ok s') :
    s'.phase.ready = ready ∧ s'.removed = s.removed ∧ s'.handled = s.handled := by
  cases next with
  | done =>
    obtain rfl := Except.ok.inj he
    exact ⟨rfl, rfl, rfl⟩
  | error | read | write =>
    simp only [Sys.handleEvent] at he
    split at he
    · exact absurd he (by simp)
    · obtain rfl := Except.ok.inj he
      exact ⟨rfl, rfl, rfl⟩

theorem advance_move {reports : List (Int × EpollEvents)} (he : s.advance reports = .ok s') :
    Move s (.advance reports) s' := by
  unfold Sys.advance at he
  split at he
  · obtain rfl := Except.ok.inj he
    exact .other (List.Subset.refl _) rfl rfl
  · obtain ⟨⟨objs, ready⟩, -, he⟩ := bind_ok_inv he
    obtain rfl := Except.ok.inj he
    exact .poll rfl rfl
  · rename_i h
    obtain rfl := Except.ok.inj he
    exact .handle h
  · obtain rfl := Except.ok.inj he
    exact .other (List.nil_subset _) rfl rfl
  · rename_i h
    obtain ⟨hready, hremoved, hhandled⟩ := handleEvent_inv he
    refine .other ?_ hremoved hhandled
    rw [hready, h]
    exact List.Subset.refl _
  · obtain rfl := Except.ok.inj he
    refine .other ?_ rfl rfl
    split <;> exact List.nil_subset _

theorem step_move {a : Label ρ κ} (he : s.step a = .ok s') : Move s a s' := by
  have hstay : Move s a s := .other (List.Subset.refl _) rfl rfl
  cases a with
  | loop =>
    obtain rfl := Except.ok.inj he
    split
    · exact .other (List.nil_subset _) rfl rfl
    · exact hstay
  | advance reports => exact advance_move he
  | quit | construct | destroy =>
    simp only [Sys.step] at he
    split at he
    · obtain rfl := Except.ok.inj he
      exact .other (List.Subset.refl _) rfl rfl
    · obtain rfl := Except.ok.inj he
      exact hstay
  | updateChannel c events =>
    simp only [Sys.step] at he
    split at he
    · simp only [Sys.userStep, Sys.updateChannel] at he
      split at he
      · exact absurd he (by simp)
      · obtain rfl := Except.ok.inj he
        exact .other (List.Subset.refl _) rfl rfl
    · obtain rfl := Except.ok.inj he
      exact hstay
  | removeChannel c =>
    simp only [Sys.step] at he
    split at he
    · rename_i huser
      simp only [Sys.userStep, Sys.removeChannel] at he
      split at he
      · exact absurd he (by simp)
      · obtain rfl := Except.ok.inj he
        exact .remove huser rfl rfl rfl
    · obtain rfl := Except.ok.inj he
      exact hstay

/-! ## No removed channel is handled -/

/-- `removeChannel` takes out no channel that is ready and not handled yet. -/
def SparesReady (s : Sys ρ κ) : Label ρ κ → Prop
  | .removeChannel c => s.phase.user = true → ∀ d ∈ s.takenOut c, d ∉ s.phase.ready
  | _ => True

instance (s : Sys ρ κ) : ∀ a : Label ρ κ, Decidable (SparesReady s a)
  | .removeChannel c =>
    inferInstanceAs (Decidable (s.phase.user = true → ∀ d ∈ s.takenOut c, d ∉ s.phase.ready))
  | .loop | .advance _ | .quit | .construct _ _ _ _ _ | .updateChannel _ _ | .destroy _ => isTrue trivial

/-- The channels still to be handled are in the poller, or at least were not taken out. -/
structure Fresh (s : Sys ρ κ) : Prop where
  ready : ∀ c ∈ s.phase.ready, c ∉ s.removed
  handled : ∀ e ∈ s.handled, e.2 = false

omit [DecidableEq ρ] in
theorem init_fresh : Fresh (Sys.init : Sys ρ κ) :=
  ⟨by simp [Sys.init, Phase.ready], by simp [Sys.init]⟩

theorem step_fresh {a : Label ρ κ} (h : Fresh s) (hs : SparesReady s a) (he : s.step a = .ok s') :
    Fresh s' := by
  cases step_move he with
  | other hready hremoved hhandled =>
    refine ⟨fun c hc => ?_, ?_⟩
    · rw [hremoved]
      exact h.ready c (hready hc)
    · rw [hhandled]
      exact h.handled
  | poll hremoved hhandled =>
    refine ⟨fun c hc => ?_, ?_⟩
    · rw [hremoved]
      simp
    · rw [hhandled]
      exact h.handled
  | @handle _ c ready hphase =>
    have hready : ∀ d ∈ c :: ready, d ∉ s.removed := by
      have hall := h.ready
      rw [hphase] at hall
      exact hall
    refine ⟨fun d hd => hready d (List.mem_cons_of_mem _ hd), fun e hmem => ?_⟩
    rcases List.mem_append.mp hmem with hold | hnew
    · exact h.handled e hold
    · rw [List.mem_singleton.mp hnew]
      exact decide_eq_false (hready c (List.mem_cons_self ..))
  | remove huser hphase hremoved hhandled =>
    refine ⟨fun d hd => ?_, ?_⟩
    · rw [hphase] at hd
      rw [hremoved, List.mem_append, not_or]
      refine ⟨h.ready d hd, fun htaken => ?_⟩
      exact hs huser d (by simpa using htaken) hd
    · rw [hhandled]
      exact h.handled

/-- **Events go to registered channels only** in any run in which no callback removes a channel that
is ready and not handled yet: no call of `handleEvent` was made on a channel taken out of the poller
earlier in the iteration. -/
theorem dispatched_registered {ls : List (Label ρ κ)} (hs : Along Sys.step SparesReady Sys.init ls)
    (hrun : run Sys.step (Sys.init : Sys ρ κ) ls = .ok t) : ∀ e ∈ t.handled, e.2 = false :=
  (run_invariant step_fresh init_fresh hs hrun).handled

/-- Two channels are ready, and the callback of the first removes and destroys its own channel, as
`Connector::handleWritable` does. -/
def removedInOwnCallback : List (Label Nat Nat) :=
  [.construct 0 7 (some 70) none none, .updateChannel 0 .read, .construct 1 8 none (some 80) none,
    .updateChannel 1 .write, .loop,
    .advance [(8, ⟨false, true, false, false, false, false⟩),
      (7, ⟨true, false, false, false, false, false⟩)],
    .advance [], .advance [], .advance [], .advance [],
    .updateChannel 1 .none, .removeChannel 1, .destroy 1,
    .advance [], .advance []]

theorem dispatched_registered_removedInOwnCallback :
    ∃ t, run Sys.step Sys.init removedInOwnCallback = .ok t ∧ t.removed = [1] ∧
      t.handled.map Prod.fst = [1, 0] ∧ ∀ e ∈ t.handled, e.2 = false := by
  have hs : Along Sys.step SparesReady Sys.init removedInOwnCallback := by decide +kernel
  have hend : ∃ t, run Sys.step Sys.init removedInOwnCallback = .ok t ∧ t.removed = [1] ∧
      t.handled.map Prod.fst = [1, 0] := by decide +kernel
  obtain ⟨t, hrun, hremoved, hhandled⟩ := hend
  exact ⟨t, hrun, hremoved, hhandled, dispatched_registered hs hrun⟩

/-! ## A removed channel that is ready is handled -/

/-- With nothing but steps of the loop, `handleEvent` is called on a removed channel, or a destroyed
one is read before that. -/
def Misdispatches (s : Sys ρ κ) : Prop :=
  ∃ n, (∃ t, run Sys.step s (List.replicate n (.advance [])) = .ok t ∧ ∃ c, (c, true) ∈ t.handled) ∨
    run Sys.step s (List.replicate n (.advance [])) = .error .invalidPointer

theorem Misdispatches.advance (he : s.advance [] = .ok s') (h : Misdispatches s') :
    Misdispatches s := by
  obtain ⟨n, hn⟩ := h
  refine ⟨n + 1, ?_⟩
  have hone : ∀ ls, run Sys.step s (.advance [] :: ls) = run Sys.step s' ls := by
    intro ls
    simp only [run, Sys.step, he]
  rw [List.replicate_succ, hone]
  exact hn

theorem misdispatches_of_error (he : s.advance [] = .error .invalidPointer) : Misdispatches s := by
  refine ⟨1, Or.inr ?_⟩
  simp only [List.replicate, run, Sys.step, he]

/-- The test after this one. -/
def Test.after : Test → Test
  | .error => .read
  | .read => .write
  | .write | .done => .done

theorem misdispatches_test {c : ρ} {next : Test} {ready : List ρ} (hnext : next ≠ .done)
    (hphase : s.phase = .handling c next ready)
    (h : ∀ s' : Sys ρ κ, s'.phase = .handling c next.after ready → s'.removed = s.removed →
      Misdispatches s') : Misdispatches s := by
  have hadv : s.advance [] = s.handleEvent c next ready := by simp only [Sys.advance, hphase]
  cases hobj : s.objs c with
  | none =>
    refine misdispatches_of_error (hadv.trans ?_)
    cases next with
    | done => exact absurd rfl hnext
    | error | read | write => simp only [Sys.handleEvent, hobj]
  | some ch =>
    obtain ⟨s', hok, hp, hr⟩ : ∃ s', s.handleEvent c next ready = .ok s' ∧
        s'.phase = .handling c next.after ready ∧ s'.removed = s.removed := by
      cases next with
      | done => exact absurd rfl hnext
      | error | read | write =>
        simp only [Sys.handleEvent, hobj]
        exact ⟨_, rfl, rfl, rfl⟩
    exact (h s' hp hr).advance (hadv.trans hok)

/-- `handleEvent` gets through its tests, or reads a destroyed channel. -/
theorem misdispatches_handling {c : ρ} {next : Test} {ready : List ρ}
    (hphase : s.phase = .handling c next ready)
    (h : ∀ s' : Sys ρ κ, s'.phase = .dispatching ready → s'.removed = s.removed → Misdispatches s') :
    Misdispatches s := by
  have hdone : ∀ s' : Sys ρ κ, s'.phase = .handling c .done ready → s'.removed = s.removed →
      Misdispatches s' := by
    intro s' hp hr
    have hadv : s'.advance [] = .ok { s' with phase := .dispatching ready } := by
      simp only [Sys.advance, hp, Sys.handleEvent]
    exact Misdispatches.advance hadv (h _ rfl hr)
  have hwrite : ∀ s' : Sys ρ κ, s'.phase = .handling c .write ready → s'.removed = s.removed →
      Misdispatches s' := fun s' hp hr =>
    misdispatches_test (by simp) hp fun s'' hp' hr' => hdone s'' hp' (hr'.trans hr)
  have hread : ∀ s' : Sys ρ κ, s'.phase = .handling c .read ready → s'.removed = s.removed →
      Misdispatches s' := fun s' hp hr =>
    misdispatches_test (by simp) hp fun s'' hp' hr' => hwrite s'' hp' (hr'.trans hr)
  cases next with
  | error => exact misdispatches_test (by simp) hphase hread
  | read => exact hread s hphase rfl
  | write => exact hwrite s hphase rfl
  | done => exact hdone s hphase rfl

theorem misdispatches_dispatching {ready : List ρ} {d : ρ} (hd : d ∈ ready) :
    ∀ {s : Sys ρ κ}, s.phase = .dispatching ready → d ∈ s.removed → Misdispatches s := by
  induction ready with
  | nil => exact absurd hd (by simp)
  | cons c ready ih =>
    intro s hphase hremoved
    have hadv : s.step (.advance []) = .ok { s with
        phase := .handling c .error ready
        handled := s.handled ++ [(c, decide (c ∈ s.removed))] } := by
      simp only [Sys.step, Sys.advance, hphase]
    rcases List.mem_cons.mp hd with rfl | hrest
    · refine ⟨1, Or.inl ⟨_, (run_cons_ok hadv).mpr rfl, d, ?_⟩⟩
      simp [hremoved]
    · refine (misdispatches_handling rfl ?_).advance hadv
      intro s' hp hr
      refine ih hrest hp ?_
      rw [hr]
      exact hremoved

/-- **A removed channel that was ready is handled all the same**, or a destroyed one before it: after a
step that takes out a channel still to be handled, the loop gets there by itself. -/
theorem removed_is_dispatched {a : Label ρ κ} (hs : ¬ SparesReady s a) (he : s.step a = .ok s') :
    Misdispatches s' := by
  cases a with
  | removeChannel c =>
    simp only [SparesReady, not_forall, not_not] at hs
    obtain ⟨huser, d, htaken, hd⟩ := hs
    have hphase : s'.phase = s.phase ∧ d ∈ s'.removed := by
      simp only [Sys.step, huser, if_true, Sys.userStep, Sys.removeChannel] at he
      split at he
      · exact absurd he (by simp)
      · obtain rfl := Except.ok.inj he
        refine ⟨rfl, List.mem_append_right _ ?_⟩
        simpa using htaken
    obtain ⟨hphase, hremoved⟩ := hphase
    cases hp : s.phase with
    | handling b next ready =>
      rw [hp] at hd hphase
      refine misdispatches_handling hphase fun s'' hp' hr => ?_
      exact misdispatches_dispatching hd hp' (by rw [hr]; exact hremoved)
    | outside | polling | executing =>
      rw [hp] at hd
      exact absurd hd (by simp [Phase.ready])
    | dispatching ready =>
      rw [hp] at huser
      exact absurd huser (by simp [Phase.user])
  | loop | advance | quit | construct | updateChannel | destroy => exact absurd trivial hs

/-! ## `Connector::stop` in a callback -/

/-- The calls a member function of a connector makes on channels; `ptr` names its channels. -/
def ofConnector (ptr : Nat → ρ) : Connector.Effect → Option (Label ρ κ)
  | .updateChannel id _ events => some (.updateChannel (ptr id) events)
  | .removeChannel id _ => some (.removeChannel (ptr id))
  | .destroyChannel id => some (.destroy (ptr id))
  | .openSocket _ | .closeSocket _ | .connect _ | .runAfter _ | .newConnectionCallback _ => none

/-- A connection (channel `0` on descriptor `7`) listens and a connector (channel `1` on descriptor `8`)
has made the calls `started`; the two are reported in this order, and the loop comes to the read
callback of the connection. -/
def bothReady (started : List (Label Nat Nat)) : List (Label Nat Nat) :=
  [.construct 0 7 (some 70) none none, .updateChannel 0 .read, .construct 1 8 none (some 80) none] ++
    started ++
    [.loop, .advance [(7, ⟨true, false, false, false, false, false⟩),
        (8, ⟨false, true, false, false, false, false⟩)], .advance [], .advance [], .advance []]

/-- The read callback of the connection stops the connector. -/
def stoppedInCallback : Except Fault (Sys Nat Nat) := do
  let (c, started) ← (Connector.construct 0 true).start.1.startInLoop (.loop 0) ⟨8, .einprogress, 0⟩
  let (_, stopped) ← c.stop.1.stopInLoop (.loop 0)
  run Sys.step .init (bothReady (started.filterMap (ofConnector (· + 1))) ++
    stopped.filterMap (ofConnector (· + 1)) ++ [.advance [], .advance [], .advance []])

/-- `handleEvent` is called on the channel of the connector, which is removed and destroyed. -/
theorem dispatched_removed_stoppedInCallback :
    ∃ t, stoppedInCallback = .ok t ∧ (1, true) ∈ t.handled ∧ t.objs 1 = none := by
  decide +kernel

end HyperMuduo.Net.Dispatch
