import HyperMuduo.TcpServer.LifeCycle
import HyperMuduo.TcpServer.Lifetime

/-!
# What is left of a server

`~TcpServer` takes no connection off its loop and no closure off a queue. What is left for the base loop
is what was there when the destructor began, and what the workers add while they are joined: `Aside` says
what the threads other than the base loop's can do to the base loop, one lemma per function.

* `run_aside`: in the teardown the base loop gets a removal exactly when a worker closes a connection.
* **`teardown_clean_iff`**: the teardown is clean exactly for a server that was never started. It is
  settled exactly when no connection is open, none is registered with the base loop, nothing that refers
  to the server waits on its queue, and no worker reads an end of stream while it is being joined.
-/

namespace HyperMuduo.Net.TcpServer

open HyperMuduo.Lib
open HyperMuduo.Net.TcpConnection (Effect Open Result)

/-! ## Steps of the other threads -/

/-- The close callback of a server's connection is called. -/
def closing : Effect → Bool
  | .closeCallback (.serverRemoveConnection _) => true
  | _ => false

theorem any_closing_of_routine {es : List Effect} (h : es.all routine = true) :
    es.any closing = false := by
  rw [List.any_eq_false]
  rw [List.all_eq_true] at h
  intro e he hclosing
  have hroutine := h e he
  unfold closing at hclosing
  split at hclosing
  · exact absurd hroutine (by simp [routine])
  · exact absurd hclosing (by simp)

namespace World

variable {cfg : Config} {s s' s'' : World} {id : Nat} {c c' : TcpConnection} {t : ThreadId}
  {es : List Effect} {w : Int} {l : LoopId} {p q : Prop}

/-- From `s` to `s'` the base loop took no step: its channels stay, and its queue grows, by a removal
exactly when `closed`. -/
structure Aside (s s' : World) (closed : Prop) : Prop where
  poller : (s'.loops baseLoop).poller = (s.loops baseLoop).poller
  pending : ∃ new, (s'.loops baseLoop).pending = (s.loops baseLoop).pending ++ new ∧
    ((∃ id, .removeConnectionInLoop id ∈ new) ↔ closed)
  removed : ∀ t id, .called .removeConnectionInLoop t id ∈ s'.log →
    .called .removeConnectionInLoop t id ∈ s.log

/-- A step that leaves the base loop as it is and calls no `removeConnectionInLoop`. -/
theorem Aside.of_base (hbase : s'.loops baseLoop = s.loops baseLoop)
    (hlog : ∀ t id, .called .removeConnectionInLoop t id ∈ s'.log →
      .called .removeConnectionInLoop t id ∈ s.log) : Aside s s' False where
  poller := by rw [hbase]
  pending := ⟨[], by rw [hbase, List.append_nil], by simp⟩
  removed := hlog

theorem Aside.refl (s : World) : Aside s s False := .of_base rfl (fun _ _ h => h)

theorem Aside.trans (h : Aside s s' p) (h' : Aside s' s'' q) : Aside s s'' (p ∨ q) where
  poller := h'.poller.trans h.poller
  pending := by
    obtain ⟨new, hnew, hp⟩ := h.pending
    obtain ⟨new', hnew', hq⟩ := h'.pending
    refine ⟨new ++ new', by rw [hnew', hnew, List.append_assoc], ?_⟩
    rw [← hp, ← hq, ← exists_or]
    simp only [List.mem_append]
  removed := fun t id hmem => h.removed t id (h'.removed t id hmem)

theorem Aside.of_iff (h : Aside s s' p) (hpq : p ↔ q) : Aside s s' q := by
  rw [← hpq]
  exact h

/-- A step after which the base loop is left alone. -/
theorem Aside.still (h : Aside s s' p) (h' : Aside s' s'' False) : Aside s s'' p :=
  (h.trans h').of_iff (or_iff_left not_false)

/-- A step before which the base loop is left alone. -/
theorem Aside.after (h : Aside s s' False) (h' : Aside s' s'' q) : Aside s s'' q :=
  (h.trans h').of_iff (or_iff_right not_false)

theorem aside_record {e : Entry} (he : ∀ t id, e ≠ .called .removeConnectionInLoop t id) :
    Aside s (s.record e) False := by
  refine .of_base rfl ?_
  intro t id hmem
  rcases List.mem_append.mp hmem with hold | hnew
  · exact hold
  · exact absurd (List.mem_singleton.mp hnew).symm (he t id)

theorem aside_setConn (s : World) (id : Nat) (c : TcpConnection) : Aside s (s.setConn id c) False :=
  .of_base rfl (fun _ _ h => h)

theorem aside_setPoller (hl : l ≠ baseLoop) (ep : Epoller Nat) : Aside s (s.setPoller l ep) False :=
  .of_base (Function.update_of_ne hl.symm _ _) (fun _ _ h => h)

theorem aside_setPhase (hl : l ≠ baseLoop) (ph : Phase) : Aside s (s.setPhase l ph) False :=
  .of_base (Function.update_of_ne hl.symm _ _) (fun _ _ h => h)

theorem aside_swapTasks (hl : l ≠ baseLoop) : Aside s (s.swapTasks l) False :=
  .of_base (Function.update_of_ne hl.symm _ _) (fun _ _ h => h)

theorem aside_queueInLoop (s : World) (l : LoopId) (id : Nat) (task : TcpConnection.Task) :
    Aside s (s.queueInLoop l (.conn id task)) False := by
  by_cases hl : l = baseLoop
  · subst hl
    refine ⟨?_, ⟨[.conn id task], ?_, by simp⟩, fun _ _ h => h⟩
    · simp [queueInLoop]
    · simp [queueInLoop, Loop.pending]
  · exact .of_base (Function.update_of_ne (Ne.symm hl) _ _) (fun _ _ h => h)

/-- From another thread `removeConnection` queues its task. -/
theorem removeConnection_aside (ht : t ≠ .loop baseLoop) (he : s.removeConnection t id = .ok s') :
    Aside s s' True := by
  unfold removeConnection at he
  rw [if_neg (by simpa [isInLoopThread] using ht)] at he
  obtain rfl := Except.ok.inj he
  refine ⟨?_, ⟨[.removeConnectionInLoop id], ?_, by simp⟩, fun _ _ h => h⟩
  · simp [queueInLoop]
  · simp [queueInLoop, Loop.pending]

theorem perform_aside (ht : t ≠ .loop baseLoop) {e : Effect} (he : s.perform t id c e = .ok s') :
    Aside s s' (closing e = true) := by
  have hrecord : Aside s (s.record (.effect id e)) False := aside_record (by simp)
  -- the poller of the base loop is out of reach for another thread
  have hloop : assertInLoopThread c.loop t = .ok () → c.loop ≠ baseLoop := by
    rintro hin hbase
    exact ht (hbase ▸ eq_loop (assert_inv hin))
  cases e with
  | updateChannel events =>
    obtain ⟨_, hin, he⟩ := bind_ok_inv he
    obtain rfl := Except.ok.inj he
    exact (hrecord.still (aside_setPoller (hloop hin) _)).of_iff (by simp [closing])
  | removeChannel =>
    obtain ⟨_, hin, he⟩ := bind_ok_inv he
    obtain rfl := Except.ok.inj he
    exact (hrecord.still (aside_setPoller (hloop hin) _)).of_iff (by simp [closing])
  | queueInLoop task =>
    obtain rfl := Except.ok.inj he
    exact (hrecord.still (aside_queueInLoop _ _ _ _)).of_iff (by simp [closing])
  | closeCallback cb =>
    cases cb with
    | serverRemoveConnection conn =>
      exact (hrecord.after (removeConnection_aside ht he)).of_iff (by simp [closing])
    | clientReset | clientGone =>
      obtain rfl := Except.ok.inj he
      exact hrecord.of_iff (by simp [closing])
  | write _ | shutdownWrite | connectionCallback _ | messageCallback =>
    obtain rfl := Except.ok.inj he
    exact hrecord.of_iff (by simp [closing])

theorem performAll_aside (ht : t ≠ .loop baseLoop) (he : performAll t id c s es = .ok s') :
    Aside s s' (es.any closing = true) := by
  induction es generalizing s with
  | nil =>
    obtain rfl := Except.ok.inj he
    exact (Aside.refl s).of_iff (by simp)
  | cons e es ih =>
    obtain ⟨s₁, h1, h2⟩ := bind_ok_inv he
    exact ((perform_aside ht h1).trans (ih h2)).of_iff (by simp)

theorem invoke_aside (ht : t ≠ .loop baseLoop) {r : Result} (hr : r = .ok (c', es))
    (he : s.invoke t id r = .ok s') : Aside s s' (es.any closing = true) := by
  rw [hr] at he
  exact (aside_setConn s id c').after (performAll_aside ht he)

/-- A call with routine effects only. -/
theorem invoke_routine_aside (ht : t ≠ .loop baseLoop) {r : Result}
    (hes : ∀ c' es, r = .ok (c', es) → es.all routine = true) (he : s.invoke t id r = .ok s') :
    Aside s s' False := by
  obtain ⟨⟨c', es⟩, hr, -⟩ := bind_ok_inv he
  refine (invoke_aside ht hr he).of_iff ?_
  rw [any_closing_of_routine (hes c' es hr)]
  simp

theorem executeConn_aside (ht : t ≠ .loop baseLoop) {task : TcpConnection.Task}
    (he : s.executeConn t id c w task = .ok s') : Aside s s' False := by
  cases task with
  | connectionEstablished =>
    have hrecord : Aside s (s.record (.called .connectionEstablished t id)) False :=
      aside_record (by simp)
    exact hrecord.after (invoke_routine_aside ht (fun _ _ => connectionEstablished_routine) he)
  | connectionDestroyed =>
    have hrecord : Aside s (s.record (.called .connectionDestroyed t id)) False :=
      aside_record (by simp)
    exact hrecord.after (invoke_routine_aside ht (fun _ _ => connectionDestroyed_routine) he)
  | shutdownInLoop => exact invoke_routine_aside ht (fun _ _ => shutdownInLoop_routine) he
  | sendString _ | sendBuffer _ | sendPointer _ _ =>
    exact invoke_routine_aside ht (fun _ _ => sendArgInLoop_routine) he
  | writeCompleteCallback | highWaterCallback =>
    obtain rfl := Except.ok.inj he
    exact .refl s

theorem execute_aside (ht : t ≠ .loop baseLoop) {task : Task} (he : s.execute t w task = .ok s') :
    Aside s s' False := by
  cases task with
  | removeConnectionInLoop id =>
    -- another thread does not get past the assertion
    obtain ⟨_, hin, -⟩ := bind_ok_inv he
    exact absurd (eq_loop (assert_inv hin)) ht
  | conn id task =>
    simp only [execute] at he
    split at he
    · exact absurd he (by simp)
    · exact executeConn_aside ht he

theorem handle_channel_aside (hI : Inv cfg s none) (ht : t ≠ .loop baseLoop) {k : Kernel}
    {revents : PollEvents} (he : s.handle t k (.channel id revents) = .ok s') :
    Aside s s' ((revents.reads && decide (k.read = some [])) = true) := by
  simp only [handle] at he
  split at he
  · exact absurd he (by simp)
  · rename_i c hc
    rw [handleEvent_wired (hI.at hc).1] at he
    have hset := aside_setConn s id { c with channel := c.channel.setReturnEvents revents }
    split at he
    · rename_i hread
      have hreads : revents.reads = true := hread
      have he := runHandlers_read (Function.update_self ..) he
      by_cases hr : k.read = some []
      · rw [if_pos hr, hr] at he
        have hrecord := aside_record (s := s.setConn id { c with
          channel := c.channel.setReturnEvents revents }) (e := .called .handleClose t id) (by simp)
        obtain ⟨⟨c', es⟩, hcall, -⟩ := bind_ok_inv he
        have hclose := (hset.still hrecord).after (invoke_aside ht hcall he)
        obtain ⟨-, rb, -, ⟨-, hclosed⟩ | ⟨hne, -⟩⟩ := TcpConnection.handleReadable_inv hcall
        · obtain ⟨-, -, cb, hcb, -, rfl⟩ := TcpConnection.handleClose_inv hclosed
          have hcb' : c.closeCallback = some cb := hcb
          rw [(hI.at hc).1.closeCallback] at hcb'
          obtain rfl := Option.some.inj hcb'
          exact hclose.of_iff (by simp [closing, hreads, hr])
        · exact absurd rfl hne
      · rw [if_neg hr] at he
        refine (hset.after (invoke_routine_aside ht ?_ he)).of_iff (by simp [hr])
        intro c' es hcall
        obtain ⟨-, rb, -, ⟨heof, -⟩ | ⟨-, -, rfl⟩⟩ := TcpConnection.handleReadable_inv hcall
        · exact absurd heof hr
        · split <;> rfl
    · rename_i hread
      obtain rfl := Except.ok.inj he
      have hreads : ¬ revents.reads = true := hread
      exact hset.of_iff (by simp [hreads])

theorem loopStep_aside (hI : Inv cfg s none) (hl : l ≠ baseLoop) {k : Kernel}
    (he : s.loopStep l k = .ok s') : Aside s s' (s.endOfStream (.loop l k) = true) := by
  have ht : ThreadId.loop l ≠ .loop baseLoop := fun h => hl (ThreadId.loop.inj h)
  unfold loopStep at he
  split at he
  · rename_i hp
    obtain rfl := Except.ok.inj he
    exact (aside_setPhase hl _).of_iff (by simp [endOfStream, hp])
  · rename_i x xs hp
    have hphase : Aside s (s.setPhase l (.handling xs)) False := aside_setPhase hl _
    cases x with
    | acceptor =>
      obtain ⟨_, hin, -⟩ := bind_ok_inv he
      exact absurd (eq_loop (assert_inv hin)) ht
    | channel id revents =>
      have hI₁ : Inv cfg (s.setPhase l (.handling xs)) none := hI.setPhase (by rw [hp]; rfl)
      exact (hphase.after (handle_channel_aside hI₁ ht he)).of_iff (by simp [endOfStream, hp])
  · rename_i hp
    obtain rfl := Except.ok.inj he
    exact (aside_swapTasks hl).of_iff (by simp [endOfStream, hp])
  · rename_i task tasks hp
    have hphase : Aside s (s.setPhase l (.executing tasks)) False := aside_setPhase hl _
    exact (hphase.after (execute_aside ht he)).of_iff (by simp [endOfStream, hp])
  · rename_i hp
    obtain rfl := Except.ok.inj he
    exact (aside_setPhase hl _).of_iff (by simp [endOfStream, hp])

/-- **The base loop gets a removal from another thread exactly at the end of a stream.** -/
theorem step_aside (hI : Inv cfg s none) {lb : Label} (ht : lb.thread ≠ some (.loop baseLoop))
    (he : s.step lb = .ok s') : Aside s s' (s.endOfStream lb = true) := by
  cases lb with
  | loop l k => exact loopStep_aside hI (fun h => ht (by rw [h]; rfl)) he
  | send t id arg w =>
    simp only [step] at he
    split at he
    · obtain rfl := Except.ok.inj he
      exact (Aside.refl s).of_iff (by simp [endOfStream])
    · exact (invoke_routine_aside (fun h => ht (by rw [h]; rfl)) (fun _ _ => send_routine) he).of_iff
        (by simp [endOfStream])
  | shutdown t id =>
    simp only [step] at he
    split at he
    · obtain rfl := Except.ok.inj he
      exact (Aside.refl s).of_iff (by simp [endOfStream])
    · exact (invoke_routine_aside (fun h => ht (by rw [h]; rfl)) (fun _ _ => shutdown_routine)
        he).of_iff (by simp [endOfStream])
  | store m =>
    obtain rfl := Except.ok.inj he
    have hstore : Aside s { s with memory := m } False := .of_base rfl (fun _ _ h => h)
    exact hstore.of_iff (by simp [endOfStream])

/-! ## What the stages say -/

theorem Inv.conn_of_pending (h : Inv cfg s none) {task : Task} (hmem : task ∈ (s.loops l).pending) :
    ∃ c, s.conns task.captured = some c := by
  obtain ⟨c, hc, -⟩ := h.home l task (tokens_pos_of_mem hmem)
  exact ⟨c, hc⟩

/-- `connectionDestroyed` waits or has run only after `removeConnectionInLoop` has. -/
theorem Inv.removed_before_destroyed (h : Inv cfg s none)
    (hmem : (∃ th, .called .connectionDestroyed th id ∈ s.log) ∨
      .conn id .connectionDestroyed ∈ (s.loops l).pending) :
    .called .removeConnectionInLoop (.loop baseLoop) id ∈ s.log := by
  rw [← mem_milestones]
  rcases hmem with ⟨th, hcalled⟩ | hwaits
  · rw [← mem_milestones] at hcalled
    have haccepted : id < s.accepted := by
      by_contra hge
      rw [h.unseen id (Nat.le_of_not_lt hge)] at hcalled
      exact absurd hcalled List.not_mem_nil
    obtain ⟨c, -, -, n, hat⟩ := h.conn id haccepted
    rw [hat.log] at hcalled ⊢
    have hn := hat.le
    interval_cases n <;> simp [script] at hcalled ⊢
  · obtain ⟨c, n, -, hat, hnext⟩ := h.stage_of_token rfl (tokens_pos_of_mem hwaits)
    obtain rfl := nextTask_destroyed hnext
    have hlog : milestones id s.log = (script c.loop).take 3 := hat.log
    rw [hlog]
    simp [script]

theorem Inv.not_removed_of_open (h : Inv cfg s none) (hc : s.conns id = some c) (ho : Open c)
    (th : ThreadId) : .called .removeConnectionInLoop th id ∉ s.log := by
  obtain ⟨-, n, hat⟩ := h.at hc
  obtain rfl := stateAt_open hat.state ho
  rw [← mem_milestones, hat.log]
  simp [script]

theorem Wired.reachesServer (h : Wired cfg id c) : Lifetime.ReachesServer c :=
  ⟨h.readCallback, id, h.closeCallback⟩

/-! ## What is left after the steps of the other threads -/

theorem Aside.removals_iff (h : Aside s s' p) :
    (∀ id, .removeConnectionInLoop id ∉ (s'.loops baseLoop).pending) ↔
      (∀ id, .removeConnectionInLoop id ∉ (s.loops baseLoop).pending) ∧ ¬ p := by
  obtain ⟨new, hnew, hp⟩ := h.pending
  rw [hnew, ← hp, not_exists, ← forall_and]
  simp only [List.mem_append, not_or]

/-- Every connection that is registered with the base loop leads to the server. -/
theorem Aside.channels_iff (h : Aside s s' p) (hI : Inv cfg s' none) (hP : Polled s' none) :
    (∀ fd id ev c, (s'.loops baseLoop).poller.kernel fd = some (id, ev) → s'.conns id = some c →
      ¬ Lifetime.ReachesServer c) ↔ ∀ fd, (s.loops baseLoop).poller.kernel fd = none := by
  rw [h.poller]
  constructor
  · intro hnone fd
    cases hk : (s.loops baseLoop).poller.kernel fd with
    | none => rfl
    | some entry =>
      obtain ⟨id, ev⟩ := entry
      rw [← h.poller] at hk
      obtain ⟨c, hc, -⟩ := hP.kernel baseLoop fd id ev hk
      rw [h.poller] at hk
      exact absurd (hI.at hc).1.reachesServer (hnone fd id ev c hk hc)
  · intro hnone fd id ev c hk
    rw [hnone] at hk
    exact absurd hk (by simp)

/-- Without the base loop no open connection is taken off its loop. -/
theorem Aside.established_iff (h : Aside s s' p) (hI : Inv cfg s none) (hI' : Inv cfg s' none) :
    (∀ id c, s.conns id = some c → Open c →
      (∃ th, .called .connectionDestroyed th id ∈ s'.log) ∨
        .conn id .connectionDestroyed ∈ (s'.loops c.loop).pending) ↔
      ∀ id c, s.conns id = some c → ¬ Open c := by
  constructor
  · intro hall id c hc ho
    have hremoved := hI'.removed_before_destroyed (hall id c hc ho)
    exact hI.not_removed_of_open hc ho _ (h.removed _ _ hremoved)
  · intro hnone id c hc ho
    exact absurd ho (hnone id c hc)

/-! ## A server that does not listen -/

/-- No connection was accepted, and none is about to be. -/
structure Unused (s : World) : Prop where
  accepted : s.accepted = 0
  ready : ∀ l ready, (s.loops l).phase = .handling ready → .acceptor ∉ ready

theorem Unused.conns (h : Unused s) (hI : Inv cfg s none) (id : Nat) : s.conns id = none :=
  hI.fresh id (by rw [h.accepted]; exact Nat.zero_le id)

theorem start_unused (cfg : Config) : Unused (start cfg) where
  accepted := rfl
  ready := fun _ _ h => absurd h (by simp [start])

theorem loopStep_unused (hI : Inv cfg s none) (hP : Polled s none) (h : Unused s) {k : Kernel}
    (hk : .acceptor ∉ k.reports) (he : s.loopStep l k = .ok s') : Unused s' := by
  unfold loopStep at he
  split at he
  · obtain rfl := Except.ok.inj he
    refine ⟨h.accepted, ?_⟩
    intro l' ready hphase hin
    rcases setPhase_handling hphase with ⟨rfl, heq⟩ | ⟨-, hold⟩
    · obtain rfl := Phase.handling.inj heq
      exact hk (acceptor_of_poll hin).2
    · exact h.ready l' ready hold hin
  · rename_i x xs hp
    cases x with
    | acceptor => exact absurd List.mem_cons_self (h.ready l _ hp)
    | channel id revents =>
      obtain ⟨c, hc, -⟩ := (hP.ready l _ hp).2 id revents List.mem_cons_self
      rw [h.conns hI] at hc
      exact absurd hc (by simp)
  · obtain rfl := Except.ok.inj he
    exact ⟨h.accepted, fun l' ready hphase => h.ready l' ready (swapTasks_handling hphase)⟩
  · rename_i task tasks hp
    have hmem : task ∈ (s.loops l).pending := by simp [Loop.pending, hp, Phase.tasks]
    obtain ⟨c, hc⟩ := hI.conn_of_pending hmem
    rw [h.conns hI] at hc
    exact absurd hc (by simp)
  · obtain rfl := Except.ok.inj he
    refine ⟨h.accepted, ?_⟩
    intro l' ready hphase
    rcases setPhase_handling hphase with ⟨-, heq⟩ | ⟨-, hold⟩
    · exact absurd heq (by simp)
    · exact h.ready l' ready hold

theorem step_unused (hI : Inv cfg s none) (hP : Polled s none) (h : Unused s) {lb : Label}
    (hk : ∀ l k, lb = .loop l k → .acceptor ∉ k.reports) (he : s.step lb = .ok s') : Unused s' := by
  cases lb with
  | loop l k => exact loopStep_unused hI hP h (hk l k rfl) he
  | send t id arg w =>
    simp only [step, h.conns hI] at he
    obtain rfl := Except.ok.inj he
    exact h
  | shutdown t id =>
    simp only [step, h.conns hI] at he
    obtain rfl := Except.ok.inj he
    exact h
  | store m =>
    obtain rfl := Except.ok.inj he
    exact ⟨h.accepted, h.ready⟩

end World

namespace Lifetime

variable {cfg : Config} {s s' t : Lifetime} {a : Act} {acts during : List Act}

/-! ## Steps and runs -/

/-- What a step does: a step of the world that can be taken, nothing to the world, or the end. -/
inductive Move (s : Lifetime) (a : Act) (s' : Lifetime) : Prop where
  | world (lb : Label) (ha : a = .world lb) (hmay : s.mayRun lb = true)
    (hworld : s.world.step lb = .ok s'.world) (hacceptor : s'.acceptor = s.acceptor)
    (hstage : s'.stage = s.stage)
  | still (hworld : s'.world = s.world) (hcloses : s.closes a = false)
    (hacceptor : s.acceptor = .listening → s'.acceptor = .listening)
    (hstage : s.stage = .destroyed → s'.stage = .destroyed)
    (hbegun : s.stage ≠ .running → s'.acceptor = s.acceptor ∧ s'.stage ≠ .running)
  | finish (hworld : s'.world = s.world.clearConnections) (hcloses : s.closes a = false)
    (hacceptor : s'.acceptor = s.acceptor) (hstage : s'.stage = .destroyed)

theorem Move.refl (hcloses : s.closes a = false) : Move s a s :=
  .still rfl hcloses (fun h => h) (fun h => h) (fun h => ⟨rfl, h⟩)

theorem step_move (he : s.step a = .ok s') : Move s a s' := by
  cases a with
  | world lb =>
    simp only [step] at he
    split at he
    · rename_i hmay
      obtain ⟨world, hworld, he⟩ := bind_ok_inv he
      obtain rfl := Except.ok.inj he
      exact .world lb rfl hmay hworld rfl rfl
    · rename_i hmay
      obtain rfl := Except.ok.inj he
      exact .refl (by simp [closes, hmay])
  | start t =>
    simp only [step] at he
    split at he
    · rename_i hidle
      obtain rfl := Except.ok.inj he
      refine .still rfl rfl ?_ (fun h => h) (fun h => absurd hidle.1 h)
      intro hlistening
      rw [hidle.2] at hlistening
      exact absurd hlistening (by simp)
    · obtain rfl := Except.ok.inj he
      exact .refl rfl
  | listen =>
    simp only [step] at he
    split at he
    · rename_i hqueued
      obtain rfl := Except.ok.inj he
      exact .still rfl rfl (fun _ => rfl) (fun h => h) (fun h => absurd hqueued.1 h)
    · obtain rfl := Except.ok.inj he
      exact .refl rfl
  | destroy =>
    simp only [step] at he
    split at he
    · rename_i hrunning
      obtain rfl := Except.ok.inj he
      refine .still rfl rfl (fun h => h) ?_ (fun h => absurd hrunning h)
      intro hdestroyed
      rw [hrunning] at hdestroyed
      exact absurd hdestroyed (by simp)
    · obtain rfl := Except.ok.inj he
      exact .refl rfl
  | join l =>
    simp only [step] at he
    split at he
    · rename_i joined hjoining
      split at he
      · obtain rfl := Except.ok.inj he
        refine .still rfl rfl (fun h => h) ?_ (fun _ => ⟨rfl, by simp⟩)
        intro hdestroyed
        rw [hjoining] at hdestroyed
        exact absurd hdestroyed (by simp)
      · obtain rfl := Except.ok.inj he
        exact .refl rfl
    · obtain rfl := Except.ok.inj he
      exact .refl rfl
  | finish =>
    simp only [step] at he
    split at he
    · split at he
      · obtain rfl := Except.ok.inj he
        exact .finish rfl rfl rfl rfl
      · obtain rfl := Except.ok.inj he
        exact .refl rfl
    · obtain rfl := Except.ok.inj he
      exact .refl rfl

/-- The invariants of the world while the server is there. -/
structure Inv (cfg : Config) (s : Lifetime) : Prop where
  stages : World.Inv cfg s.world none
  polled : World.Polled s.world none
  unused : s.acceptor ≠ .listening → World.Unused s.world

theorem construct_inv (cfg : Config) : Inv cfg (construct cfg) where
  stages := World.start_inv cfg
  polled := World.start_polled cfg
  unused := fun _ => World.start_unused cfg

theorem reports_of_mayRun {lb : Label} (hmay : s.mayRun lb = true) (hidle : s.acceptor ≠ .listening)
    (l : LoopId) (k : Kernel) (hlb : lb = .loop l k) : .acceptor ∉ k.reports := by
  subst hlb
  intro hreport
  simp only [mayRun, Bool.and_eq_true, decide_eq_true_eq] at hmay
  exact hidle (hmay.2.2 hreport)

theorem step_inv (h : s.stage ≠ .destroyed → Inv cfg s) (he : s.step a = .ok s')
    (hthere : s'.stage ≠ .destroyed) : Inv cfg s' := by
  cases step_move he with
  | world lb ha hmay hworld hacceptor hstage =>
    rw [hstage] at hthere
    obtain ⟨hI, hP, hU⟩ := h hthere
    refine ⟨(World.step_inv hI hworld).1, World.step_polled hP hI hworld, ?_⟩
    intro hidle
    rw [hacceptor] at hidle
    exact World.step_unused hI hP (hU hidle) (reports_of_mayRun hmay hidle) hworld
  | still hworld hcloses hacceptor hstage hbegun =>
    obtain ⟨hI, hP, hU⟩ := h (fun hd => hthere (hstage hd))
    rw [← hworld] at hI hP hU
    exact ⟨hI, hP, fun hidle => hU (fun hl => hidle (hacceptor hl))⟩
  | finish hworld hcloses hacceptor hstage => exact absurd hstage hthere

theorem run_inv (h : s.stage ≠ .destroyed → Inv cfg s) (hr : run step s acts = .ok s')
    (hthere : s'.stage ≠ .destroyed) : Inv cfg s' :=
  run_preserves (I := fun s => s.stage ≠ .destroyed → Inv cfg s) (fun hI he => step_inv hI he) h hr
    hthere

theorem thread_of_mayRun {lb : Label} (hmay : s.mayRun lb = true) (hbegun : s.stage ≠ .running) :
    s.stage ≠ .destroyed ∧ lb.thread ≠ some (.loop baseLoop) := by
  simp only [mayRun, Bool.and_eq_true, decide_eq_true_eq, List.all_eq_true] at hmay
  obtain ⟨⟨hthere, hhalted⟩, -⟩ := hmay
  refine ⟨hthere, hhalted baseLoop ?_⟩
  cases hstage : s.stage with
  | running => exact absurd hstage hbegun
  | joining joined => exact List.mem_cons_self
  | destroyed => exact absurd hstage hthere

/-- Once the destructor has begun, the base loop gets a removal exactly when a step closes. -/
theorem step_aside (h : s.stage ≠ .destroyed → Inv cfg s) (hbegun : s.stage ≠ .running)
    (he : s.step a = .ok s') :
    World.Aside s.world s'.world (s.closes a = true) ∧ s'.acceptor = s.acceptor ∧
      s'.stage ≠ .running := by
  cases step_move he with
  | world lb ha hmay hworld hacceptor hstage =>
    obtain ⟨hthere, hthread⟩ := thread_of_mayRun hmay hbegun
    refine ⟨?_, hacceptor, by rw [hstage]; exact hbegun⟩
    refine (World.step_aside (h hthere).stages hthread hworld).of_iff ?_
    rw [ha]
    simp [closes, hmay]
  | still hworld hcloses hacceptor hstage hkept =>
    refine ⟨?_, hkept hbegun⟩
    rw [hworld]
    exact (World.Aside.refl _).of_iff (by simp [hcloses])
  | finish hworld hcloses hacceptor hstage =>
    refine ⟨?_, hacceptor, by rw [hstage]; simp⟩
    rw [hworld]
    have hclear : World.Aside s.world s.world.clearConnections False := .of_base rfl (fun _ _ h => h)
    exact hclear.of_iff (by simp [hcloses])

/-- **The teardown leaves the base loop alone**, but for the removals of connections that close. -/
theorem run_aside (h : s.stage ≠ .destroyed → Inv cfg s) (hbegun : s.stage ≠ .running)
    (hr : run step s acts = .ok s') :
    World.Aside s.world s'.world (¬ Along step NoClose s acts) ∧ s'.acceptor = s.acceptor := by
  induction acts generalizing s with
  | nil =>
    obtain rfl := Except.ok.inj hr
    exact ⟨(World.Aside.refl _).of_iff (by simp [Along]), rfl⟩
  | cons a acts ih =>
    obtain ⟨s₁, hs, hr⟩ := run_cons_inv hr
    obtain ⟨haside, hacceptor, hbegun₁⟩ := step_aside h hbegun hs
    obtain ⟨haside', hacceptor'⟩ := ih (fun hthere => step_inv h hs hthere) hbegun₁ hr
    refine ⟨(haside.trans haside').of_iff ?_, hacceptor'.trans hacceptor⟩
    simp only [Along, hs, Except.ok.injEq, forall_eq', NoClose]
    rw [not_and_or, Bool.not_eq_false]

/-! ## The teardown -/

theorem finish_inv (he : s.step .finish = .ok t) (hthere : s.stage ≠ .destroyed)
    (hdone : t.stage = .destroyed) : t.world = s.world.clearConnections ∧ t.acceptor = s.acceptor := by
  simp only [step] at he
  split at he
  · split at he
    · obtain rfl := Except.ok.inj he
      exact ⟨rfl, rfl⟩
    · obtain rfl := Except.ok.inj he
      exact absurd hdone hthere
  · obtain rfl := Except.ok.inj he
    exact absurd hdone hthere

theorem Reachable.inv (h : Reachable cfg s) (hthere : s.stage ≠ .destroyed) : Inv cfg s := by
  obtain ⟨acts, hr⟩ := h
  exact run_inv (fun _ => construct_inv cfg) hr hthere

/-- The states before and after the destructor, and the one in which the last worker is joined. -/
theorem Destroys.aside (hd : Destroys s during t) (hI : Inv cfg s) :
    ∃ s', Inv cfg s' ∧ s'.acceptor = s.acceptor ∧ t.acceptor = s.acceptor ∧
      t.world = s'.world.clearConnections ∧
      World.Aside s.world s'.world (¬ Along step NoClose s (.destroy :: during)) := by
  obtain ⟨s', hr, hthere, hfinish⟩ := hd.joins
  obtain ⟨hworld, hacceptor⟩ := finish_inv hfinish hthere hd.done
  obtain ⟨s₀, hs₀, hr⟩ := run_cons_inv hr
  have hs₀' : s.step .destroy = .ok { s with stage := .joining [] } := by
    simp only [step, hd.began, if_true]
  obtain rfl := Except.ok.inj (hs₀'.symm.trans hs₀)
  have hI₀ : Inv cfg { s with stage := .joining [] } := ⟨hI.stages, hI.polled, hI.unused⟩
  obtain ⟨haside, hacceptor'⟩ := run_aside (fun _ => hI₀) (by simp) hr
  refine ⟨s', run_inv (fun _ => hI₀) hr hthere, hacceptor', hacceptor.trans hacceptor', hworld, ?_⟩
  refine haside.of_iff ?_
  simp only [Along, hs₀, Except.ok.injEq, forall_eq', NoClose, closes, true_and]

theorem settled_iff (hd : Destroys s during t) (hI : Inv cfg s) :
    Settled s t ↔ AtRest s ∧ Along step NoClose s (.destroy :: during) := by
  obtain ⟨s', hI', -, hacceptor, hworld, haside⟩ := hd.aside hI
  have htasks := haside.removals_iff
  have hchannels := haside.channels_iff hI'.stages hI'.polled
  have hestablished := haside.established_iff hI.stages hI'.stages
  rw [not_not] at htasks
  constructor
  · rintro ⟨⟨hlisten, hremovals⟩, hchan, hest⟩
    rw [hworld] at hremovals hchan hest
    rw [hacceptor] at hlisten
    obtain ⟨hremoved, halong⟩ := htasks.mp hremovals
    exact ⟨⟨hestablished.mp hest, hremoved, hlisten, hchannels.mp hchan⟩, halong⟩
  · rintro ⟨⟨hclosed, hremoved, hlisten, hunregistered⟩, halong⟩
    refine ⟨⟨by rw [hacceptor]; exact hlisten, ?_⟩, ?_, ?_⟩
    · rw [hworld]
      exact htasks.mpr ⟨hremoved, halong⟩
    · rw [hworld]
      exact hchannels.mpr hunregistered
    · rw [hworld]
      exact hestablished.mpr hclosed

/-- The teardown of a server that was never started. -/
theorem settled_of_idle (hd : Destroys s during t) (hI : Inv cfg s) (hidle : s.acceptor = .idle) :
    Settled s t := by
  obtain ⟨s', hI', hacceptor', hacceptor, hworld, -⟩ := hd.aside hI
  have hconns : ∀ id, s.world.conns id = none := (hI.unused (by rw [hidle]; simp)).conns hI.stages
  have hconns' : ∀ id, s'.world.conns id = none :=
    (hI'.unused (by rw [hacceptor', hidle]; simp)).conns hI'.stages
  refine ⟨⟨by rw [hacceptor, hidle]; simp, ?_⟩, ?_, ?_⟩
  · intro id hmem
    rw [hworld] at hmem
    obtain ⟨c, hc⟩ := hI'.stages.conn_of_pending hmem
    rw [hconns'] at hc
    exact absurd hc (by simp)
  · intro fd id ev c _ hc
    rw [hworld] at hc
    exact absurd hc (by simp [World.clearConnections, hconns'])
  · intro id c hc
    rw [hconns] at hc
    exact absurd hc (by simp)

open World (acceptToDestroyed echoConfig turn)

/-- The life of a connection, from `start` on the base loop's thread. -/
def startToDestroyed : List Act := .start (.loop baseLoop) :: acceptToDestroyed.map .world

/-- The worker comes back to its poll and is joined. -/
def joinIdleWorker : List Act := [.world (turn 1 [] none), .join 1]

theorem startToDestroyed_run :
    ∃ s, run step (construct echoConfig) startToDestroyed = .ok s ∧
      (s.stage = .running ∧ s.acceptor = .listening ∧ s.world.accepted = 1 ∧
        (s.world.loops baseLoop).pending = [] ∧
        (s.world.conns 0).map (fun c => (c.state, c.loop)) = some (.disconnected, 1) ∧
        Along step NoClose s (.destroy :: joinIdleWorker)) ∧
      ∃ s', run step s (.destroy :: joinIdleWorker) = .ok s' ∧ s'.stage ≠ .destroyed ∧
        ∃ t, s'.step .finish = .ok t ∧ t.stage = .destroyed := by
  decide +kernel

/-- A connection is established on loop 1 and its worker has found it readable. -/
def startToReadable : List Act :=
  .start (.loop baseLoop) :: ([turn 0 [.acceptor] none, turn 0 [] none, turn 1 [] none, turn 1 [] none,
    turn 1 [] none, turn 1 [] none, turn 1 [.fd 7 .read] none].map .world)

/-- The worker reads the end of the stream, comes back to its poll and is joined. -/
def closeAndJoin : List Act :=
  [.world (turn 1 [] (some [])), .world (turn 1 [] none), .world (turn 1 [] none), .join 1]

theorem startToReadable_run :
    ∃ s, run step (construct echoConfig) startToReadable = .ok s ∧
      (s.stage = .running ∧ (s.world.conns 0).map (·.state) = some .connected) ∧
      ∃ s', run step s (.destroy :: closeAndJoin) = .ok s' ∧ s'.stage ≠ .destroyed ∧
        ∃ t, s'.step .finish = .ok t ∧ t.stage = .destroyed ∧
          .removeConnectionInLoop 0 ∈ (t.world.loops baseLoop).pending := by
  decide +kernel

end Lifetime

end HyperMuduo.Net.TcpServer
