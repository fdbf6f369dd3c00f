import Mathlib.Data.Int.CardIntervalMod
import HyperMuduo.Socket.InetAddress
import HyperMuduo.TcpServer.RoundRobin
import HyperMuduo.TcpServer.Polling

/-!
# From the listening socket to the workers

The kernel keeps the connections whose handshake is complete until `accept4` takes them, oldest first.
`Acceptor` listens for them on the base loop and takes one per event, with the peer's address;
`TcpServer` makes it a connection and gives it a loop; the rest is the server's world. `Intake` is that
world with the kernel's queue in front.

* `arrive` puts a connection on the queue, at any time. The poller reports the listening socket only
  while the queue is not empty, and once a poll (`Truthful`).
* `accept4` takes the oldest connection, or fails (`k.accepted = none`), as it does when the process is
  out of descriptors. `Socket::accept` logs that, and the callback does nothing.
* `peers` is a ghost: the address `accept4` wrote, for every connection the server made, by its number.
  `polls` counts the reports of the listening socket, `failed` the calls of `accept4` that failed.

**`intake_exact`**: no connection is lost, made twice or overtaken between the queue and `connections_`;
every report of the listening socket accepts one, unless `accept4` fails; connection number `id` lives on
the worker whose turn it is, so that no two workers were given numbers of connections that differ by more
than one.
-/

namespace HyperMuduo.Net.TcpServer

open HyperMuduo.Lib
open TcpConnection (Effect Handler ReadResult Result SendArg)

/-- The events of the listening socket that a batch of ready channels still has. -/
def Phase.acceptorEvents : Phase → Nat
  | .handling ready => ready.count .acceptor
  | _ => 0

namespace World

variable {s s' s₁ : World} {t : ThreadId} {id : Nat} {c c' : TcpConnection} {w : Int} {l : LoopId}

/-! ## What the rest of the server leaves alone -/

/-- From `s` to `s'` no connection is made or moved, the pool is the same, and so are the events of the
listening socket that are still to be handled. -/
structure Unmoved (s s' : World) : Prop where
  accepted : s'.accepted = s.accepted
  threadPool : s'.server.threadPool = s.server.threadPool
  loop : ∀ id c', s'.conns id = some c' → ∃ c, s.conns id = some c ∧ c'.loop = c.loop
  events : (s'.loops baseLoop).phase.acceptorEvents = (s.loops baseLoop).phase.acceptorEvents

theorem Unmoved.refl (s : World) : Unmoved s s := ⟨rfl, rfl, fun _ c h => ⟨c, h, rfl⟩, rfl⟩

theorem Unmoved.trans (h : Unmoved s s₁) (h' : Unmoved s₁ s') : Unmoved s s' where
  accepted := h'.accepted.trans h.accepted
  threadPool := h'.threadPool.trans h.threadPool
  loop := by
    intro id c' hc'
    obtain ⟨c₁, hc₁, hl₁⟩ := h'.loop id c' hc'
    obtain ⟨c, hc, hl⟩ := h.loop id c₁ hc₁
    exact ⟨c, hc, hl₁.trans hl⟩
  events := h'.events.trans h.events

theorem record_unmoved (s : World) (e : Entry) : Unmoved s (s.record e) :=
  ⟨rfl, rfl, fun _ c h => ⟨c, h, rfl⟩, rfl⟩

theorem setConn_unmoved (hc : s.conns id = some c) (hl : c'.loop = c.loop) :
    Unmoved s (s.setConn id c') := by
  refine ⟨rfl, rfl, ?_, rfl⟩
  intro i ci hci
  rcases update_some_inv hci with ⟨rfl, rfl⟩ | ⟨-, hold⟩
  · exact ⟨c, hc, hl⟩
  · exact ⟨ci, hold, rfl⟩

/-- A change of one loop that keeps the events of the listening socket. -/
theorem loops_unmoved {x : Loop}
    (hx : l = baseLoop → x.phase.acceptorEvents = (s.loops l).phase.acceptorEvents) :
    Unmoved s { s with loops := Function.update s.loops l x } := by
  refine ⟨rfl, rfl, fun _ c h => ⟨c, h, rfl⟩, ?_⟩
  change (Function.update s.loops l x baseLoop).phase.acceptorEvents = _
  by_cases hl : l = baseLoop
  · have hkeep := hx hl
    subst hl
    rw [Function.update_self]
    exact hkeep
  · rw [Function.update_of_ne (Ne.symm hl)]

theorem setPoller_unmoved (s : World) (l : LoopId) (ep : Epoller Nat) : Unmoved s (s.setPoller l ep) :=
  loops_unmoved fun _ => rfl

theorem queueInLoop_unmoved (s : World) (l : LoopId) (task : Task) : Unmoved s (s.queueInLoop l task) :=
  loops_unmoved fun _ => rfl

theorem removeConnectionInLoop_unmoved (he : s.removeConnectionInLoop t id = .ok s') : Unmoved s s' := by
  obtain ⟨_, -, he⟩ := bind_ok_inv he
  simp only at he
  split at he
  · exact absurd he (by simp)
  · obtain rfl := Except.ok.inj he
    refine Unmoved.trans ?_ (queueInLoop_unmoved _ _ _)
    exact ⟨rfl, rfl, fun _ c h => ⟨c, h, rfl⟩, rfl⟩

theorem removeConnection_unmoved (he : s.removeConnection t id = .ok s') : Unmoved s s' := by
  unfold removeConnection at he
  split at he
  · exact removeConnectionInLoop_unmoved he
  · obtain rfl := Except.ok.inj he
    exact queueInLoop_unmoved ..

theorem perform_unmoved {e : Effect} (he : s.perform t id c e = .ok s') : Unmoved s s' := by
  unfold perform at he
  refine (record_unmoved s (.effect id e)).trans ?_
  split at he
  · obtain ⟨_, -, he⟩ := bind_ok_inv he
    obtain rfl := Except.ok.inj he
    exact setPoller_unmoved ..
  · obtain ⟨_, -, he⟩ := bind_ok_inv he
    obtain rfl := Except.ok.inj he
    exact setPoller_unmoved ..
  · obtain rfl := Except.ok.inj he
    exact queueInLoop_unmoved ..
  · exact removeConnection_unmoved he
  · obtain rfl := Except.ok.inj he
    exact .refl _

theorem performAll_unmoved {es : List Effect} (he : performAll t id c s es = .ok s') : Unmoved s s' := by
  induction es generalizing s with
  | nil =>
    obtain rfl := Except.ok.inj he
    exact .refl s
  | cons e es ih =>
    obtain ⟨s₁, h1, h2⟩ := bind_ok_inv he
    exact (perform_unmoved h1).trans (ih h2)

theorem invoke_unmoved (hc : s.conns id = some c) {r : Result}
    (hr : ∀ {c' es}, r = .ok (c', es) → c'.wiring = c.wiring) (he : s.invoke t id r = .ok s') :
    Unmoved s s' := by
  obtain ⟨⟨c', es⟩, hok, he⟩ := bind_ok_inv he
  exact (setConn_unmoved hc (TcpConnection.wiring_loop (hr hok))).trans (performAll_unmoved he)

theorem executeConn_unmoved (hc : s.conns id = some c) {task : TcpConnection.Task}
    (he : s.executeConn t id c w task = .ok s') : Unmoved s s' := by
  cases task with
  | connectionEstablished =>
    refine (record_unmoved s _).trans (invoke_unmoved hc (fun hok => ?_) he)
    obtain ⟨-, -, rfl, -⟩ := TcpConnection.connectionEstablished_inv hok
    rfl
  | connectionDestroyed =>
    refine (record_unmoved s _).trans (invoke_unmoved hc (fun hok => ?_) he)
    obtain ⟨-, rfl, -⟩ := TcpConnection.connectionDestroyed_inv hok
    rfl
  | shutdownInLoop => exact invoke_unmoved hc TcpConnection.shutdownInLoop_wiring he
  | sendString msg =>
    exact invoke_unmoved hc (fun hok => (TcpConnection.sendArgInLoop_wiring hok).1) he
  | sendBuffer buf =>
    exact invoke_unmoved hc (fun hok => (TcpConnection.sendArgInLoop_wiring hok).1) he
  | sendPointer addr len =>
    exact invoke_unmoved hc (fun hok => (TcpConnection.sendArgInLoop_wiring hok).1) he
  | writeCompleteCallback =>
    obtain rfl := Except.ok.inj he
    exact .refl s
  | highWaterCallback =>
    obtain rfl := Except.ok.inj he
    exact .refl s

theorem execute_unmoved {task : Task} (he : s.execute t w task = .ok s') : Unmoved s s' := by
  cases task with
  | conn id task =>
    simp only [execute] at he
    split at he
    · exact absurd he (by simp)
    · rename_i c hc
      exact executeConn_unmoved hc he
  | removeConnectionInLoop id => exact removeConnectionInLoop_unmoved he

theorem runHandlers_unmoved {r : ReadResult} {hs : List Handler}
    (he : s.runHandlers t id r w hs = .ok s') : Unmoved s s' := by
  induction hs generalizing s with
  | nil =>
    obtain rfl := Except.ok.inj he
    exact .refl s
  | cons h hs ih =>
    unfold runHandlers at he
    split at he
    · exact absurd he (by simp)
    · rename_i c hc
      simp only at he
      obtain ⟨s₁, h1, h2⟩ := bind_ok_inv he
      refine Unmoved.trans ?_ (ih h2)
      split at h1
      · exact (record_unmoved s _).trans (invoke_unmoved hc TcpConnection.runHandler_wiring h1)
      · exact invoke_unmoved hc TcpConnection.runHandler_wiring h1

theorem handle_channel_unmoved {k : Kernel} {revents : PollEvents}
    (he : s.handle t k (.channel id revents) = .ok s') : Unmoved s s' := by
  simp only [handle] at he
  split at he
  · exact absurd he (by simp)
  · rename_i c hc
    have h₁ : Unmoved s (s.setConn id { c with channel := c.channel.setReturnEvents revents }) :=
      setConn_unmoved hc rfl
    exact h₁.trans (runHandlers_unmoved he)

theorem send_unmoved {arg : SendArg} (he : s.step (.send t id arg w) = .ok s') : Unmoved s s' := by
  simp only [step] at he
  split at he
  · obtain rfl := Except.ok.inj he
    exact .refl s
  · rename_i c hc
    refine invoke_unmoved hc (fun hok => ?_) he
    rcases TcpConnection.send_inv hok with ⟨-, rfl, -⟩ | ⟨-, -, hcall⟩ | ⟨-, -, rfl, -⟩
    · rfl
    · exact (TcpConnection.sendArgInLoop_wiring hcall).1
    · rfl

theorem shutdown_unmoved (he : s.step (.shutdown t id) = .ok s') : Unmoved s s' := by
  simp only [step] at he
  split at he
  · obtain rfl := Except.ok.inj he
    exact .refl s
  · rename_i c hc
    refine invoke_unmoved hc (fun hok => ?_) he
    rcases TcpConnection.shutdown_inv hok with ⟨-, rfl, -⟩ | ⟨-, rfl, -⟩ <;> rfl

/-- A step of a loop leaves the intake alone, is `poll` on the base loop, or takes an event of the
listening socket there. -/
inductive LoopMove (s : World) (l : LoopId) (k : Kernel) (s' : World) : Prop where
  | unmoved (h : Unmoved s s') (hpoll : l = baseLoop → (s.loops l).phase ≠ .polling)
    (haccept : ∀ xs, (s.loops l).phase ≠ .handling (.acceptor :: xs))
  | poll (hl : l = baseLoop) (hp : (s.loops l).phase = .polling)
    (h : s' = s.setPhase l (.handling (s.poll l k.reports)))
  | failed (hl : l = baseLoop) (xs : List Ready) (hp : (s.loops l).phase = .handling (.acceptor :: xs))
    (hk : k.accepted = none) (h : s' = s.setPhase l (.handling xs))
  | accepted (hl : l = baseLoop) (xs : List Ready) (fd : Int)
    (hp : (s.loops l).phase = .handling (.acceptor :: xs)) (hk : k.accepted = some fd)
    (h : (s.setPhase l (.handling xs)).newConnection (.loop l) fd k.written = .ok s')

theorem loopStep_move {k : Kernel} (he : s.loopStep l k = .ok s') : LoopMove s l k s' := by
  unfold loopStep at he
  split at he
  · rename_i hp
    obtain rfl := Except.ok.inj he
    by_cases hl : l = baseLoop
    · exact .poll hl hp rfl
    · exact .unmoved (loops_unmoved fun h => absurd h hl) (fun h => absurd h hl)
        (fun xs hx => by rw [hp] at hx; exact absurd hx (by simp))
  · rename_i x xs hp
    cases x with
    | acceptor =>
      obtain ⟨_, hin, he⟩ := bind_ok_inv he
      obtain rfl : l = baseLoop := by
        have hthread := eq_loop (assert_inv hin)
        exact ThreadId.loop.inj hthread
      split at he
      · rename_i hk
        obtain rfl := Except.ok.inj he
        exact .failed rfl xs hp hk rfl
      · rename_i fd hk
        exact .accepted rfl xs fd hp hk he
    | channel id revents =>
      have hphase : Unmoved s (s.setPhase l (.handling xs)) := by
        refine loops_unmoved fun _ => ?_
        rw [hp]
        exact (List.count_cons_of_ne (by simp)).symm
      exact .unmoved (hphase.trans (handle_channel_unmoved he)) (fun _ => by rw [hp]; simp)
        (fun ys hy => by rw [hp] at hy; exact absurd hy (by simp))
  · rename_i hp
    obtain rfl := Except.ok.inj he
    exact .unmoved (loops_unmoved fun _ => by rw [hp]; rfl) (fun _ => by rw [hp]; simp)
      (fun ys hy => by rw [hp] at hy; exact absurd hy (by simp))
  · rename_i task tasks hp
    have hphase : Unmoved s (s.setPhase l (.executing tasks)) := loops_unmoved fun _ => by rw [hp]; rfl
    exact .unmoved (hphase.trans (execute_unmoved he)) (fun _ => by rw [hp]; simp)
      (fun ys hy => by rw [hp] at hy; exact absurd hy (by simp))
  · rename_i hp
    obtain rfl := Except.ok.inj he
    exact .unmoved (loops_unmoved fun _ => by rw [hp]; rfl) (fun _ => by rw [hp]; simp)
      (fun ys hy => by rw [hp] at hy; exact absurd hy (by simp))

/-- Only reports of the listening socket become events of it. -/
theorem poll_acceptorEvents (s : World) (l : LoopId) (reports : List Report) :
    (s.poll l reports).count .acceptor ≤ reports.count .acceptor := by
  unfold World.poll
  split
  · rw [List.count_filterMap]
    refine List.countP_mono_left fun report _ hready => ?_
    cases report with
    | acceptor => rfl
    | fd fd revents =>
      simp only [readyOf] at hready
      split at hready
      · exact absurd hready (by simp)
      · split at hready <;> exact absurd hready (by simp)
  · exact Nat.zero_le _

/-- The connections a loop was given. -/
def load (s : World) (l : LoopId) : Nat :=
  Nat.count (fun id => (s.conns id).map (fun c => c.loop) = some l) s.accepted

end World

/-! ## The kernel's queue in front -/

structure Intake where
  world : World
  /-- The queue of the listening socket, the oldest connection first. -/
  backlog : List SockAddrIn
  arrived : List SockAddrIn
  peers : List SockAddrIn
  polls : Nat
  failed : Nat

inductive IntakeAct where
  | arrive (peer : SockAddrIn)
  | world (lb : Label)

/-- The loop whose connection number `id` is, of a server with `n` workers. -/
def loopOf (n id : Nat) : LoopId :=
  if n = 0 then baseLoop else 1 + EventLoopThreadPool.counter id % n

namespace World

/-- What `accept4` answers in a step that calls it. -/
def accepting (s : World) : Label → Option (Option Int)
  | .loop l k =>
    match (s.loops l).phase with
    | .handling (.acceptor :: _) => some k.accepted
    | _ => none
  | _ => none

/-- How often the listening socket is reported in a step. -/
def reported (s : World) : Label → Nat
  | .loop l k =>
    if l = baseLoop ∧ (s.loops l).phase = .polling then (s.poll l k.reports).count .acceptor else 0
  | _ => 0

end World

namespace Intake

def start (cfg : Config) : Intake := ⟨.start cfg, [], [], [], 0, 0⟩

def step (s : Intake) : IntakeAct → Except Fault Intake
  | .arrive peer => .ok { s with backlog := s.backlog ++ [peer], arrived := s.arrived ++ [peer] }
  | .world lb => do
    let world ← s.world.step lb
    let s' := { s with world := world, polls := s.polls + s.world.reported lb }
    match s.world.accepting lb with
    | some (some _) =>
      return { s' with backlog := s.backlog.drop 1, peers := s.peers ++ s.backlog.take 1 }
    | some none => return { s' with failed := s.failed + 1 }
    | none => return s'

/-- The listening socket is reported only while connections wait, and once a poll. -/
def Truthful (s : Intake) : IntakeAct → Prop
  | .world (.loop l k) =>
    l = baseLoop → (s.world.loops l).phase = .polling →
      k.reports.count .acceptor ≤ 1 ∧ (.acceptor ∈ k.reports → s.backlog ≠ [])
  | _ => True

instance (s : Intake) : ∀ a, Decidable (s.Truthful a)
  | .world (.loop _ _) => inferInstanceAs (Decidable (_ → _ → _ ∧ (_ → _)))
  | .world (.send _ _ _ _) | .world (.shutdown _ _) | .world (.store _) | .arrive _ => isTrue trivial

/-- The events of the listening socket that the base loop has still to handle. -/
def events (s : Intake) : Nat := (s.world.loops baseLoop).phase.acceptorEvents

/-- The invariant. -/
structure Exact (cfg : Config) (s : Intake) : Prop where
  inv : World.Inv cfg s.world none
  queue : s.arrived = s.peers ++ s.backlog
  made : s.peers.length = s.world.accepted
  pool : s.world.server.threadPool =
    ⟨cfg.threadNum, if cfg.threadNum = 0 then 0 else toInt32 s.world.accepted⟩
  placed : ∀ id c, s.world.conns id = some c → c.loop = loopOf cfg.threadNum id
  polls : s.world.accepted + s.failed + s.events = s.polls
  waiting : s.events ≤ 1 ∧ (0 < s.events → s.backlog ≠ [])

variable {cfg : Config} {s s' : Intake} {w w' : World}

/-- A step of the world that leaves the intake alone. -/
theorem Exact.unmoved (h : Exact cfg s) (hinv : World.Inv cfg w none) (ha : World.Unmoved s.world w) :
    Exact cfg { s with world := w, polls := s.polls + 0 } := by
  have hevents : ({ s with world := w, polls := s.polls + 0 } : Intake).events = s.events := ha.events
  refine ⟨hinv, h.queue, h.made.trans ha.accepted.symm, ?_, ?_, ?_, ?_⟩
  · exact ha.threadPool.trans (ha.accepted.symm ▸ h.pool)
  · intro id c hc
    obtain ⟨c₀, hc₀, hl⟩ := ha.loop id c hc
    exact hl.trans (h.placed id c₀ hc₀)
  · rw [hevents]
    change w.accepted + _ + _ = _
    rw [ha.accepted]
    exact h.polls
  · rw [hevents]
    exact h.waiting

/-- **The new-connection callback** gives the connection its loop, and the next one the next. -/
theorem newConnection_placed {n : Nat} {t : ThreadId} {fd a : Int}
    (hpool : w.server.threadPool = ⟨n, if n = 0 then 0 else toInt32 w.accepted⟩)
    (hplaced : ∀ id c, w.conns id = some c → c.loop = loopOf n id)
    (he : w.newConnection t fd a = .ok w') :
    w'.accepted = w.accepted + 1 ∧
      w'.server.threadPool = ⟨n, if n = 0 then 0 else toInt32 (w.accepted + 1)⟩ ∧
      (∀ id c, w'.conns id = some c → c.loop = loopOf n id) ∧
      (w'.loops baseLoop).phase.acceptorEvents = (w.loops baseLoop).phase.acceptorEvents := by
  have hnext : w.server.threadPool.getNextLoop =
      (loopOf n w.accepted, ⟨n, if n = 0 then 0 else toInt32 (w.accepted + 1)⟩) := by
    rw [hpool]
    unfold loopOf
    by_cases hn : n = 0
    · rw [if_pos hn, if_pos hn, if_pos hn]
      exact if_pos hn
    · rw [if_neg hn, if_neg hn, if_neg hn]
      exact EventLoopThreadPool.getNextLoop_toInt32 (Nat.pos_of_ne_zero hn) _
  obtain ⟨_, -, he⟩ := bind_ok_inv he
  have hrest : World.Unmoved (w.addConnection fd) w' := by
    unfold World.runInLoop at he
    split at he
    · exact World.execute_unmoved he
    · obtain rfl := Except.ok.inj he
      exact World.queueInLoop_unmoved ..
  have hconns : (w.addConnection fd).conns = Function.update w.conns w.accepted
      (some (w.server.newTcpConnection w.accepted w.server.threadPool.getNextLoop.1 fd)) := rfl
  have hpool' : (w.addConnection fd).server.threadPool = w.server.threadPool.getNextLoop.2 := rfl
  rw [hnext] at hconns hpool'
  refine ⟨hrest.accepted, hrest.threadPool.trans hpool', ?_, hrest.events⟩
  intro id c' hc'
  obtain ⟨c, hc, hl⟩ := hrest.loop id c' hc'
  rw [hconns] at hc
  rw [hl]
  rcases update_some_inv hc with ⟨rfl, rfl⟩ | ⟨-, hold⟩
  · rfl
  · exact hplaced id c hold

theorem setPhase_events (w : World) (p : Phase) :
    ((w.setPhase baseLoop p).loops baseLoop).phase.acceptorEvents = p.acceptorEvents := by
  simp [World.setPhase]

/-- A poll of the base loop. -/
theorem Exact.poll (h : Exact cfg s) {k : Kernel} (hp : (s.world.loops baseLoop).phase = .polling)
    (htrue : s.Truthful (.world (.loop baseLoop k)))
    (hinv : World.Inv cfg
      (s.world.setPhase baseLoop (.handling (s.world.poll baseLoop k.reports))) none) :
    Exact cfg { s with
      world := s.world.setPhase baseLoop (.handling (s.world.poll baseLoop k.reports))
      polls := s.polls + (s.world.poll baseLoop k.reports).count .acceptor } := by
  obtain ⟨honce, hwaits⟩ := htrue rfl hp
  have hnone : s.events = 0 := by
    unfold events
    rw [hp]
    rfl
  have hevents := setPhase_events s.world (.handling (s.world.poll baseLoop k.reports))
  have hpolls := h.polls
  rw [hnone] at hpolls
  refine ⟨hinv, h.queue, h.made, h.pool, h.placed, ?_, ?_⟩
  · unfold events
    rw [hevents]
    change s.world.accepted + s.failed + (s.world.poll baseLoop k.reports).count .acceptor = _
    dsimp only
    omega
  · unfold events
    rw [hevents]
    refine ⟨Nat.le_trans (World.poll_acceptorEvents ..) honce, fun hpos => hwaits ?_⟩
    exact (World.acceptor_of_poll (List.count_pos_iff.mp hpos)).2

/-- `accept4` fails. -/
theorem Exact.fail (h : Exact cfg s) {xs : List Ready}
    (hp : (s.world.loops baseLoop).phase = .handling (.acceptor :: xs))
    (hinv : World.Inv cfg (s.world.setPhase baseLoop (.handling xs)) none) :
    Exact cfg { s with
      world := s.world.setPhase baseLoop (.handling xs)
      polls := s.polls + 0
      failed := s.failed + 1 } := by
  have hbefore : s.events = xs.count .acceptor + 1 := by
    unfold events
    rw [hp]
    exact List.count_cons_self
  have hevents := setPhase_events s.world (.handling xs)
  have hpolls := h.polls
  have hwaiting := h.waiting
  rw [hbefore] at hpolls hwaiting
  refine ⟨hinv, h.queue, h.made, h.pool, h.placed, ?_, ?_⟩
  · unfold events
    rw [hevents]
    change s.world.accepted + (s.failed + 1) + xs.count .acceptor = s.polls + 0
    omega
  · unfold events
    rw [hevents]
    exact ⟨Nat.le_trans (Nat.le_succ _) hwaiting.1, fun _ => hwaiting.2 (Nat.succ_pos _)⟩

/-- `accept4` takes the oldest connection. -/
theorem Exact.accept (h : Exact cfg s) {xs : List Ready} {fd a : Int} {t : ThreadId}
    (hp : (s.world.loops baseLoop).phase = .handling (.acceptor :: xs))
    (he : (s.world.setPhase baseLoop (.handling xs)).newConnection t fd a = .ok w')
    (hinv : World.Inv cfg w' none) :
    Exact cfg { s with
      world := w'
      polls := s.polls + 0
      backlog := s.backlog.drop 1
      peers := s.peers ++ s.backlog.take 1 } := by
  have hbefore : s.events = xs.count .acceptor + 1 := by
    unfold events
    rw [hp]
    exact List.count_cons_self
  have hpolls := h.polls
  obtain ⟨honce, hwaits⟩ := h.waiting
  rw [hbefore] at hpolls honce
  obtain ⟨haccepted, hpool, hplaced, hafter⟩ := newConnection_placed
    (w := s.world.setPhase baseLoop (.handling xs)) h.pool h.placed he
  rw [setPhase_events] at hafter
  change w'.accepted = s.world.accepted + 1 at haccepted
  change xs.count .acceptor + 1 ≤ 1 at honce
  have hafter : (w'.loops baseLoop).phase.acceptorEvents = 0 := by
    rw [hafter]
    change xs.count .acceptor = 0
    omega
  have hone : (s.backlog.take 1).length = 1 := by
    have hne := List.length_pos_of_ne_nil (hwaits (by rw [hbefore]; exact Nat.succ_pos _))
    rw [List.length_take]
    omega
  refine ⟨hinv, ?_, ?_, ?_, hplaced, ?_, ?_⟩
  · rw [h.queue, List.append_assoc, List.take_append_drop]
  · rw [List.length_append, hone, haccepted, h.made]
  · rw [haccepted]
    exact hpool
  · unfold events
    rw [hafter, haccepted]
    dsimp only
    omega
  · unfold events
    rw [hafter]
    exact ⟨Nat.zero_le _, fun hpos => absurd hpos (Nat.lt_irrefl 0)⟩

theorem step_exact {a : IntakeAct} (h : Exact cfg s) (htrue : s.Truthful a) (he : s.step a = .ok s') :
    Exact cfg s' := by
  cases a with
  | arrive peer =>
    obtain rfl := Except.ok.inj he
    refine ⟨h.inv, ?_, h.made, h.pool, h.placed, h.polls, h.waiting.1, fun _ => by simp⟩
    exact (congrArg (· ++ [peer]) h.queue).trans (List.append_assoc ..)
  | world lb =>
    obtain ⟨w', hw, he⟩ := bind_ok_inv he
    have hinv := (World.step_inv h.inv hw).1
    -- a step that neither polls on the base loop nor accepts
    have hunmoved : World.Unmoved s.world w' → s.world.reported lb = 0 → s.world.accepting lb = none →
        Exact cfg s' := by
      intro ha hpoll haccept
      simp only [hpoll, haccept] at he
      obtain rfl := Except.ok.inj he
      exact h.unmoved hinv ha
    cases lb with
    | loop l k =>
      cases World.loopStep_move hw with
      | unmoved ha hpoll haccept =>
        refine hunmoved ha (if_neg fun hx => hpoll hx.1 hx.2) ?_
        simp only [World.accepting]
      | poll hl hp hw' =>
        subst hl
        subst hw'
        have hreported : s.world.reported (.loop baseLoop k) =
            (s.world.poll baseLoop k.reports).count .acceptor := if_pos ⟨rfl, hp⟩
        have haccepting : s.world.accepting (.loop baseLoop k) = none := by
          simp only [World.accepting, hp]
        simp only [hreported, haccepting] at he
        obtain rfl := Except.ok.inj he
        exact h.poll hp htrue hinv
      | failed hl xs hp hk hw' =>
        subst hl
        subst hw'
        have hreported : s.world.reported (.loop baseLoop k) = 0 :=
          if_neg fun hx => absurd (hp.symm.trans hx.2) (by simp)
        have haccepting : s.world.accepting (.loop baseLoop k) = some none := by
          simp only [World.accepting, hp, hk]
        simp only [hreported, haccepting] at he
        obtain rfl := Except.ok.inj he
        exact h.fail hp hinv
      | accepted hl xs fd hp hk hw' =>
        subst hl
        have hreported : s.world.reported (.loop baseLoop k) = 0 :=
          if_neg fun hx => absurd (hp.symm.trans hx.2) (by simp)
        have haccepting : s.world.accepting (.loop baseLoop k) = some (some fd) := by
          simp only [World.accepting, hp, hk]
        simp only [hreported, haccepting] at he
        obtain rfl := Except.ok.inj he
        exact h.accept hp hw' hinv
    | send t id arg a => exact hunmoved (World.send_unmoved hw) rfl rfl
    | shutdown t id => exact hunmoved (World.shutdown_unmoved hw) rfl rfl
    | store m =>
      obtain rfl := Except.ok.inj hw
      exact hunmoved ⟨rfl, rfl, fun _ c h => ⟨c, h, rfl⟩, rfl⟩ rfl rfl

theorem start_exact (cfg : Config) : Exact cfg (start cfg) where
  inv := World.start_inv cfg
  queue := rfl
  made := rfl
  pool := by
    split
    · rfl
    · exact congrArg (EventLoopThreadPool.mk _) (toInt32_of_lt (by decide)).symm
  placed := fun id c hc => absurd hc (by simp [start, World.start])
  polls := rfl
  waiting := ⟨Nat.zero_le _, fun hpos => absurd hpos (Nat.lt_irrefl 0)⟩

/-! ## The load of the workers -/

/-- A worker was given every `n`-th connection. -/
theorem load_eq (h : Exact cfg s) (hn : 0 < cfg.threadNum) (hfew : s.world.accepted ≤ 2 ^ 31) {l : Nat}
    (hl : l < cfg.threadNum) :
    s.world.load (1 + l) =
      s.world.accepted / cfg.threadNum + if l < s.world.accepted % cfg.threadNum then 1 else 0 := by
  have hcount := Nat.count_modEq_card s.world.accepted hn l
  rw [Nat.mod_eq_of_lt hl] at hcount
  rw [← hcount]
  have hiff : ∀ id < s.world.accepted,
      ((s.world.conns id).map (fun c => c.loop) = some (1 + l) ↔ id ≡ l [MOD cfg.threadNum]) := by
    intro id hid
    obtain ⟨c, hc, -⟩ := h.inv.conn id hid
    have hcounter : EventLoopThreadPool.counter id = id := by
      rw [EventLoopThreadPool.counter_eq, Nat.mod_eq_of_lt (by omega), if_pos (by omega)]
    have hloop : c.loop = 1 + id % cfg.threadNum := by
      rw [h.placed id c hc, loopOf, if_neg (Nat.ne_of_gt hn), hcounter]
    rw [hc, Option.map_some, hloop, Option.some.injEq, Nat.add_left_cancel_iff, Nat.ModEq,
      Nat.mod_eq_of_lt hl]
  exact Nat.le_antisymm (Nat.count_mono_left fun id hid => (hiff id hid).mp)
    (Nat.count_mono_left fun id hid => (hiff id hid).mpr)

/-- What holds between the listening socket and the workers. -/
structure InOrder (cfg : Config) (s : Intake) : Prop where
  /-- The connections the server made, in the order of their numbers, and behind them the queue. -/
  queue : s.arrived = s.peers ++ s.backlog
  made : s.peers.length = s.world.accepted
  /-- A report of the listening socket accepts one, or `accept4` fails, or that is still to come. -/
  polls : s.world.accepted + s.failed + s.events = s.polls
  /-- `accept4` is only called while a connection waits. -/
  waiting : s.events ≤ 1 ∧ (0 < s.events → s.backlog ≠ [])
  placed : ∀ id < s.world.accepted, ∃ c, s.world.conns id = some c ∧
    c.name = connectionName cfg.serverName (toInt32 (id + 1)) ∧ c.loop = loopOf cfg.threadNum id
  even : s.world.accepted ≤ 2 ^ 31 → ∀ l < cfg.threadNum, ∀ l' < cfg.threadNum,
    s.world.load (1 + l) ≤ s.world.load (1 + l') + 1

/-- **From the listening socket to the workers.** Whatever the loops, the peers and the users do, the
connections become connections of the server in the order they arrived, none lost and none twice, one
for every report of the listening socket that `accept4` does not fail; and they are dealt to the workers
in turn. -/
theorem intake_exact {acts : List IntakeAct} (htrue : Along step Truthful (start cfg) acts)
    (h : run step (start cfg) acts = .ok s) : InOrder cfg s := by
  have hx := run_invariant (I := Exact cfg) (P := Truthful) step_exact (start_exact cfg) htrue h
  refine ⟨hx.queue, hx.made, hx.polls, hx.waiting, ?_, ?_⟩
  · intro id hid
    obtain ⟨c, hc, hwired, -⟩ := hx.inv.conn id hid
    exact ⟨c, hc, hwired.name, hx.placed id c hc⟩
  · intro hfew l hl l' hl'
    have hn : 0 < cfg.threadNum := Nat.lt_of_le_of_lt (Nat.zero_le _) hl
    rw [load_eq hx hn hfew hl, load_eq hx hn hfew hl']
    split <;> split <;> omega

def twoWorkers : Config where
  serverName := "echo"
  connectionCallback := false
  messageCallback := false
  writeCompleteCallback := false
  highWatermarkCallback := false
  highWaterMark := 0
  threadNum := 2

/-- A peer on the loopback address. -/
def peerOn (port : UInt16) : SockAddrIn := ⟨afInet, htons port, ⟨127, 0, 0, 1⟩⟩

/-- A round of the base loop that finds the listening socket ready. -/
def acceptRound (fd : Option Int) : List IntakeAct :=
  [.world (.loop baseLoop ⟨[.acceptor], none, none, 0⟩), .world (.loop baseLoop ⟨[], fd, none, 0⟩),
    .world (.loop baseLoop ⟨[], none, none, 0⟩), .world (.loop baseLoop ⟨[], none, none, 0⟩)]

/-- Two connections arrive; the process is out of descriptors when the second one is to be accepted, and
accepts it in the next round. -/
def outOfDescriptors : List IntakeAct :=
  [.arrive (peerOn 4000), .arrive (peerOn 4001)] ++ acceptRound (some 7) ++ acceptRound none ++
    acceptRound (some 8)

theorem intake_exact_outOfDescriptors :
    ∃ s, run step (start twoWorkers) outOfDescriptors = .ok s ∧ s.world.accepted = 2 ∧
      s.failed = 1 ∧ s.polls = 3 ∧ InOrder twoWorkers s := by
  obtain ⟨s, hrun, haccepted, hfailed, hpolls⟩ :
      ∃ s, run step (start twoWorkers) outOfDescriptors = .ok s ∧ s.world.accepted = 2 ∧
        s.failed = 1 ∧ s.polls = 3 := by decide +kernel
  have htrue : Along step Truthful (start twoWorkers) outOfDescriptors := by decide +kernel
  exact ⟨s, hrun, haccepted, hfailed, hpolls, intake_exact htrue hrun⟩

end Intake

end HyperMuduo.Net.TcpServer
