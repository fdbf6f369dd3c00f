import HyperMuduo.TcpServer.NoAbort
import Mathlib.Tactic.IntervalCases

/-!
# The life cycle of a server's connections

`server_lifecycle`: in every reachable state of a server with any number of worker loops, every
connection was established and destroyed at most once and on its own loop, `connections_` holds the
connections that have not been removed, under distinct names, callbacks come in their order, and no
next step aborts. The stages (`Inv`), the pollers (`Polled`) and the order of the callbacks in the log
(`History`) are one invariant over the runs of the server.
-/

namespace HyperMuduo.Net.TcpServer

open HyperMuduo.Lib

/-- The threads on which a function of the life cycle was entered for a connection. -/
def calls (m : Member) (id : Nat) (log : List Entry) : List ThreadId :=
  log.filterMap fun
    | .called m' t i => if m' = m ∧ i = id then some t else none
    | .effect _ _ => none

theorem mem_milestones {id : Nat} {log : List Entry} {m : Member} {t : ThreadId} :
    (m, t) ∈ milestones id log ↔ .called m t id ∈ log := by
  unfold milestones
  rw [List.mem_filterMap]
  constructor
  · rintro ⟨e, hmem, he⟩
    cases e with
    | called m' t' i =>
      simp only at he
      split at he
      · rename_i hi
        subst hi
        obtain ⟨rfl, rfl⟩ := Prod.mk.inj (Option.some.inj he)
        exact hmem
      · exact absurd he (by simp)
    | effect i e => exact absurd he (by simp)
  · intro hmem
    exact ⟨_, hmem, if_pos rfl⟩

/-- The calls of one function, from all the milestones. -/
theorem calls_eq (m : Member) (id : Nat) (log : List Entry) :
    calls m id log = (milestones id log).filterMap fun p => if p.1 = m then some p.2 else none := by
  unfold calls milestones
  rw [List.filterMap_filterMap]
  congr 1
  funext e
  cases e with
  | called m' t i =>
    by_cases hi : i = id
    · simp [hi]
    · simp [hi]
  | effect i e => rfl

/-- In the life cycle a function has at most one place. -/
theorem script_calls (l : LoopId) {n : Nat} (hn : n ≤ 4) (m : Member) :
    (((script l).take n).filterMap fun p => if p.1 = m then some p.2 else none) = [] ∨
      (((script l).take n).filterMap fun p => if p.1 = m then some p.2 else none) =
        [if m = .removeConnectionInLoop then .loop baseLoop else .loop l] := by
  interval_cases n <;> cases m <;> simp [script]

/-- `removeConnectionInLoop` is the third function. -/
theorem script_removed (l : LoopId) {n : Nat} (hn : n ≤ 4) :
    (((script l).take n).filterMap
      fun p => if p.1 = Member.removeConnectionInLoop then some p.2 else none) = [] ↔ n < 3 := by
  interval_cases n <;> simp [script]

/-- What comes before `connectionDestroyed` has `handleClose` in it. -/
theorem script_destroyed {l : LoopId} {n : Nat} {before after : List (Member × ThreadId)}
    {t : ThreadId} (h : (script l).take n = before ++ (.connectionDestroyed, t) :: after) :
    (Member.handleClose, ThreadId.loop l) ∈ before := by
  have hfull : script l = before ++ (.connectionDestroyed, t) :: (after ++ (script l).drop n) := by
    rw [← List.cons_append, ← List.append_assoc, ← h, List.take_append_drop]
  generalize after ++ (script l).drop n = rest at hfull
  unfold script at hfull
  rcases before with _ | ⟨a, _ | ⟨b, before⟩⟩
  · simp at hfull
  · simp at hfull
  · simp only [List.cons_append, List.cons.injEq] at hfull
    rw [← hfull.2.1]
    simp

namespace World

variable {cfg : Config} {s s' : World}

/-! ## The order of the callbacks -/

/-- A message callback comes while the connection is established and not closed, and after the
connection callback. -/
def MessageOk (cfg : Config) (before : List Entry) (e : Entry) : Prop :=
  ∀ id, e = .effect id .messageCallback →
    (∃ l, milestones id before = (script l).take 1) ∧
      (cfg.connectionCallback = true → .effect id (.connectionCallback true) ∈ before)

/-- The order of the callbacks in the log. -/
structure History (cfg : Config) (s : World) : Prop where
  notified : ∀ t id, .called .connectionEstablished t id ∈ s.log → cfg.connectionCallback = true →
    .effect id (.connectionCallback true) ∈ s.log
  messages : Justified (MessageOk cfg) s.log

theorem messageOk_of_quiet {before : List Entry} {e : Entry} (h : e.quiet = true) :
    MessageOk cfg before e := by
  rintro id rfl
  exact absurd h (by simp [Entry.quiet])

theorem History.append_quiet (h : History cfg s) {new : List Entry}
    (hnew : new.all Entry.quiet = true) (hlog : s'.log = s.log ++ new) : History cfg s' := by
  rw [List.all_eq_true] at hnew
  refine ⟨?_, ?_⟩
  · intro t id hmem hcb
    rw [hlog] at hmem ⊢
    rcases List.mem_append.mp hmem with hold | hin
    · exact List.mem_append_left _ (h.notified t id hold hcb)
    · exact absurd (hnew _ hin) (by simp [Entry.quiet])
  · rw [hlog]
    refine h.messages.append ?_
    intro before e after heq
    exact messageOk_of_quiet (hnew e (by rw [heq]; simp))

theorem History.append_established (h : History cfg s) {t : ThreadId} {id : Nat} {rest : List Entry}
    (hrest : rest.all Entry.quiet = true)
    (hnotice : cfg.connectionCallback = true → .effect id (.connectionCallback true) ∈ rest)
    (hlog : s'.log = s.log ++ .called .connectionEstablished t id :: rest) : History cfg s' := by
  rw [List.all_eq_true] at hrest
  refine ⟨?_, ?_⟩
  · intro t' id' hmem hcb
    rw [hlog] at hmem ⊢
    rcases List.mem_append.mp hmem with hold | hin
    · exact List.mem_append_left _ (h.notified t' id' hold hcb)
    · rcases List.mem_cons.mp hin with heq | hin
      · obtain ⟨-, -, rfl⟩ := Entry.called.inj heq
        exact List.mem_append_right _ (List.mem_cons_of_mem _ (hnotice hcb))
      · exact absurd (hrest _ hin) (by simp [Entry.quiet])
  · rw [hlog]
    refine h.messages.append ?_
    intro before e after heq
    cases before with
    | nil =>
      obtain ⟨rfl, -⟩ := List.cons.inj heq
      rintro i hi
      exact absurd hi (by simp)
    | cons x before =>
      obtain ⟨-, hrest'⟩ := List.cons.inj heq
      exact messageOk_of_quiet (hrest e (by rw [hrest']; simp))

/-- A message was read: the poller had reported it to an open connection. -/
theorem History.append_message (h : History cfg s) (hI : Inv cfg s none) (hP : Polled s none)
    {l : LoopId} {id : Nat} {revents : PollEvents} {ready : List Ready}
    (hready : (s.loops l).phase = .handling (.channel id revents :: ready))
    (hread : revents.pollin = true ∨ revents.pollpri = true ∨ revents.pollrdhup = true)
    (hlog : s'.log = s.log ++ [.effect id .messageCallback]) : History cfg s' := by
  obtain ⟨c, hc, -, ho⟩ := (hP.ready l _ hready).2 id revents List.mem_cons_self
  have hopen := ho (by unfold PollEvents.reads; rcases hread with h | h | h <;> simp [h])
  obtain ⟨-, n, hat⟩ := hI.at hc
  obtain rfl := stateAt_open hat.state hopen
  have hest : .called .connectionEstablished (.loop c.loop) id ∈ s.log := by
    rw [← mem_milestones, hat.log]
    exact List.mem_cons_self
  refine ⟨?_, ?_⟩
  · intro t i hmem hcb
    rw [hlog] at hmem ⊢
    rcases List.mem_append.mp hmem with hold | hin
    · exact List.mem_append_left _ (h.notified t i hold hcb)
    · exact absurd (List.mem_singleton.mp hin) (by simp)
  · rw [hlog]
    refine h.messages.append ?_
    intro before e after heq
    cases before with
    | nil =>
      obtain ⟨rfl, -⟩ := List.cons.inj heq
      intro i hi
      obtain ⟨rfl, -⟩ := Entry.effect.inj hi
      rw [List.append_nil]
      exact ⟨⟨c.loop, hat.log⟩, h.notified _ _ hest⟩
    | cons x before =>
      obtain ⟨-, hnil⟩ := List.cons.inj heq
      exact absurd hnil (by simp)

theorem step_history {lb : Label} (hI : Inv cfg s none) (hP : Polled s none) (hH : History cfg s)
    (he : s.step lb = .ok s') : History cfg s' := by
  obtain ⟨-, new, hlog, hnew⟩ := step_inv hI he
  cases hnew with
  | call hcall =>
    cases hcall with
    | quiet hquiet => exact hH.append_quiet hquiet hlog
    | established t id rest heq hrest hnotice =>
      subst heq
      exact hH.append_established hrest hnotice hlog
  | message l id revents ready heq hready hread =>
    subst heq
    exact hH.append_message hI hP hready hread hlog

theorem start_history (cfg : Config) : History cfg (start cfg) where
  notified := fun _ _ hmem => absurd hmem List.not_mem_nil
  messages := justified_nil _

/-- The three invariants, in every reachable state. -/
theorem reachable_invariants (h : Reachable cfg s) : Inv cfg s none ∧ Polled s none ∧ History cfg s := by
  obtain ⟨labels, hr⟩ := h
  refine run_preserves (I := fun s => Inv cfg s none ∧ Polled s none ∧ History cfg s) ?_
    ⟨start_inv cfg, start_polled cfg, start_history cfg⟩ hr
  rintro s lb s' ⟨hI, hP, hH⟩ he
  exact ⟨(step_inv hI he).1, step_polled hP hI he, step_history hI hP hH he⟩

/-! ## The life cycle -/

/-- What the life cycle of a server's connections promises. -/
structure LifeCycle (cfg : Config) (s : World) : Prop where
  /-- A connection is established at most once, on its own loop's thread. -/
  established : ∀ id c, s.conns id = some c →
    calls .connectionEstablished id s.log = [] ∨
      calls .connectionEstablished id s.log = [.loop c.loop]
  /-- It is destroyed at most once, on its own loop's thread. -/
  destroyed : ∀ id c, s.conns id = some c →
    calls .connectionDestroyed id s.log = [] ∨ calls .connectionDestroyed id s.log = [.loop c.loop]
  /-- Names are pairwise distinct. -/
  names : ∀ i j ci cj, s.conns i = some ci → s.conns j = some cj → ci.name = cj.name → i = j
  /-- `connections_` holds the connections whose `removeConnectionInLoop` has not run. -/
  connections : ∀ name id, s.server.connections name = some id ↔
    ∃ c, s.conns id = some c ∧ c.name = name ∧ calls .removeConnectionInLoop id s.log = []
  /-- The connection callback comes before every message callback, which comes before `handleClose`. -/
  messages : ∀ before after id, s.log = before ++ .effect id .messageCallback :: after →
    (∃ t, .called .connectionEstablished t id ∈ before) ∧
      (cfg.connectionCallback = true → .effect id (.connectionCallback true) ∈ before) ∧
      ∀ t, .called .handleClose t id ∉ before
  /-- `connectionDestroyed` runs after `handleClose`. -/
  closed : ∀ before after t id, s.log = before ++ .called .connectionDestroyed t id :: after →
    ∃ t', .called .handleClose t' id ∈ before
  /-- No next step takes a branch that aborts. -/
  noAbort : ∀ lb, s.step lb ≠ .error .abort

theorem Inv.calls_once {hand : Option (LoopId × Task)} (h : Inv cfg s hand) {id : Nat}
    {c : TcpConnection} (hc : s.conns id = some c) (m : Member) :
    calls m id s.log = [] ∨
      calls m id s.log = [if m = .removeConnectionInLoop then .loop baseLoop else .loop c.loop] := by
  obtain ⟨-, n, hat⟩ := h.at hc
  rw [calls_eq, hat.log]
  exact script_calls c.loop hat.le m

theorem Inv.connections_iff {hand : Option (LoopId × Task)} (h : Inv cfg s hand)
    (hfew : s.accepted < 2 ^ 31) (name : String) (id : Nat) :
    s.server.connections name = some id ↔
      ∃ c, s.conns id = some c ∧ c.name = name ∧ calls .removeConnectionInLoop id s.log = [] := by
  have hremoved : ∀ c n, At s hand id c n →
      (calls .removeConnectionInLoop id s.log = [] ↔ n < 3) := by
    intro c n hat
    rw [calls_eq, hat.log]
    exact script_removed c.loop hat.le
  constructor
  · intro hmap
    obtain ⟨c, hc, rfl⟩ := h.map name id hmap
    obtain ⟨-, n, hat⟩ := h.at hc
    exact ⟨c, hc, rfl, (hremoved c n hat).mpr ((hat.mapped hfew).mp hmap)⟩
  · rintro ⟨c, hc, rfl, hnot⟩
    obtain ⟨-, n, hat⟩ := h.at hc
    exact (hat.mapped hfew).mpr ((hremoved c n hat).mp hnot)

theorem Inv.closed_before_destroyed {hand : Option (LoopId × Task)} (h : Inv cfg s hand)
    {before after : List Entry} {t : ThreadId} {id : Nat}
    (hlog : s.log = before ++ .called .connectionDestroyed t id :: after) :
    ∃ t', .called .handleClose t' id ∈ before := by
  have hsplit : milestones id s.log =
      milestones id before ++ (.connectionDestroyed, t) :: milestones id after := by
    rw [hlog, ← List.singleton_append, milestones_append, milestones_append, milestones_called_self]
    rfl
  have haccepted : id < s.accepted := by
    by_contra hge
    rw [h.unseen id (Nat.le_of_not_lt hge)] at hsplit
    exact absurd hsplit (by simp)
  obtain ⟨c, hc, -, n, hat⟩ := h.conn id haccepted
  rw [hat.log] at hsplit
  exact ⟨_, mem_milestones.mp (script_destroyed hsplit)⟩

/-- **The life cycle of a server's connections.** -/
theorem server_lifecycle (h : Reachable cfg s) (hfew : s.accepted < 2 ^ 31) : LifeCycle cfg s := by
  obtain ⟨hI, hP, hH⟩ := reachable_invariants h
  refine ⟨fun id c hc => hI.calls_once hc .connectionEstablished,
    fun id c hc => hI.calls_once hc .connectionDestroyed,
    fun i j ci cj hi hj hname => hI.name_inj hfew hi hj hname, hI.connections_iff hfew, ?_,
    fun before after t id hlog => hI.closed_before_destroyed hlog,
    fun lb => step_spares_abort hI hP lb⟩
  intro before after id hlog
  obtain ⟨⟨l, hmile⟩, hnotice⟩ := hH.messages before _ after hlog id rfl
  refine ⟨⟨.loop l, ?_⟩, hnotice, ?_⟩
  · rw [← mem_milestones, hmile]
    exact List.mem_cons_self
  · intro t hmem
    rw [← mem_milestones, hmile] at hmem
    exact absurd hmem (by simp [script])

/-! ### One connection from accept to `connectionDestroyed` -/

/-- A server with one worker loop and all its callbacks set. -/
def echoConfig : Config where
  serverName := "echo"
  connectionCallback := true
  messageCallback := true
  writeCompleteCallback := true
  highWatermarkCallback := true
  highWaterMark := 64
  threadNum := 1

/-- The loop takes a step; the kernel reports these conditions and delivers these bytes. -/
def turn (l : LoopId) (reports : List Report) (read : TcpConnection.ReadResult) : Label :=
  .loop l ⟨reports, some 7, read, 1⟩

/-- Descriptor 7 is accepted and established on loop 1, a byte arrives, another thread answers and
shuts down, the peer closes, and the connection is removed and destroyed. -/
def acceptToDestroyed : List Label :=
  [turn 0 [.acceptor] none, turn 0 [] none,
    turn 1 [] none, turn 1 [] none, turn 1 [] none, turn 1 [] none,
    turn 1 [.fd 7 .read] none, turn 1 [] (some [65]), .send (.user 0) 0 (.string [66]) 1,
    .shutdown (.user 0) 0, turn 1 [] none, turn 1 [] none, turn 1 [] none, turn 1 [] none,
    turn 1 [.fd 7 .read] none, turn 1 [] (some []),
    turn 0 [] none, turn 0 [] none,
    turn 1 [] none, turn 1 [] none, turn 1 [] none]

theorem acceptToDestroyed_run :
    ∃ s, run step (start echoConfig) acceptToDestroyed = .ok s ∧
      s.accepted = 1 ∧ milestones 0 s.log = script 1 ∧ .effect 0 .messageCallback ∈ s.log ∧
      (s.loops 0).pending = [] ∧ (s.loops 1).pending = [] ∧
      s.server.connections (connectionName "echo" 1) = none ∧ (s.conns 0).isSome = true := by
  decide +kernel

theorem server_lifecycle_acceptToDestroyed :
    ∃ s, Reachable echoConfig s ∧ milestones 0 s.log = script 1 ∧
      .effect 0 .messageCallback ∈ s.log ∧ LifeCycle echoConfig s := by
  obtain ⟨s, hr, hacc, hmile, hmsg, -⟩ := acceptToDestroyed_run
  have hreach : Reachable echoConfig s := ⟨acceptToDestroyed, hr⟩
  exact ⟨s, hreach, hmile, hmsg, server_lifecycle hreach (by rw [hacc]; decide)⟩

end World

end HyperMuduo.Net.TcpServer
