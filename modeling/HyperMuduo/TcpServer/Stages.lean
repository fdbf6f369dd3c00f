import HyperMuduo.TcpConnection.LifeCycle
import HyperMuduo.TcpServer.Model

/-!
# The stages of a connection

A connection goes through `connectionEstablished`, `handleClose`, `removeConnectionInLoop` and
`connectionDestroyed`, in this order (`script`). After `n` of them exactly one task that moves the
connection on is waiting, on exactly one loop (`nextTask`), or none when the peer is to move. `Inv` says
this for every connection at once, together with what it means for the state, for `connections_` and
for the log; `step_inv` says that every step keeps it.

A task that has left its queue but has not run yet is in hand. `Inv cfg s hand` counts it among the
waiting tasks, so that taking a task, running it inline and queueing it are the same move seen from
different sides.
-/

namespace HyperMuduo.Net.TcpServer

open HyperMuduo.Lib
open HyperMuduo.Net.TcpConnection (Effect State)

/-! ## Tasks and stages -/

/-- The connection a task captures. -/
def Task.captured : Task → Nat
  | .conn id _ => id
  | .removeConnectionInLoop id => id

/-- The loop a task belongs on, for a connection on loop `l`. -/
def Task.home (l : LoopId) : Task → LoopId
  | .conn _ _ => l
  | .removeConnectionInLoop _ => baseLoop

/-- The task moves its connection to the next stage. -/
def Task.moves : Task → Bool
  | .conn _ .connectionEstablished | .conn _ .connectionDestroyed | .removeConnectionInLoop _ => true
  | _ => false

/-- The functions of the life cycle, with the threads they run on. -/
def script (l : LoopId) : List (Member × ThreadId) :=
  [(.connectionEstablished, .loop l), (.handleClose, .loop l),
    (.removeConnectionInLoop, .loop baseLoop), (.connectionDestroyed, .loop l)]

/-- The task that waits at stage `n`, and the loop it waits on. -/
def nextTask (id : Nat) (l : LoopId) : Nat → Option (LoopId × Task)
  | 0 => some (l, .conn id .connectionEstablished)
  | 2 => some (baseLoop, .removeConnectionInLoop id)
  | 3 => some (l, .conn id .connectionDestroyed)
  | _ => none

/-- The states of a connection at stage `n`. -/
def StateAt : Nat → State → Prop
  | 0, st => st = .connecting
  | 1, st => st = .connected ∨ st = .disconnecting
  | _, st => st = .disconnected

/-- The functions of the life cycle that were entered for a connection, in order. -/
def milestones (id : Nat) (log : List Entry) : List (Member × ThreadId) :=
  log.filterMap fun
    | .called m t i => if i = id then some (m, t) else none
    | .effect _ _ => none

theorem milestones_append (id : Nat) (log log' : List Entry) :
    milestones id (log ++ log') = milestones id log ++ milestones id log' := List.filterMap_append

@[simp] theorem milestones_called_self (id : Nat) (m : Member) (t : ThreadId) :
    milestones id [.called m t id] = [(m, t)] := by
  simp [milestones]

@[simp] theorem milestones_called_ne {id i : Nat} (h : i ≠ id) (m : Member) (t : ThreadId) :
    milestones id [.called m t i] = [] := by
  simp [milestones, h]

@[simp] theorem milestones_effect (id i : Nat) (e : Effect) : milestones id [.effect i e] = [] := rfl

theorem nextTask_spec {id : Nat} {l l' : LoopId} {n : Nat} {task : Task}
    (h : nextTask id l n = some (l', task)) :
    task.moves = true ∧ task.captured = id ∧ task.home l = l' := by
  unfold nextTask at h
  split at h
  · obtain ⟨rfl, rfl⟩ := Prod.mk.inj (Option.some.inj h)
    exact ⟨rfl, rfl, rfl⟩
  · obtain ⟨rfl, rfl⟩ := Prod.mk.inj (Option.some.inj h)
    exact ⟨rfl, rfl, rfl⟩
  · obtain ⟨rfl, rfl⟩ := Prod.mk.inj (Option.some.inj h)
    exact ⟨rfl, rfl, rfl⟩
  · exact absurd h (by simp)

theorem nextTask_established {id : Nat} {l l' : LoopId} {n : Nat} {i : Nat}
    (h : nextTask id l n = some (l', .conn i .connectionEstablished)) : n = 0 := by
  unfold nextTask at h
  split at h
  · rfl
  all_goals simp at h

theorem nextTask_remove {id : Nat} {l l' : LoopId} {n : Nat} {i : Nat}
    (h : nextTask id l n = some (l', .removeConnectionInLoop i)) : n = 2 := by
  unfold nextTask at h
  split at h
  · simp at h
  · rfl
  all_goals simp at h

theorem nextTask_destroyed {id : Nat} {l l' : LoopId} {n : Nat} {i : Nat}
    (h : nextTask id l n = some (l', .conn i .connectionDestroyed)) : n = 3 := by
  unfold nextTask at h
  split at h
  · simp at h
  · simp at h
  · rfl
  · simp at h

namespace World

variable {cfg : Config} {s s' : World} {hand hand' : Option (LoopId × Task)} {id : Nat} {c c' : TcpConnection}

@[simp] theorem conns_setConn (s : World) (id : Nat) (c : TcpConnection) :
    (s.setConn id c).conns = Function.update s.conns id (some c) := rfl

/-- How often a task waits on a loop, the task in hand included. -/
def tokens (s : World) (hand : Option (LoopId × Task)) (l : LoopId) (task : Task) : Nat :=
  (s.loops l).pending.count task + if hand = some (l, task) then 1 else 0

theorem tokens_setPoller (s : World) (l₀ : LoopId) (ep : Epoller Nat) (l : LoopId) (task : Task) :
    tokens (s.setPoller l₀ ep) hand l task = tokens s hand l task := by
  unfold tokens setPoller
  by_cases h : l = l₀
  · subst h
    simp [Loop.pending]
  · simp [h]

theorem tokens_setPhase {l₀ : LoopId} {p : Phase} (hp : p.tasks = (s.loops l₀).phase.tasks)
    (l : LoopId) (task : Task) :
    tokens (s.setPhase l₀ p) hand l task = tokens s hand l task := by
  unfold tokens setPhase
  by_cases h : l = l₀
  · subst h
    simp [Loop.pending, hp]
  · simp [h]

/-- Swapping the queue out keeps the waiting tasks. -/
theorem tokens_swapTasks {l₀ : LoopId} (hp : (s.loops l₀).phase.tasks = []) (l : LoopId)
    (task : Task) : tokens (s.swapTasks l₀) hand l task = tokens s hand l task := by
  unfold tokens swapTasks
  by_cases h : l = l₀
  · subst h
    simp [Loop.pending, hp, show ∀ ts, (Phase.executing ts).tasks = ts from fun _ => rfl]
  · simp [h]

/-- Queueing the task in hand keeps the waiting tasks. -/
theorem tokens_queueInLoop (s : World) (l₀ : LoopId) (task₀ : Task) (l : LoopId) (task : Task) :
    tokens (s.queueInLoop l₀ task₀) none l task = tokens s (some (l₀, task₀)) l task := by
  unfold tokens queueInLoop
  by_cases h : l = l₀
  · subst h
    by_cases ht : task₀ = task
    · subst ht
      simp [Loop.pending, Nat.add_assoc]
    · simp [Loop.pending, ht]
  · simp [h, Ne.symm h]

/-- Taking the next task of the batch in hand keeps the waiting tasks. -/
theorem tokens_take {l₀ : LoopId} {task₀ : Task} {tasks : List Task}
    (hp : (s.loops l₀).phase = .executing (task₀ :: tasks)) (l : LoopId) (task : Task) :
    tokens (s.setPhase l₀ (.executing tasks)) (some (l₀, task₀)) l task = tokens s none l task := by
  unfold tokens setPhase
  by_cases h : l = l₀
  · subst h
    by_cases ht : task₀ = task
    · subst ht
      simp only [Loop.pending, Function.update_self, hp, Phase.tasks, List.cons_append,
        List.count_cons_self, if_true, reduceCtorEq, if_false, Nat.add_zero]
    · simp [Loop.pending, hp, Phase.tasks, ht]
  · simp [h, Ne.symm h]

/-! ## The invariant -/

/-- What the new-connection callback gave to a connection. -/
structure Wired (cfg : Config) (id : Nat) (c : TcpConnection) : Prop where
  name : c.name = connectionName cfg.serverName (toInt32 (id + 1))
  closeCallback : c.closeCallback = some (.serverRemoveConnection id)
  connectionCallback : c.connectionCallback = cfg.connectionCallback
  readCallback : c.channel.readCallback = some .handleReadable
  writeCallback : c.channel.writeCallback = none
  errorCallback : c.channel.errorCallback = none

/-- A connection is at stage `n`. -/
structure At (s : World) (hand : Option (LoopId × Task)) (id : Nat) (c : TcpConnection) (n : Nat) :
    Prop where
  le : n ≤ 4
  state : StateAt n c.state
  log : milestones id s.log = (script c.loop).take n
  token : ∀ l task, task.moves = true → task.captured = id →
    tokens s hand l task = if nextTask id c.loop n = some (l, task) then 1 else 0
  mapped : s.accepted < 2 ^ 31 → (s.server.connections c.name = some id ↔ n < 3)

/-- The task is on the loop it belongs on. -/
def AtHome (s : World) (l : LoopId) (task : Task) : Prop :=
  ∃ c, s.conns task.captured = some c ∧ task.home c.loop = l

/-- **The invariant of the life cycles**, with a task in hand. -/
structure Inv (cfg : Config) (s : World) (hand : Option (LoopId × Task)) : Prop where
  fresh : ∀ id, s.accepted ≤ id → s.conns id = none
  unseen : ∀ id, s.accepted ≤ id → milestones id s.log = []
  settings : s.server.serverName = cfg.serverName ∧
    s.server.connectionCallback = cfg.connectionCallback
  next : s.server.nextConnId = toInt32 (s.accepted + 1)
  conn : ∀ id < s.accepted, ∃ c, s.conns id = some c ∧ Wired cfg id c ∧ ∃ n, At s hand id c n
  home : ∀ l task, 0 < tokens s hand l task → AtHome s l task
  map : ∀ name id, s.server.connections name = some id → ∃ c, s.conns id = some c ∧ c.name = name

theorem Wired.of_wiring (h : Wired cfg id c) (hw : c'.wiring = c.wiring) : Wired cfg id c' where
  name := (TcpConnection.wiring_name hw).trans h.name
  closeCallback := (TcpConnection.wiring_closeCallback hw).trans h.closeCallback
  connectionCallback := (congrArg (fun c => c.connectionCallback) hw).trans h.connectionCallback
  readCallback := (TcpConnection.wiring_readCallback hw).trans h.readCallback
  writeCallback := (TcpConnection.wiring_writeCallback hw).trans h.writeCallback
  errorCallback := (TcpConnection.wiring_errorCallback hw).trans h.errorCallback

theorem Inv.lt_accepted (h : Inv cfg s hand) (hc : s.conns id = some c) : id < s.accepted := by
  by_contra hge
  rw [h.fresh id (Nat.le_of_not_lt hge)] at hc
  exact absurd hc (by simp)

theorem Inv.at (h : Inv cfg s hand) (hc : s.conns id = some c) :
    Wired cfg id c ∧ ∃ n, At s hand id c n := by
  obtain ⟨c₀, hc₀, hw, hat⟩ := h.conn id (h.lt_accepted hc)
  rw [hc] at hc₀
  obtain rfl := Option.some.inj hc₀
  exact ⟨hw, hat⟩

/-- Two numbers of connections print differently. -/
theorem connectionName_inj {name : String} {i j : Nat} (hi : i < 2 ^ 31) (hj : j < 2 ^ 31)
    (h : connectionName name (toInt32 i) = connectionName name (toInt32 j)) : i = j := by
  rw [toInt32_of_lt hi, toInt32_of_lt hj] at h
  have hrepr : i.repr = j.repr := (String.append_right_inj _).mp ((String.append_right_inj _).mp h)
  have hdigits := congrArg String.toList hrepr
  rw [Nat.toList_repr, Nat.toList_repr] at hdigits
  rw [← Nat.ofDigitChars_ten_toDigits (n := i), hdigits, Nat.ofDigitChars_ten_toDigits]

/-- **Names are pairwise distinct**, as long as the counter has not wrapped. -/
theorem Inv.name_inj (h : Inv cfg s hand) (hfew : s.accepted < 2 ^ 31) {i j : Nat} {ci cj : TcpConnection}
    (hi : s.conns i = some ci) (hj : s.conns j = some cj) (hname : ci.name = cj.name) : i = j := by
  have hli := h.lt_accepted hi
  have hlj := h.lt_accepted hj
  rw [(h.at hi).1.name, (h.at hj).1.name] at hname
  have := connectionName_inj (by omega) (by omega) hname
  omega

/-! ## The moves -/

/-- A step that only moves tasks around, queues tasks of no stage and logs effects. -/
theorem Inv.frame (h : Inv cfg s hand) (hacc : s'.accepted = s.accepted) (hserver : s'.server = s.server)
    (hconns : s'.conns = s.conns) (hlog : ∀ id, milestones id s'.log = milestones id s.log)
    (htok : ∀ l task, task.moves = true → tokens s' hand' l task = tokens s hand l task)
    (hhome : ∀ l task, 0 < tokens s' hand' l task → 0 < tokens s hand l task ∨ AtHome s l task) :
    Inv cfg s' hand' where
  fresh := by rw [hacc, hconns]; exact h.fresh
  unseen := by
    intro id hid
    rw [hacc] at hid
    rw [hlog]
    exact h.unseen id hid
  settings := by rw [hserver]; exact h.settings
  next := by rw [hacc, hserver]; exact h.next
  conn := by
    rw [hacc, hconns]
    intro id hid
    obtain ⟨c, hc, hw, n, hat⟩ := h.conn id hid
    refine ⟨c, hc, hw, n, hat.le, hat.state, (hlog id).trans hat.log, ?_, ?_⟩
    · intro l task hm hcap
      rw [htok l task hm]
      exact hat.token l task hm hcap
    · rw [hacc, hserver]
      exact hat.mapped
  home := by
    intro l task hpos
    have hat : AtHome s l task := (hhome l task hpos).elim (h.home l task) fun h => h
    unfold AtHome
    rw [hconns]
    exact hat
  map := by rw [hserver, hconns]; exact h.map

/-- The waiting tasks are the same. -/
theorem Inv.same (h : Inv cfg s hand) (hacc : s'.accepted = s.accepted) (hserver : s'.server = s.server)
    (hconns : s'.conns = s.conns) (hlog : ∀ id, milestones id s'.log = milestones id s.log)
    (htok : ∀ l task, tokens s' hand' l task = tokens s hand l task) : Inv cfg s' hand' :=
  h.frame hacc hserver hconns hlog (fun l task _ => htok l task)
    (fun l task hpos => Or.inl (by rw [← htok]; exact hpos))

theorem Inv.record (h : Inv cfg s hand) (id : Nat) (e : Effect) : Inv cfg (s.record (.effect id e)) hand := by
  refine h.same rfl rfl rfl ?_ (fun _ _ => rfl)
  intro i
  unfold World.record
  rw [milestones_append, milestones_effect, List.append_nil]

theorem Inv.setPoller (h : Inv cfg s hand) (l : LoopId) (ep : Epoller Nat) :
    Inv cfg (s.setPoller l ep) hand :=
  h.same rfl rfl rfl (fun _ => rfl) (tokens_setPoller s l ep)

/-- Queue the task in hand. -/
theorem Inv.put {l : LoopId} {task : Task} (h : Inv cfg s (some (l, task))) :
    Inv cfg (s.queueInLoop l task) none :=
  h.same rfl rfl rfl (fun _ => rfl) (tokens_queueInLoop s l task)

/-- Take the next task of the batch in hand. -/
theorem Inv.take {l : LoopId} {task : Task} {tasks : List Task} (h : Inv cfg s none)
    (hp : (s.loops l).phase = .executing (task :: tasks)) :
    Inv cfg (s.setPhase l (.executing tasks)) (some (l, task)) :=
  h.same rfl rfl rfl (fun _ => rfl) (tokens_take hp)

/-- A task that moves no connection need not be in hand. -/
theorem Inv.release {l : LoopId} {task : Task} (h : Inv cfg s (some (l, task)))
    (hm : task.moves = false) : Inv cfg s none := by
  refine h.frame rfl rfl rfl (fun _ => rfl) ?_ ?_
  · intro l' task' hm'
    have hne : task ≠ task' := by
      rintro rfl
      rw [hm] at hm'
      exact absurd hm' (by simp)
    simp [tokens, hne]
  · intro l' task' hpos
    left
    unfold tokens at hpos ⊢
    simp only [reduceCtorEq, if_false] at hpos
    omega

/-- Queue a task that moves no connection. -/
theorem Inv.queue (h : Inv cfg s hand) (hc : s.conns id = some c) {task : TcpConnection.Task}
    (hm : (Task.conn id task).moves = false) : Inv cfg (s.queueInLoop c.loop (.conn id task)) hand := by
  have htok : ∀ l task', tokens (s.queueInLoop c.loop (.conn id task)) hand l task' =
      tokens s hand l task' + if (c.loop, Task.conn id task) = (l, task') then 1 else 0 := by
    intro l task'
    have hcount := tokens_queueInLoop s c.loop (.conn id task) l task'
    unfold tokens at hcount ⊢
    simp only [reduceCtorEq, if_false, Nat.add_zero, Option.some.injEq] at hcount
    rw [hcount]
    omega
  refine h.frame rfl rfl rfl (fun _ => rfl) ?_ ?_
  · intro l task' hm'
    rw [htok, if_neg, Nat.add_zero]
    intro heq
    obtain ⟨-, rfl⟩ := Prod.mk.inj heq
    rw [hm] at hm'
    exact absurd hm' (by simp)
  · intro l task' hpos
    rw [htok] at hpos
    split at hpos
    · rename_i heq
      obtain ⟨rfl, rfl⟩ := Prod.mk.inj heq
      exact Or.inr ⟨c, hc, rfl⟩
    · exact Or.inl hpos

/-- `conns` with one connection replaced by one with the same wiring. -/
theorem lookup_update (hc : s.conns id = some c) (hw : c'.wiring = c.wiring) {i : Nat}
    {ci : TcpConnection} (hi : s.conns i = some ci) :
    ∃ ci', Function.update s.conns id (some c') i = some ci' ∧ ci'.wiring = ci.wiring := by
  by_cases h : i = id
  · subst h
    rw [hi] at hc
    obtain rfl := Option.some.inj hc
    exact ⟨c', Function.update_self .., hw⟩
  · exact ⟨ci, by rw [Function.update_of_ne h]; exact hi, rfl⟩

theorem AtHome.update (hc : s.conns id = some c) (hw : c'.wiring = c.wiring)
    (hconns : s'.conns = Function.update s.conns id (some c')) {l : LoopId} {task : Task}
    (h : AtHome s l task) : AtHome s' l task := by
  obtain ⟨ci, hi, hl⟩ := h
  obtain ⟨ci', hi', hwi⟩ := lookup_update hc hw hi
  refine ⟨ci', by rw [hconns]; exact hi', ?_⟩
  rw [TcpConnection.wiring_loop hwi]
  exact hl

/-- **A connection moves to its next stage**: the task in hand is the one that waited, and the next
one is in hand afterwards. -/
theorem Inv.advance {n : Nat} (h : Inv cfg s (nextTask id c.loop n)) (c' : TcpConnection)
    (connections : String → Option Nat) (hc : s.conns id = some c)
    (hat : At s (nextTask id c.loop n) id c n) {m : Member} {t : ThreadId}
    (hm : (script c.loop)[n]? = some (m, t)) (hw : c'.wiring = c.wiring)
    (hst : StateAt (n + 1) c'.state)
    (hsub : ∀ name i, connections name = some i → s.server.connections name = some i)
    (hkeep : ∀ name, name ≠ c.name → connections name = s.server.connections name)
    (hself : s.accepted < 2 ^ 31 → (connections c.name = some id ↔ n + 1 < 3))
    (hserver : s'.server = { s.server with connections := connections })
    (hacc : s'.accepted = s.accepted) (hconns : s'.conns = Function.update s.conns id (some c'))
    (hloops : s'.loops = s.loops) (hlog : s'.log = s.log ++ [.called m t id]) :
    Inv cfg s' (nextTask id c.loop (n + 1)) := by
  have hn : n < 4 := (List.getElem?_eq_some_iff.mp hm).1
  have hloop := TcpConnection.wiring_loop hw
  have hname := TcpConnection.wiring_name hw
  have hlt := h.lt_accepted hc
  refine ⟨?_, ?_, by rw [hserver]; exact h.settings, by rw [hacc, hserver]; exact h.next, ?_, ?_, ?_⟩
  · intro i hi
    rw [hacc] at hi
    rw [hconns, Function.update_of_ne (by omega)]
    exact h.fresh i hi
  · intro i hi
    rw [hacc] at hi
    rw [hlog, milestones_append, milestones_called_ne (by omega), List.append_nil]
    exact h.unseen i hi
  · intro i hi
    rw [hacc] at hi
    by_cases hne : i = id
    · subst hne
      refine ⟨c', by rw [hconns, Function.update_self], ?_, n + 1, hn, hst, ?_, ?_, ?_⟩
      · exact (h.at hc).1.of_wiring hw
      · rw [hlog, milestones_append, milestones_called_self, hat.log, hloop, List.take_add_one, hm]
        rfl
      · intro l task hmoves hcap
        have hcount := hat.token l task hmoves hcap
        unfold tokens at hcount ⊢
        rw [hloops, hloop]
        omega
      · rw [hacc, hserver, hname]
        exact hself
    · obtain ⟨ci, hci, hwi, ni, hati⟩ := h.conn i hi
      refine ⟨ci, by rw [hconns, Function.update_of_ne hne]; exact hci, ?_, ni, hati.le, hati.state,
        ?_, ?_, ?_⟩
      · exact hwi
      · rw [hlog, milestones_append, milestones_called_ne (Ne.symm hne), List.append_nil]
        exact hati.log
      · intro l task hmoves hcap
        have hother : ∀ k, ¬ nextTask id c.loop k = some (l, task) := by
          intro k hk
          exact hne (hcap.symm.trans (nextTask_spec hk).2.1)
        have hcount := hati.token l task hmoves hcap
        unfold tokens at hcount ⊢
        rw [if_neg (hother _)] at hcount ⊢
        rw [hloops]
        exact hcount
      · intro hfew
        rw [hacc] at hfew
        have hdist : ci.name ≠ c.name := fun heq => hne (h.name_inj hfew hci hc heq)
        have hsame : s'.server.connections ci.name = s.server.connections ci.name := by
          rw [hserver]
          exact hkeep _ hdist
        rw [hsame]
        exact hati.mapped hfew
  · intro l task hpos
    unfold tokens at hpos
    by_cases hhand : nextTask id c.loop (n + 1) = some (l, task)
    · obtain ⟨-, hcap, hl⟩ := nextTask_spec hhand
      refine ⟨c', by rw [hcap, hconns, Function.update_self], ?_⟩
      rw [hloop]
      exact hl
    · rw [if_neg hhand, hloops] at hpos
      have hpos' : 0 < tokens s (nextTask id c.loop n) l task := by
        unfold tokens
        omega
      exact (h.home l task hpos').update hc hw hconns
  · intro name i hi
    rw [hserver] at hi
    obtain ⟨ci, hci, hn⟩ := h.map name i (hsub name i hi)
    obtain ⟨ci', hci', hwi⟩ := lookup_update hc hw hci
    refine ⟨ci', by rw [hconns]; exact hci', ?_⟩
    rw [TcpConnection.wiring_name hwi]
    exact hn

/-- A call that leaves the stage of a connection alone. -/
theorem Inv.setConn (h : Inv cfg s hand) (hc : s.conns id = some c) (hw : c'.wiring = c.wiring)
    (hst : ∀ n, StateAt n c.state → StateAt n c'.state) : Inv cfg (s.setConn id c') hand := by
  have hlt := h.lt_accepted hc
  refine ⟨?_, h.unseen, h.settings, h.next, ?_, ?_, ?_⟩
  · intro i hi
    have hi' : s.accepted ≤ i := hi
    rw [conns_setConn, Function.update_of_ne (by omega)]
    exact h.fresh i hi
  · intro i hi
    rw [conns_setConn]
    by_cases hne : i = id
    · subst hne
      obtain ⟨hwired, n, hat⟩ := h.at hc
      refine ⟨c', Function.update_self .., hwired.of_wiring hw, n, hat.le, hst n hat.state, ?_, ?_, ?_⟩
      · rw [TcpConnection.wiring_loop hw]
        exact hat.log
      · rw [TcpConnection.wiring_loop hw]
        exact hat.token
      · rw [TcpConnection.wiring_name hw]
        exact hat.mapped
    · obtain ⟨ci, hci, hwi, ni, hati⟩ := h.conn i hi
      exact ⟨ci, by rw [Function.update_of_ne hne]; exact hci, hwi, ni, hati.le, hati.state, hati.log,
        hati.token, hati.mapped⟩
  · exact fun l task hpos => (h.home l task hpos).update hc hw rfl
  · intro name i hi
    obtain ⟨ci, hci, hn⟩ := h.map name i hi
    obtain ⟨ci', hci', hwi⟩ := lookup_update hc hw hci
    refine ⟨ci', hci', ?_⟩
    rw [TcpConnection.wiring_name hwi]
    exact hn

/-- A task of a connection that has not been accepted waits nowhere. -/
theorem Inv.tokens_fresh (h : Inv cfg s hand) {task : Task} (hcap : s.accepted ≤ task.captured)
    (l : LoopId) : tokens s hand l task = 0 := by
  by_contra hne
  obtain ⟨c, hc, -⟩ := h.home l task (Nat.pos_of_ne_zero hne)
  rw [h.fresh _ hcap] at hc
  exact absurd hc (by simp)

/-- A new connection has the number it was accepted under, in its name and its close callback. -/
theorem Inv.newTcpConnection_wired (h : Inv cfg s hand) (loop : LoopId) (fd : Int) :
    Wired cfg s.accepted (s.server.newTcpConnection s.accepted loop fd) where
  name := by
    rw [← h.next, ← h.settings.1]
    rfl
  closeCallback := rfl
  connectionCallback := h.settings.2
  readCallback := rfl
  writeCallback := rfl
  errorCallback := rfl

/-- **A new connection starts at the first stage**, with its `connectionEstablished` in hand. -/
theorem Inv.accept (h : Inv cfg s none) (fd : Int) :
    Inv cfg (s.addConnection fd) (nextTask s.accepted s.server.threadPool.getNextLoop.1 0) := by
  generalize hpool : s.server.threadPool.getNextLoop = p
  generalize hnew : s.server.newTcpConnection s.accepted p.1 fd = c
  have hadd : s.addConnection fd =
      { s with
        server := { s.server with
          nextConnId := succInt32 s.server.nextConnId
          connections := Function.update s.server.connections c.name (some s.accepted)
          threadPool := p.2 }
        accepted := s.accepted + 1
        conns := Function.update s.conns s.accepted (some c) } := by
    unfold addConnection
    rw [hpool, ← hnew]
    rfl
  have hwired : Wired cfg s.accepted c := hnew ▸ h.newTcpConnection_wired p.1 fd
  have hloop : c.loop = p.1 := by
    rw [← hnew]
    rfl
  have hself : Function.update s.conns s.accepted (some c) s.accepted = some c :=
    Function.update_self ..
  rw [hadd]
  refine ⟨?_, ?_, h.settings, ?_, ?_, ?_, ?_⟩
  · intro i hi
    have hi' : s.accepted + 1 ≤ i := hi
    exact (Function.update_of_ne (by omega) ..).trans (h.fresh i (by omega))
  · exact fun i hi => h.unseen i (Nat.le_trans (Nat.le_succ _) hi)
  · have hnext := congrArg succInt32 h.next
    rw [succInt32_toInt32] at hnext
    exact hnext
  · intro i hi
    have hi' : i < s.accepted + 1 := hi
    by_cases hne : i = s.accepted
    · subst hne
      refine ⟨c, hself, hwired, 0, Nat.zero_le _, ?_, ?_, ?_, ?_⟩
      · rw [← hnew]; rfl
      · exact h.unseen _ (Nat.le_refl _)
      · intro l task _ hcap
        have hzero := h.tokens_fresh (Nat.le_of_eq hcap.symm) l
        unfold tokens at hzero ⊢
        simp only [reduceCtorEq, if_false, Nat.add_zero] at hzero
        rw [hloop]
        simp only [hzero, Nat.zero_add]
      · exact fun _ => ⟨fun _ => by decide, fun _ => Function.update_self ..⟩
    · have hlt : i < s.accepted := by omega
      obtain ⟨ci, hci, hwi, ni, hati⟩ := h.conn i hlt
      refine ⟨ci, (Function.update_of_ne hne ..).trans hci, hwi, ni, hati.le,
        hati.state, hati.log, ?_, ?_⟩
      · intro l task hmoves hcap
        have hother : ¬ nextTask s.accepted p.1 0 = some (l, task) := by
          intro hk
          exact hne (hcap.symm.trans (nextTask_spec hk).2.1)
        have hcount := hati.token l task hmoves hcap
        unfold tokens at hcount ⊢
        rw [if_neg hother]
        simp only [reduceCtorEq, if_false] at hcount
        exact hcount
      · intro hfew
        have hfew' : s.accepted + 1 < 2 ^ 31 := hfew
        have hdist : ci.name ≠ c.name := by
          intro heq
          rw [hwi.name, hwired.name] at heq
          have := connectionName_inj (by omega) (by omega) heq
          omega
        rw [← hati.mapped (by omega)]
        exact Eq.congr_left (Function.update_of_ne hdist ..)
  · intro l task hpos
    unfold tokens at hpos
    by_cases hhand : nextTask s.accepted p.1 0 = some (l, task)
    · obtain ⟨-, hcap, hl⟩ := nextTask_spec hhand
      refine ⟨c, by rw [hcap]; exact hself, ?_⟩
      rw [hloop]
      exact hl
    · rw [if_neg hhand] at hpos
      have hpos' : 0 < tokens s none l task := Nat.lt_of_lt_of_le hpos (Nat.le_refl _)
      obtain ⟨ci, hci, hl⟩ := h.home l task hpos'
      have hlt := h.lt_accepted hci
      exact ⟨ci, (Function.update_of_ne (by omega) ..).trans hci, hl⟩
  · intro name i hi
    by_cases hn : name = c.name
    · subst hn
      have hid := (Function.update_self ..).symm.trans hi
      obtain rfl := Option.some.inj hid
      exact ⟨c, hself, rfl⟩
    · have hold := (Function.update_of_ne hn ..).symm.trans hi
      obtain ⟨ci, hci, hnm⟩ := h.map name i hold
      have hlt := h.lt_accepted hci
      exact ⟨ci, (Function.update_of_ne (by omega) ..).trans hci, hnm⟩

end World

end HyperMuduo.Net.TcpServer
