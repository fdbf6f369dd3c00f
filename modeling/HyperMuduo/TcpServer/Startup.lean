import HyperMuduo.Lib.Run
import HyperMuduo.TcpServer.RoundRobin

/-!
# `TcpServer::start` from another thread

`start()` has the base loop listen first and creates the workers afterwards. Called on the thread of the
base loop the order does not matter. Called on another thread, the base loop accepts connections while
`EventLoopThreadPool::start` is still adding loops. The system is the calling thread, the base loop and
the worker threads; a `Label` is one step.

* The calling thread (`Starter`): the test and set of `started_`, the push of the closure that listens,
  the exchange of the pool's `started_`, and the `for` loop. A round of it is the creation of the thread,
  the wait in `startLoop` until the thread has published its loop, and `loops_.emplace_back`. The space
  is reserved before, so the vector is not moved.
* The base loop (`Base`) executes the closures on its queue and, once it listens, handles connections.
  `getNextLoop` reads `loops_` twice, at `empty()` and at `size()`; other threads step in between. The
  rest of what the base loop does leaves the pool alone.
* Nothing synchronises the reads of `loops_` with the writes. Here they happen one after another, in any
  order of the threads.
* `assigned` is a ghost: the loops the connections were given, in order.

**`workers_assigned_iff`**: in a run every connection is given one of the `n` workers, and the first `n`
are given distinct ones, if and only if `getNextLoop` finds a loop each time, and one for every
connection before and the present one, or all `n`. `assigned_of_late`: so it is when connections come
after `start()` has returned. `returned_pool`: the pool is then the one of `TcpServer.started`.
-/

namespace HyperMuduo.Net.TcpServer

open HyperMuduo.Lib

/-- Where the thread that calls `start` is. -/
inductive Starter where
  | outside
  /-- Before the push of the closure that listens. -/
  | queueing
  /-- Before the exchange of `EventLoopThreadPool::start`. -/
  | exchanging
  /-- At the test of the `for` loop. -/
  | testing (i : Nat)
  /-- In `startLoop`. -/
  | waiting (i : Nat)
  /-- Before `loops_.emplace_back`. -/
  | storing (i : Nat)
  deriving DecidableEq, Repr

/-- Where the base loop is: between two connections, or in `getNextLoop` past the test of `empty()`. -/
inductive Base where
  | idle
  | choosing
  deriving DecidableEq, Repr

structure Startup where
  threadsNum : Int
  /-- `started_` of the server, and of the pool. -/
  started : Bool
  poolStarted : Bool
  /-- `threads_`: whether the thread has published its loop. -/
  threads : List Bool
  pool : EventLoopThreadPool
  starter : Starter
  /-- The closures that listen, on the queue of the base loop. -/
  taskQueue : Nat
  listening : Bool
  base : Base
  assigned : List LoopId

namespace Startup

inductive Label where
  /-- The next step of the calling thread. -/
  | start
  /-- The `i`-th worker thread sets its `loop_`. -/
  | publish (i : Nat)
  /-- The base loop executes a closure. -/
  | listen
  /-- The base loop accepts a connection and calls `getNextLoop`. -/
  | accept
  /-- The rest of `getNextLoop`. -/
  | choose
  deriving DecidableEq, Repr

/-- A server whose number of threads is set. -/
def fresh (threadsNum : Int) : Startup where
  threadsNum := threadsNum
  started := false
  poolStarted := false
  threads := []
  pool := ⟨0, 0⟩
  starter := .outside
  taskQueue := 0
  listening := false
  base := .idle
  assigned := []

/-- `TcpServer::start` and `EventLoopThreadPool::start`. -/
def advance (s : Startup) : Startup :=
  match s.starter with
  | .outside => if s.started then s else { s with started := true, starter := .queueing }
  | .queueing => { s with taskQueue := s.taskQueue + 1, starter := .exchanging }
  | .exchanging =>
    if s.poolStarted then { s with starter := .outside }
    else { s with poolStarted := true, starter := .testing 0 }
  | .testing i =>
    if i < s.threadsNum then { s with threads := s.threads ++ [false], starter := .waiting i }
    else { s with starter := .outside }
  | .waiting i => if s.threads[i]? = some true then { s with starter := .storing i } else s
  | .storing i =>
    { s with pool := { s.pool with loops := s.pool.loops + 1 }, starter := .testing (i + 1) }

/-- The base loop takes up a connection. -/
def accepts (s : Startup) : Bool := s.base = .idle && s.listening

/-- `loops_.empty()`. -/
def accept (s : Startup) : Startup :=
  if s.pool.loops = 0 then { s with assigned := s.assigned ++ [baseLoop] }
  else { s with base := .choosing }

/-- `loops_[index]`. -/
def choose (s : Startup) : Except Fault Startup :=
  if 0 ≤ s.pool.index ∧ s.pool.index < s.pool.loops then
    let (loop, pool) := s.pool.getNextLoop
    .ok { s with pool := pool, base := .idle, assigned := s.assigned ++ [loop] }
  else .error .outOfBounds

def step (s : Startup) : Label → Except Fault Startup
  | .start => .ok s.advance
  | .publish i => .ok { s with threads := s.threads.set i true }
  | .listen =>
    .ok (if s.base = .idle ∧ 0 < s.taskQueue then
      { s with taskQueue := s.taskQueue - 1, listening := true } else s)
  | .accept => .ok (if s.accepts then s.accept else s)
  | .choose => if s.base = .choosing then s.choose else .ok s

/-- Every connection was given a worker, and the first ones distinct workers. -/
def Assigned (s : Startup) : Prop :=
  (∀ loop ∈ s.assigned, 1 ≤ loop ∧ loop ≤ s.threadsNum.toNat) ∧
    (s.assigned.take s.threadsNum.toNat).Nodup

instance (s : Startup) : Decidable s.Assigned := inferInstanceAs (Decidable (_ ∧ _))

/-- `getNextLoop` finds a loop in the pool; and it finds one for every connection before and the present
one, or all of them. -/
def Ready (s : Startup) : Label → Prop
  | .accept => s.accepts = true → 0 < s.pool.loops
  | .choose =>
    s.base = .choosing → s.assigned.length < s.pool.loops ∨ s.pool.loops = s.threadsNum.toNat
  | _ => True

instance (s : Startup) : ∀ l : Label, Decidable (s.Ready l)
  | .accept | .choose => inferInstanceAs (Decidable (_ → _))
  | .start | .publish _ | .listen => isTrue trivial

/-! ## The pool grows -/

variable {n : Nat} {s s' : Startup} {l : Label}

/-- How far the pool has grown. -/
def Grown (n : Nat) (s : Startup) : Prop :=
  match s.starter with
  | .outside =>
    s.started = false ∧ s.poolStarted = false ∧ s.pool.loops = 0 ∨
      s.started = true ∧ s.pool.loops = n
  | .queueing | .exchanging => s.started = true ∧ s.poolStarted = false ∧ s.pool.loops = 0
  | .testing i => s.started = true ∧ s.pool.loops = i ∧ i ≤ n
  | .waiting i | .storing i => s.started = true ∧ s.pool.loops = i ∧ i < n

structure Sane (n : Nat) (s : Startup) : Prop where
  num : s.threadsNum = n
  grown : Grown n s
  choosing : s.base = .choosing → 0 < s.pool.loops

theorem Sane.toNat_num (h : Sane n s) : s.threadsNum.toNat = n := by
  rw [h.num, Int.toNat_natCast]

theorem Sane.loops_le (h : Sane n s) : s.pool.loops ≤ n := by
  have hgrown := h.grown
  unfold Grown at hgrown
  split at hgrown <;> omega

/-- What a step does to the pool and the connections. -/
inductive Stepped (s : Startup) (l : Label) (s' : Startup) : Prop where
  | same (hpool : s'.pool = s.pool) (hbase : s'.base = s.base) (hassigned : s'.assigned = s.assigned)
  | grows (hpool : s'.pool = { s.pool with loops := s.pool.loops + 1 }) (hbase : s'.base = s.base)
      (hassigned : s'.assigned = s.assigned)
  | fellBack (hl : l = .accept) (haccepts : s.accepts = true) (hzero : s.pool.loops = 0)
      (hpool : s'.pool = s.pool) (hbase : s'.base = s.base)
      (hassigned : s'.assigned = s.assigned ++ [baseLoop])
  | began (hl : l = .accept) (hpos : 0 < s.pool.loops) (hpool : s'.pool = s.pool)
      (hassigned : s'.assigned = s.assigned)
  | chosen (hl : l = .choose) (hchoosing : s.base = .choosing) (hpool : s'.pool = s.pool.getNextLoop.2)
      (hbase : s'.base = .idle) (hassigned : s'.assigned = s.assigned ++ [s.pool.getNextLoop.1])

theorem advance_stepped (s : Startup) : Stepped s .start s.advance := by
  unfold advance
  split
  · split <;> exact .same rfl rfl rfl
  · exact .same rfl rfl rfl
  · split <;> exact .same rfl rfl rfl
  · split <;> exact .same rfl rfl rfl
  · split <;> exact .same rfl rfl rfl
  · exact .grows rfl rfl rfl

/-- A choice that is under way, and does not fail, is made. -/
theorem choose_inv (hchoosing : s.base = .choosing) (he : s.step .choose = .ok s') :
    s' = { s with pool := s.pool.getNextLoop.2, base := .idle,
                  assigned := s.assigned ++ [s.pool.getNextLoop.1] } := by
  simp only [step, if_pos hchoosing] at he
  unfold choose at he
  split at he
  · exact (Except.ok.inj he).symm
  · exact absurd he (by simp)

theorem choose_idle (hidle : s.base ≠ .choosing) (he : s.step .choose = .ok s') : s' = s := by
  simp only [step, if_neg hidle] at he
  exact (Except.ok.inj he).symm

theorem step_stepped (he : s.step l = .ok s') : Stepped s l s' := by
  cases l with
  | start =>
    obtain rfl := Except.ok.inj he
    exact advance_stepped s
  | publish i =>
    obtain rfl := Except.ok.inj he
    exact .same rfl rfl rfl
  | listen =>
    obtain rfl := Except.ok.inj he
    split <;> exact .same rfl rfl rfl
  | accept =>
    obtain rfl := Except.ok.inj he
    split
    · rename_i haccepts
      unfold accept
      split
      · rename_i hzero
        exact .fellBack rfl haccepts hzero rfl rfl rfl
      · rename_i hpos
        exact .began rfl (Nat.pos_of_ne_zero hpos) rfl rfl
    · exact .same rfl rfl rfl
  | choose =>
    by_cases hchoosing : s.base = .choosing
    · rw [choose_inv hchoosing he]
      exact .chosen rfl hchoosing rfl rfl rfl
    · obtain rfl := choose_idle hchoosing he
      exact .same rfl rfl rfl

/-- A step of the calling thread. The `int` of the `for` loop counts the loops in the pool. -/
theorem advance_grown (hnum : s.threadsNum = n) (h : Grown n s) : Grown n s.advance := by
  have hgrown := h
  unfold Grown at h
  unfold advance
  cases hstarter : s.starter with
  | outside =>
    simp only [hstarter] at h ⊢
    split
    · exact hgrown
    · rename_i hstarted
      obtain ⟨-, hpool, hloops⟩ | ⟨hyes, -⟩ := h
      · exact ⟨rfl, hpool, hloops⟩
      · exact absurd hyes hstarted
  | queueing =>
    simp only [hstarter] at h ⊢
    exact h
  | exchanging =>
    simp only [hstarter] at h ⊢
    obtain ⟨hstarted, hpool, hloops⟩ := h
    rw [if_neg (by rw [hpool]; simp)]
    exact ⟨hstarted, hloops, Nat.zero_le n⟩
  | testing i =>
    simp only [hstarter] at h ⊢
    obtain ⟨hstarted, hloops, hle⟩ := h
    split
    · exact ⟨hstarted, hloops, by omega⟩
    · have hall : s.pool.loops = n := by omega
      exact Or.inr ⟨hstarted, hall⟩
  | waiting i =>
    simp only [hstarter] at h ⊢
    split
    · exact h
    · exact hgrown
  | storing i =>
    simp only [hstarter] at h ⊢
    obtain ⟨hstarted, hloops, hlt⟩ := h
    exact ⟨hstarted, congrArg (· + 1) hloops, hlt⟩

theorem advance_threadsNum (s : Startup) : s.advance.threadsNum = s.threadsNum := by
  unfold advance
  split
  · split <;> rfl
  · rfl
  · split <;> rfl
  · split <;> rfl
  · split <;> rfl
  · rfl

/-- Where the calling thread is does not change otherwise. -/
theorem Grown.frame (h : Grown n s) (hstarter : s'.starter = s.starter)
    (hstarted : s'.started = s.started) (hpool : s'.poolStarted = s.poolStarted)
    (hloops : s'.pool.loops = s.pool.loops) : Grown n s' := by
  unfold Grown at h ⊢
  rw [hstarter, hstarted, hpool, hloops]
  exact h

theorem getNextLoop_loops (p : EventLoopThreadPool) : p.getNextLoop.2.loops = p.loops := by
  unfold EventLoopThreadPool.getNextLoop
  split <;> rfl

theorem step_grown (hnum : s.threadsNum = n) (h : Grown n s) (he : s.step l = .ok s') :
    s'.threadsNum = n ∧ Grown n s' := by
  cases l with
  | start =>
    obtain rfl := Except.ok.inj he
    exact ⟨(advance_threadsNum s).trans hnum, advance_grown hnum h⟩
  | publish i =>
    obtain rfl := Except.ok.inj he
    exact ⟨hnum, h⟩
  | listen =>
    obtain rfl := Except.ok.inj he
    split <;> exact ⟨hnum, h⟩
  | accept =>
    obtain rfl := Except.ok.inj he
    unfold accept
    split
    · split <;> exact ⟨hnum, h⟩
    · exact ⟨hnum, h⟩
  | choose =>
    by_cases hchoosing : s.base = .choosing
    · rw [choose_inv hchoosing he]
      exact ⟨hnum, h.frame rfl rfl rfl (getNextLoop_loops s.pool)⟩
    · obtain rfl := choose_idle hchoosing he
      exact ⟨hnum, h⟩

theorem step_sane (h : Sane n s) (he : s.step l = .ok s') : Sane n s' := by
  obtain ⟨hnum, hgrown⟩ := step_grown h.num h.grown he
  refine ⟨hnum, hgrown, ?_⟩
  intro hchoosing
  cases step_stepped he with
  | same hpool hbase hassigned =>
    rw [hpool]
    exact h.choosing (hbase ▸ hchoosing)
  | grows hpool hbase hassigned =>
    rw [hpool]
    exact Nat.succ_pos _
  | fellBack hl haccepts hzero hpool hbase hassigned =>
    rw [hpool]
    exact h.choosing (hbase ▸ hchoosing)
  | began hl hpos hpool hassigned =>
    rw [hpool]
    exact hpos
  | chosen hl hold hpool hbase hassigned =>
    rw [hbase] at hchoosing
    exact absurd hchoosing (by simp)

theorem fresh_sane (n : Nat) : Sane n (fresh n) :=
  ⟨rfl, Or.inl ⟨rfl, rfl, rfl⟩, fun h => absurd h (by simp [fresh])⟩

/-- The subscript is always in range: no step fails. -/
theorem step_total (hint : n < 2 ^ 31) (l : Label) (h : Sane n s) :
    ∃ s', s.step l = .ok s' ∧ Sane n s' := by
  obtain ⟨s', he⟩ : ∃ s', s.step l = .ok s' := by
    cases l with
    | choose =>
      simp only [step]
      split
      · rename_i hchoosing
        have hle := h.loops_le
        obtain ⟨hnonneg, hlt, -⟩ :=
          EventLoopThreadPool.getNextLoop_index (h.choosing hchoosing) (by omega)
        unfold choose
        rw [if_pos ⟨hnonneg, hlt⟩]
        exact ⟨_, rfl⟩
      · exact ⟨_, rfl⟩
    | _ => exact ⟨_, rfl⟩
  exact ⟨s', he, step_sane h he⟩

/-! ## The assignments -/

/-- The invariant of a run whose steps are ready: the first `n` connections were given the workers in
their order. -/
structure InOrder (n : Nat) (s : Startup) : Prop extends Sane n s where
  next : s.pool.next = toInt32 s.assigned.length
  enough : s.assigned.length ≤ s.pool.loops ∨ s.pool.loops = n
  workers : ∀ loop ∈ s.assigned, 1 ≤ loop ∧ loop ≤ n
  first : s.assigned.take n = (List.range (min s.assigned.length n)).map (1 + ·)

theorem InOrder.toAssigned (h : InOrder n s) : s.Assigned := by
  unfold Assigned
  rw [h.toNat_num, h.first]
  refine ⟨h.workers, ?_⟩
  exact List.nodup_range.map fun _ _ => Nat.add_left_cancel

/-- Up to `n` connections all went to the workers in order. -/
theorem InOrder.assigned_eq (h : InOrder n s) (hfew : s.assigned.length ≤ n) :
    s.assigned = (List.range s.assigned.length).map (1 + ·) := by
  have hfirst := h.first
  rwa [List.take_of_length_le hfew, Nat.min_eq_left hfew] at hfirst

/-- What `getNextLoop` returns, and the pool it leaves. -/
theorem InOrder.getNextLoop (h : InOrder n s) (hpos : 0 < s.pool.loops) :
    s.pool.getNextLoop = (1 + EventLoopThreadPool.counter s.assigned.length % s.pool.loops,
      ⟨s.pool.loops, toInt32 (s.assigned.length + 1)⟩) := by
  rw [← EventLoopThreadPool.getNextLoop_toInt32 hpos, ← h.next]

theorem counter_of_lt {i : Nat} (h : i < 2 ^ 31) : EventLoopThreadPool.counter i = i := by
  rw [EventLoopThreadPool.counter_eq, Nat.mod_eq_of_lt (by omega), if_pos h]

/-- A connection is given the next worker. -/
theorem chosen_first (hint : n < 2 ^ 31) (h : InOrder n s) (hpos : 0 < s.pool.loops)
    (hready : s.assigned.length < s.pool.loops ∨ s.pool.loops = n) :
    (s.assigned ++ [s.pool.getNextLoop.1]).take n =
      (List.range (min (s.assigned.length + 1) n)).map (1 + ·) := by
  have hle := h.loops_le
  by_cases hfew : s.assigned.length < n
  · -- the pool has grown past this connection, and the counter has not reached its size
    have hlt : s.assigned.length < s.pool.loops := by omega
    have hall := h.assigned_eq (Nat.le_of_lt hfew)
    rw [h.getNextLoop hpos, counter_of_lt (by omega), Nat.mod_eq_of_lt hlt,
      List.take_of_length_le (by simp; omega), Nat.min_eq_left (by omega), List.range_succ,
      List.map_append, ← hall]
    rfl
  · rw [List.take_append_of_le_length (by omega), h.first, Nat.min_eq_right (by omega),
      Nat.min_eq_right (by omega)]

theorem InOrder.frame (h : InOrder n s) (hsane : Sane n s') (hpool : s'.pool = s.pool)
    (hassigned : s'.assigned = s.assigned) : InOrder n s' := by
  refine ⟨hsane, ?_, ?_, ?_, ?_⟩ <;> rw [hassigned]
  · rw [hpool]
    exact h.next
  · rw [hpool]
    exact h.enough
  · exact h.workers
  · exact h.first

theorem step_inOrder (hint : n < 2 ^ 31) (h : InOrder n s) (hready : Ready s l)
    (he : s.step l = .ok s') : InOrder n s' := by
  have hsane := step_sane h.toSane he
  cases step_stepped he with
  | same hpool hbase hassigned => exact h.frame hsane hpool hassigned
  | grows hpool hbase hassigned =>
    have hle := hsane.loops_le
    have henough := h.enough
    refine ⟨hsane, ?_, ?_, ?_, ?_⟩ <;> rw [hassigned]
    · rw [hpool]
      exact h.next
    · rw [hpool] at hle ⊢
      dsimp only at hle ⊢
      omega
    · exact h.workers
    · exact h.first
  | fellBack hl haccepts hzero hpool hbase hassigned =>
    subst hl
    exact absurd (hready haccepts) (by omega)
  | began hl hpos hpool hassigned => exact h.frame hsane hpool hassigned
  | chosen hl hchoosing hpool hbase hassigned =>
    subst hl
    have hpos := h.choosing hchoosing
    have hcases := hready hchoosing
    rw [h.toNat_num] at hcases
    have hle := h.loops_le
    have hget := h.getNextLoop hpos
    have hlen : (s.assigned ++ [s.pool.getNextLoop.1]).length = s.assigned.length + 1 := by simp
    refine ⟨hsane, ?_, ?_, ?_, ?_⟩ <;> rw [hassigned]
    · rw [hpool, hlen, hget]
    · rw [hpool, hlen, hget]
      dsimp only
      omega
    · intro loop hmem
      rcases List.mem_append.mp hmem with hold | hnew
      · exact h.workers loop hold
      · rw [List.mem_singleton.mp hnew, hget]
        have hlt := Nat.mod_lt (EventLoopThreadPool.counter s.assigned.length) hpos
        refine ⟨Nat.le_add_right _ _, ?_⟩
        change 1 + EventLoopThreadPool.counter s.assigned.length % s.pool.loops ≤ n
        omega
    · rw [hlen]
      exact chosen_first hint h hpos hcases

theorem fresh_inOrder (n : Nat) : InOrder n (fresh n) where
  toSane := fresh_sane n
  next := (toInt32_of_lt (by decide)).symm
  enough := Or.inl (Nat.le_refl 0)
  workers := fun loop hmem => absurd hmem (by simp [fresh])
  first := by simp [fresh]

/-- The base loop, and a worker that has a connection already, are given away by steps that are not
ready. -/
theorem ready_of_assigned (hint : n < 2 ^ 31) (h : InOrder n s) (he : s.step l = .ok s')
    (h' : s'.Assigned) : Ready s l := by
  unfold Assigned at h'
  rw [(step_sane h.toSane he).toNat_num] at h'
  cases l with
  | accept =>
    intro haccepts
    by_contra hzero
    have hbase : s'.assigned = s.assigned ++ [baseLoop] := by
      obtain rfl := Except.ok.inj he
      rw [if_pos haccepts]
      unfold accept
      rw [if_pos (by omega)]
    have hworker := (h'.1 baseLoop (by rw [hbase]; simp)).1
    exact absurd hworker (by decide)
  | choose =>
    intro hchoosing
    rw [h.toNat_num]
    by_contra hnot
    rw [not_or] at hnot
    have hpos := h.choosing hchoosing
    have hle := h.loops_le
    have henough := h.enough
    -- as many connections as loops: the counter is back at the first one
    have hlen : s.assigned.length = s.pool.loops := by omega
    have hone : s.pool.getNextLoop.1 = 1 := by
      rw [h.getNextLoop hpos, counter_of_lt (by omega), hlen, Nat.mod_self]
    have hassigned : s'.assigned = s.assigned ++ [1] := by
      rw [choose_inv hchoosing he, hone]
    have hmem : 1 ∈ s.assigned := by
      rw [h.assigned_eq (by omega)]
      exact List.mem_map.mpr ⟨0, List.mem_range.mpr (by omega), rfl⟩
    have hnodup := h'.2
    rw [hassigned, List.take_of_length_le (by simp; omega)] at hnodup
    exact (List.nodup_append.mp hnodup).2.2 1 hmem 1 (by simp) rfl
  | _ => trivial

/-- **Connections go to the workers, the first `n` to distinct ones, exactly in the runs whose steps are
ready.** -/
theorem workers_assigned_iff {n : Nat} (hint : n < 2 ^ 31) (ls : List Label) :
    (∀ before after, ls = before ++ after →
      ∃ s, run step (fresh n) before = .ok s ∧ s.Assigned) ↔ Along step Ready (fresh n) ls := by
  have htotal := fun ls => run_total (step_total hint) (fresh_sane n) ls
  constructor
  · intro hall
    obtain ⟨t, hrun, -⟩ := htotal ls
    refine along_of_prefixes (I := InOrder n) (step_inOrder hint) (ready_of_assigned hint)
      (fresh_inOrder n) hrun ?_
    intro before after s hsplit hs
    obtain ⟨s', hs', hassigned⟩ := hall before after hsplit
    obtain rfl := Except.ok.inj (hs.symm.trans hs')
    exact hassigned
  · rintro halong before after rfl
    obtain ⟨s, hs, -⟩ := htotal before
    have hbefore := ((along_append hs).mp halong).1
    exact ⟨s, hs,
      (run_invariant (I := InOrder n) (step_inOrder hint) (fresh_inOrder n) hbefore hs).toAssigned⟩

/-- A thread is created, has its loop up, and is in the pool. -/
def grow (i : Nat) : List Label := [.start, .publish i, .start, .start]

/-- The first connection comes while the pool grows, the others after that. -/
def oneEarly : List Label :=
  [.start, .start, .listen, .start] ++ grow 0 ++ [.accept] ++ grow 1 ++
    [.choose, .start, .accept, .choose, .accept, .choose]

theorem workers_assigned_oneEarly :
    (∃ s, run step (fresh 2) oneEarly = .ok s ∧ s.assigned = [1, 2, 1]) ∧
      ∀ before after, oneEarly = before ++ after →
        ∃ s, run step (fresh 2) before = .ok s ∧ s.Assigned :=
  ⟨by decide +kernel, (workers_assigned_iff (n := 2) (by decide) oneEarly).mpr (by decide +kernel)⟩

/-- `start()` has pushed the closure that listens, and no worker is there yet: the connection goes to
the base loop. -/
def beforeWorkers : List Label := [.start, .start, .listen, .accept]

/-- The second connection comes before the second worker, and the first worker is given both. -/
def betweenWorkers : List Label :=
  [.start, .start, .listen, .start] ++ grow 0 ++ [.accept, .choose, .accept, .choose] ++ grow 1

theorem workers_not_assigned_early :
    (∃ s, run step (fresh 2) beforeWorkers = .ok s ∧ s.assigned = [baseLoop] ∧ ¬ s.Assigned) ∧
      ∃ s, run step (fresh 2) betweenWorkers = .ok s ∧ s.assigned = [1, 1] ∧ ¬ s.Assigned := by
  decide +kernel

/-! ## After `start()` -/

/-- `start()` was called and has returned. -/
def returned (s : Startup) : Bool := s.started && s.starter = .outside

theorem Sane.loops_of_returned (h : Sane n s) (hreturned : s.returned = true) : s.pool.loops = n := by
  simp only [returned, Bool.and_eq_true, decide_eq_true_eq] at hreturned
  obtain ⟨hstarted, hstarter⟩ := hreturned
  have hgrown := h.grown
  unfold Grown at hgrown
  rw [hstarter] at hgrown
  obtain ⟨hnot, -⟩ | ⟨-, hloops⟩ := hgrown
  · rw [hstarted] at hnot
    exact absurd hnot (by simp)
  · exact hloops

/-- After `start()` every connection finds the pool ready. -/
theorem ready_of_returned (hn : 0 < n) (h : Sane n s) (hreturned : s.returned = true) : Ready s l := by
  have hloops := h.loops_of_returned hreturned
  cases l with
  | accept => exact fun _ => by omega
  | choose => exact fun _ => Or.inr (hloops.trans h.toNat_num.symm)
  | _ => trivial

theorem step_returned (h : s.returned = true) (he : s.step l = .ok s') : s'.returned = true := by
  cases l with
  | start =>
    obtain rfl := Except.ok.inj he
    have hboth := h
    simp only [returned, Bool.and_eq_true, decide_eq_true_eq] at hboth
    unfold advance
    simp only [hboth.2]
    rw [if_pos hboth.1]
    exact h
  | publish i =>
    obtain rfl := Except.ok.inj he
    exact h
  | listen =>
    obtain rfl := Except.ok.inj he
    split <;> exact h
  | accept =>
    obtain rfl := Except.ok.inj he
    unfold accept
    split
    · split <;> exact h
    · exact h
  | choose =>
    by_cases hchoosing : s.base = .choosing
    · rw [choose_inv hchoosing he]
      exact h
    · obtain rfl := choose_idle hchoosing he
      exact h

/-- A connection is handled after `start()` only. -/
def Late (s : Startup) (l : Label) : Prop := l = .accept → s.returned = true

/-- **Connections that come after `start()` has returned** are given workers, the first `n` distinct
ones. -/
theorem assigned_of_late (hn : 0 < n) (hint : n < 2 ^ 31) {ls : List Label} {t : Startup}
    (hlate : Along step Late (fresh n) ls) (hrun : run step (fresh n) ls = .ok t) : t.Assigned := by
  have hready : Along step Ready (fresh n) ls := by
    refine hlate.of_invariant (I := fun s => Sane n s ∧ (s.base = .choosing → s.returned = true))
      ?_ ?_ ⟨fresh_sane n, fun h => absurd h (by simp [fresh])⟩
    · rintro s s' l ⟨hsane, hchoosing⟩ hl he
      refine ⟨step_sane hsane he, fun hbase => ?_⟩
      cases step_stepped he with
      | same _ hold _ | grows _ hold _ | fellBack _ _ _ _ hold _ =>
        exact step_returned (hchoosing (hold ▸ hbase)) he
      | began hl' _ _ _ => exact step_returned (hl hl') he
      | chosen _ _ _ hidle _ =>
        rw [hidle] at hbase
        exact absurd hbase (by simp)
    · rintro s l ⟨hsane, hchoosing⟩ hl
      cases l with
      | accept => exact ready_of_returned hn hsane (hl rfl)
      | choose => exact fun hbase => ready_of_returned (l := .choose) hn hsane (hchoosing hbase) hbase
      | _ => trivial
  exact (run_invariant (I := InOrder n) (step_inOrder hint) (fresh_inOrder n) hready hrun).toAssigned

/-- The pool that `TcpServer.started` begins with: `start()` has returned, and no connection was
accepted. -/
theorem returned_pool (cfg : Config) (h : InOrder cfg.threadNum s) (hreturned : s.returned = true)
    (hnone : s.assigned = []) : s.pool = (TcpServer.started cfg).threadPool := by
  have hloops := h.loops_of_returned hreturned
  have hnext := h.next
  rw [hnone, List.length_nil, toInt32_of_lt (by decide)] at hnext
  change s.pool = ⟨cfg.threadNum, 0⟩
  rw [← hloops]
  change s.pool = ⟨s.pool.loops, (0 : Nat)⟩
  rw [← hnext]

end Startup

end HyperMuduo.Net.TcpServer
