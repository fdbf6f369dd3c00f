import HyperMuduo.TcpClient.Steps

/-!
# One notification of a disconnect

`connectionDestroyed` calls the connection callback without looking at the state. Two parties schedule
it: the close callback of the connection, and `~TcpClient` for the connection it read. `disconnects`
counts for a connection the notifications made and those to come, the closure `~TcpClient` is about to
post included.

`~TcpClient` reads `connection_` on its own thread and posts later. A close that is processed after the
read finds the connection open and schedules a second `connectionDestroyed`.

* `Notified`: the invariant. An open connection that `~TcpClient` has not read is owed nothing.
* **`disconnect_notified_once`**: no connection is notified twice, in every run in which no connection
  is closed between the read of `~TcpClient` and the run of its closure.
-/

namespace HyperMuduo.Net.TcpClient

open HyperMuduo.Lib

namespace World

/-- How often the connection callback was called for the disconnect. -/
def notices (s : World) (id : Nat) : Nat := s.log.count (.effect id (.connectionCallback false))

/-- The notifications of the disconnect made and to come. -/
def disconnects (s : World) (id : Nat) : Nat :=
  s.notices id + s.destroying.countP (·.captures = some id)

/-- No connection is closed that `~TcpClient` is about to destroy. -/
def ClosesAlone (s : World) (l : Label) : Prop :=
  ∀ id, s.closes l = some id → .clientDestroyed id ∉ s.destroying

instance (s : World) (l : Label) : Decidable (s.ClosesAlone l) :=
  decidable_of_iff ((s.closes l).all fun id => .clientDestroyed id ∉ s.destroying)
    (by unfold ClosesAlone; cases s.closes l <;> simp)

structure Notified (s : World) : Prop where
  once : ∀ id, s.disconnects id ≤ 1
  unclosed : ∀ id c, s.conns id = some c → c.state ≠ .disconnected →
    .clientDestroyed id ∉ s.destroying → s.disconnects id = 0
  /-- What `~TcpClient` will read. -/
  current : s.destructor.unread = true → ∀ id, s.client.connection = some id → s.disconnects id = 0
  fresh : ∀ id, s.created ≤ id → s.disconnects id = 0
  made : ∀ id c, s.conns id = some c → id < s.created
  known : ∀ id, s.client.connection = some id → id < s.created

variable {s s₀ s' : World} {l : Label} {kc : Connector.Kernel} {id : Nat}

theorem start_notified (cfg : Config) : (start cfg).Notified := by
  have hzero : ∀ id, (start cfg).disconnects id = 0 := fun id => rfl
  exact
    { once := fun id => by rw [hzero]; exact Nat.zero_le _
      unclosed := fun id _ _ _ _ => hzero id
      current := fun _ id _ => hzero id
      fresh := fun id _ => hzero id
      made := fun id c h => absurd h (by simp [start])
      known := fun id h => absurd h (by simp [start, construct]) }

/-- Steps that schedule no notification and reopen no connection. -/
theorem Notified.of_le (h : s.Notified) (hle : ∀ j, s'.disconnects j ≤ s.disconnects j)
    (hconns : ∀ j c', s'.conns j = some c' → ∃ c, s.conns j = some c ∧
      (c'.state ≠ .disconnected → c.state ≠ .disconnected ∧
        (.clientDestroyed j ∈ s.destroying → .clientDestroyed j ∈ s'.destroying)))
    (hunread : s'.destructor.unread = true → s.destructor.unread = true)
    (hconnection : ∀ j, s'.client.connection = some j → s.client.connection = some j)
    (hcreated : s'.created = s.created) : s'.Notified where
  once j := (hle j).trans (h.once j)
  unclosed j c' hc' hopen hnot := by
    obtain ⟨c, hc, hback⟩ := hconns j c' hc'
    obtain ⟨hopen', hkept⟩ := hback hopen
    have hzero := h.unclosed j c hc hopen' fun hmem => hnot (hkept hmem)
    exact Nat.le_zero.mp ((hle j).trans hzero.le)
  current hread j hj := by
    have hzero := h.current (hunread hread) j (hconnection j hj)
    exact Nat.le_zero.mp ((hle j).trans hzero.le)
  fresh j hj := by
    rw [hcreated] at hj
    exact Nat.le_zero.mp ((hle j).trans (h.fresh j hj).le)
  made j c' hc' := by
    obtain ⟨c, hc, -⟩ := hconns j c' hc'
    rw [hcreated]
    exact h.made j c hc
  known j hj := by
    rw [hcreated]
    exact h.known j (hconnection j hj)

/-- Steps that touch no connection. -/
theorem Notified.of_same (h : s.Notified) (hnotices : ∀ j, s'.notices j = s.notices j)
    (hdestroying : s'.destroying = s.destroying) (hconns : s'.conns = s.conns)
    (hunread : s'.destructor.unread = true → s.destructor.unread = true)
    (hconnection : ∀ j, s'.client.connection = some j → s.client.connection = some j)
    (hcreated : s'.created = s.created) : s'.Notified := by
  refine h.of_le ?_ ?_ hunread hconnection hcreated
  · intro j
    unfold disconnects
    rw [hnotices, hdestroying]
  · intro j c hc
    rw [hconns] at hc
    rw [hdestroying]
    exact ⟨c, hc, fun hopen => ⟨hopen, fun hmem => hmem⟩⟩

theorem Frame.notices (hf : Frame s s') (j : Nat) : s'.notices j = s.notices j := by
  obtain ⟨calls, hlog⟩ := hf.log
  have hcalls : Entry.effect j (.connectionCallback false) ∉ calls.map .called := by simp
  unfold World.notices
  rw [hlog, List.count_append, List.count_eq_zero.mpr hcalls, Nat.add_zero]

theorem Notified.frame (h : s.Notified) (hf : Frame s s')
    (hdestroying : s'.destroying = s.destroying) : s'.Notified :=
  h.of_same hf.notices hdestroying hf.conns hf.unread (fun j hj => by rw [← hf.connection]; exact hj)
    hf.created

/-! ## The connector -/

theorem absorb_notices (s : World) (c : Connector) (es : List Connector.Effect) (j : Nat) :
    (s.absorb c es).notices j = s.notices j := by
  have hes : Entry.effect j (.connectionCallback false) ∉ es.map .connector := by simp
  unfold World.notices
  rw [absorb_eq, List.count_append, List.count_eq_zero.mpr hes, Nat.add_zero]

theorem Notified.absorb (h : s.Notified) (c : Connector) (es : List Connector.Effect) :
    (s.absorb c es).Notified := by
  refine h.of_same (absorb_notices s c es) (absorb_destroying s c es) ?_ ?_ ?_ ?_
  all_goals rw [absorb_eq]
  · exact fun hread => hread
  · exact fun _ hj => hj

theorem Notified.runConnector (h : s.Notified) {task : Connector.Task}
    (hrun : s.runConnector kc task = .ok s') : s'.Notified := by
  cases task with
  | startInLoop =>
    obtain ⟨-, -, c, es, -, rfl⟩ := runConnector_start hrun
    exact h.absorb c es
  | stopInLoop =>
    obtain ⟨-, rfl⟩ | ⟨-, rfl⟩ := runConnector_stop hrun
    · exact h.absorb _ _
    · exact h.absorb _ _

theorem Notified.handOver (h : s.Notified) (fd : Int) : (s.handOver fd).Notified := by
  have habsorbed := h.absorb
    { s.connector with
      state := .connected
      channel := none
      socket := some Connector.invalidFd }
    (Connector.removal s.connector.channel ++ [Connector.Effect.newConnectionCallback fd])
  exact habsorbed.of_same (fun _ => rfl) rfl rfl (fun hread => hread) (fun _ hj => hj) rfl

/-! ## The connections -/

theorem absorbConn_notices (s : World) (id : Nat) (c : TcpConnection) (es : List TcpConnection.Effect)
    (j : Nat) : (s.absorbConn id c es).notices j =
      s.notices j + (es.map (Entry.effect id)).count (.effect j (.connectionCallback false)) := by
  unfold World.notices
  rw [absorbConn_eq, List.count_append]

/-- A call that notifies of no disconnect. -/
theorem absorbConn_disconnects {c : TcpConnection} {es : List TcpConnection.Effect}
    (hsilent : TcpConnection.Effect.connectionCallback false ∉ es)
    (hes : TcpConnection.Effect.queueInLoop .connectionDestroyed ∉ es) (j : Nat) :
    (s.absorbConn id c es).disconnects j = s.disconnects j := by
  have hcount : (es.map (Entry.effect id)).count (.effect j (.connectionCallback false)) = 0 := by
    rw [List.count_eq_zero]
    intro hmem
    obtain ⟨e, he, heq⟩ := List.mem_map.mp hmem
    obtain ⟨-, rfl⟩ := Entry.effect.inj heq
    exact hsilent he
  unfold disconnects
  rw [absorbConn_notices, hcount, Nat.add_zero, absorbConn_destroying hes]

theorem Notified.absorbConn (h : s.Notified) {c c' : TcpConnection} {es : List TcpConnection.Effect}
    (hc : s.conns id = some c) (hstate : c.state = .disconnected → c'.state = .disconnected)
    (hsilent : TcpConnection.Effect.connectionCallback false ∉ es)
    (hes : TcpConnection.Effect.queueInLoop .connectionDestroyed ∉ es) :
    (s.absorbConn id c' es).Notified := by
  refine h.of_le (fun j => (absorbConn_disconnects hsilent hes j).le) ?_ ?_ ?_ ?_
  · intro j d hd
    rw [absorbConn_destroying hes]
    rcases absorbConn_conns_inv hd with ⟨rfl, rfl⟩ | ⟨-, hold⟩
    · exact ⟨c, hc, fun hopen => ⟨fun hclosed => hopen (hstate hclosed), fun hmem => hmem⟩⟩
    · exact ⟨d, hold, fun hopen => ⟨hopen, fun hmem => hmem⟩⟩
  all_goals rw [absorbConn_eq]
  · exact fun hread => hread
  · exact fun _ hj => hj

theorem Notified.plain (h : s.Notified) {c c' : TcpConnection} {es : List TcpConnection.Effect}
    (hc : s.conns id = some c) (hcall : TcpConnection.PlainCall c c' es) :
    (s.absorbConn id c' es).Notified := by
  refine h.absorbConn hc hcall.closed.mpr ?_ hcall.not_destroying
  intro hmem
  exact absurd (hcall.effects _ hmem) (by simp [TcpConnection.Effect.plain])

/-- A new connection is owed nothing. -/
theorem Notified.addConnection (h : s.Notified) (fd : Int) : (s.addConnection fd).Notified where
  once := h.once
  unclosed j d hd hopen hnot := by
    rcases addConnection_conns_inv hd with ⟨rfl, -⟩ | ⟨-, hold⟩
    · exact h.fresh _ (Nat.le_refl _)
    · exact h.unclosed j d hold hopen hnot
  current _ j hj := by
    obtain rfl := Option.some.inj hj
    exact h.fresh _ (Nat.le_refl _)
  fresh j hj := h.fresh j (Nat.le_of_succ_le hj)
  made j d hd := by
    rcases addConnection_conns_inv hd with ⟨rfl, -⟩ | ⟨-, hold⟩
    · exact Nat.lt_succ_self _
    · exact Nat.lt_succ_of_lt (h.made j d hold)
  known j hj := by
    obtain rfl := Option.some.inj hj
    exact Nat.lt_succ_self _

theorem Notified.dropConn (h : s.Notified) (id : Nat) : (s.dropConn id).Notified := by
  unfold World.dropConn
  split
  · exact h
  · refine h.of_le (fun _ => Nat.le_refl _) ?_ (fun hread => hread) (fun _ hj => hj) rfl
    intro j d hd
    exact ⟨d, (update_none_inv hd).2, fun hopen => ⟨hopen, fun hmem => hmem⟩⟩

/-! ## Closing and destroying -/

theorem connectionNotice_count (c : TcpConnection) (id j : Nat) :
    ((c.connectionNotice false).map (Entry.effect id)).count (.effect j (.connectionCallback false)) ≤
      if some id = some j then 1 else 0 := by
  unfold TcpConnection.connectionNotice
  by_cases hj : id = j
  · subst hj
    split <;> simp
  · split <;> simp [hj]

/-- `connectionDestroyed` makes the notification its closure stood for. -/
theorem Notified.destroyed (h : s.Notified) {c c₁ : TcpConnection} {task : Task} (hf : Frame s s₀)
    (hdestroying : s.destroying.Perm (task :: s₀.destroying)) (hcaptures : task.captures = some id)
    (hc : s₀.conns id = some c) :
    (s₀.absorbConn id (closed c₁)
      (.updateChannel .none :: c.connectionNotice false ++ [.removeChannel])).Notified := by
  have hqueued : TcpConnection.Effect.queueInLoop .connectionDestroyed ∉
      .updateChannel .none :: c.connectionNotice false ++ [.removeChannel] := by
    unfold TcpConnection.connectionNotice
    split <;> simp
  refine h.of_le ?_ ?_ ?_ ?_ ?_
  · intro j
    have hcount := connectionNotice_count c id j
    unfold disconnects
    rw [absorbConn_notices, hf.notices, absorbConn_destroying hqueued, hdestroying.countP_eq,
      List.countP_cons, hcaptures]
    simp only [List.map_append, List.map_cons, List.map_nil, List.count_append, List.count_cons,
      List.count_nil, decide_eq_true_eq]
    simp only [beq_iff_eq, Entry.effect.injEq, reduceCtorEq, and_false, if_false]
    omega
  · intro j d hd
    rw [absorbConn_destroying hqueued, ← hf.conns]
    rcases absorbConn_conns_inv hd with ⟨rfl, rfl⟩ | ⟨hj, hold⟩
    · exact ⟨c, hc, fun hopen => absurd rfl hopen⟩
    · refine ⟨d, hold, fun hopen => ⟨hopen, fun hmem => ?_⟩⟩
      rcases List.mem_cons.mp (hdestroying.mem_iff.mp hmem) with rfl | hmem'
      · exact absurd (Option.some.inj hcaptures) hj
      · exact hmem'
  all_goals rw [absorbConn_eq]
  · exact hf.unread
  · exact fun j hj => by rw [← hf.connection]; exact hj
  · exact hf.created

theorem forget_disconnects (s : World) (id j : Nat) :
    (s.forget id).disconnects j = s.disconnects j + if id = j then 1 else 0 := by
  have hnotices : (s.forget id).notices j = s.notices j := rfl
  unfold disconnects
  rw [hnotices, (forget_destroying s id).countP_eq, List.countP_cons]
  simp only [Task.captures, Option.some.injEq, decide_eq_true_eq, Nat.add_assoc]

/-- **A close schedules the only notification** of a connection that was owed none. -/
theorem Notified.forget (h : s.Notified) {c : TcpConnection} (hc : s.conns id = some c)
    (hclosed : c.state = .disconnected) (hzero : s.disconnects id = 0) : (s.forget id).Notified := by
  have hother : ∀ j, j ≠ id → (s.forget id).disconnects j = s.disconnects j := by
    intro j hj
    rw [forget_disconnects, if_neg (Ne.symm hj), Nat.add_zero]
  exact
    { once := by
        intro j
        by_cases hj : j = id
        · subst hj
          rw [forget_disconnects, hzero, if_pos rfl]
        · rw [hother j hj]
          exact h.once j
      unclosed := by
        intro j d hd hopen hnot
        change s.conns j = some d at hd
        by_cases hj : j = id
        · subst hj
          rw [hc] at hd
          obtain rfl := Option.some.inj hd
          exact absurd hclosed hopen
        · rw [hother j hj]
          refine h.unclosed j d hd hopen fun hmem => hnot ?_
          exact (forget_destroying s id).mem_iff.mpr (List.mem_cons_of_mem _ hmem)
      current := fun _ j hj => absurd hj (by simp [World.forget])
      fresh := by
        intro j hj
        change s.created ≤ j at hj
        have hlt := h.made id c hc
        rw [hother j (by omega)]
        exact h.fresh j hj
      made := h.made
      known := fun j hj => absurd hj (by simp [World.forget]) }

/-- `~TcpClient` reads a connection that is owed nothing, and will post its closure. -/
theorem Notified.reads (h : s.Notified) {t : ThreadId} (hd : s.destructor = .reading t)
    (hconnection : s.client.connection = some id) :
    ({ s with destructor := .posting t (some id) } : World).Notified := by
  have hzero := h.current (by rw [hd]; rfl) id hconnection
  have hdestroying : ({ s with destructor := .posting t (some id) } : World).destroying =
      s.destroying ++ [.clientDestroyed id] := by
    simp [World.destroying, tasks, hd, Destructor.task, destructorTask, Task.destroys]
  have hdisconnects : ∀ j, ({ s with destructor := .posting t (some id) } : World).disconnects j =
      s.disconnects j + if id = j then 1 else 0 := by
    intro j
    unfold disconnects
    rw [hdestroying, List.countP_append, List.countP_singleton]
    simp only [Task.captures, Option.some.injEq, decide_eq_true_eq]
    exact (Nat.add_assoc _ _ _).symm
  have hother : ∀ j, j ≠ id →
      ({ s with destructor := .posting t (some id) } : World).disconnects j = s.disconnects j := by
    intro j hj
    rw [hdisconnects, if_neg (Ne.symm hj), Nat.add_zero]
  exact
    { once := by
        intro j
        by_cases hj : j = id
        · subst hj
          rw [hdisconnects, hzero, if_pos rfl]
        · rw [hother j hj]
          exact h.once j
      unclosed := by
        intro j c hc hopen hnot
        rw [hdestroying, List.mem_append, not_or] at hnot
        by_cases hj : j = id
        · subst hj
          exact absurd (List.mem_singleton_self _) hnot.2
        · rw [hother j hj]
          exact h.unclosed j c hc hopen hnot.1
      current := fun hread => absurd hread (by simp [Destructor.unread])
      fresh := by
        intro j hj
        have hlt := h.known id hconnection
        change s.created ≤ j at hj
        rw [hother j (by omega)]
        exact h.fresh j hj
      made := h.made
      known := h.known }

/-! ## Steps and runs -/

theorem step_notified (hI : s.Notified) (hl : s.ClosesAlone l) (he : s.step l = .ok s') :
    s'.Notified := by
  cases step_stepped he with
  | steady h => exact hI.frame h.toFrame h.destroying
  | timer s₀ k h harmed hdestroying hk hlk hrun => exact (hI.frame h hdestroying).runConnector hrun
  | closure s₀ k task h hk hlk hl hrun =>
    exact (hI.frame h.toFrame h.destroying).runConnector hrun
  | writable s₀ k h hfree hl hrun =>
    have hI₀ := hI.frame h.toFrame h.destroying
    obtain ⟨fd, -, ⟨-, c, es, -, rfl⟩ | ⟨-, hrun⟩⟩ := handleWritable_ok hrun
    · exact hI₀.absorb c es
    · obtain ⟨-, c', es, hcall, rfl⟩ := onConnection_ok hrun
      exact ((hI₀.handOver fd).addConnection fd).plain (Function.update_self _ _ _) hcall
  | returned hl hcallback hrun =>
    subst hrun
    have hreturned : ({ s with inCallback := false } : World).Notified :=
      hI.of_same (fun _ => rfl) rfl rfl (fun hread => hread) (fun _ hj => hj) rfl
    exact hreturned.absorb _ _
  | plain s₀ id c c' es h hc hcall hrun =>
    subst hrun
    exact (hI.frame h.toFrame h.destroying).plain hc hcall
  | closes s₀ s₁ id c c' cb k h hk hlk hclient hcloses hc hstate hcb hwiring hclosed hs₁ hrun =>
    have hI₀ := hI.frame h.toFrame h.destroying
    have hrecorded : (s₀.record (.handleClose id)).Notified := by
      refine hI₀.of_same (fun j => ?_) rfl rfl (fun hread => hread) (fun _ hj => hj) rfl
      simp [World.notices, record]
    have hI₁ : s₁.Notified := by
      subst hs₁
      exact hrecorded.absorbConn hc (fun _ => hclosed) (by simp) (by simp)
    split at hrun
    · -- an open connection `~TcpClient` has no closure for
      have hopen : c.state ≠ .disconnected := by
        rcases hstate with hs | hs <;> rw [hs] <;> simp
      have hspared : .clientDestroyed id ∉ s₀.destroying := by
        rw [h.destroying]
        exact hl id hcloses
      have hzero : s₁.disconnects id = 0 := by
        rw [hs₁, absorbConn_disconnects (by simp) (by simp)]
        exact hrecorded.unclosed id c hc hopen hspared
      have hc₁ : s₁.conns id = some c' := by
        rw [hs₁, absorbConn_eq]
        exact Function.update_self _ _ _
      have hforgot := hI₁.forget hc₁ hclosed hzero
      obtain ⟨-, ⟨-, rfl⟩ | ⟨-, hrestart⟩⟩ := closeCallback_ok hrun
      · exact hforgot
      · have hrewound : (s₁.forget id).rewind.Notified :=
          hforgot.of_same (fun _ => rfl) rfl rfl (fun hread => hread) (fun _ hj => hj) rfl
        exact hrewound.runConnector hrestart
    · subst hrun
      exact hI₁
  | destroyed s₀ id c c₁ task h harmed hdestroying hc htask hrun =>
    subst hrun
    refine hI.destroyed h hdestroying ?_ hc
    rcases htask with ⟨rfl, -⟩ | ⟨rfl, -⟩ <;> rfl
  | dropped id hl howned hrun =>
    subst hrun
    exact hI.dropConn id
  | begins t hl hd hrun =>
    subst hrun
    refine hI.of_same (fun _ => rfl) ?_ rfl (fun _ => by rw [hd]; rfl) (fun _ hj => hj) rfl
    simp [World.destroying, tasks, hd, Destructor.task]
  | reads t id hd hconnection hrun =>
    subst hrun
    exact hI.reads hd hconnection
  | finishes t hd hrun =>
    subst hrun
    refine hI.of_same (fun _ => rfl) ?_ rfl ?_ ?_ rfl
    · simp [World.destroying, tasks, hd, Destructor.task]
    · exact fun hread => absurd hread (by simp [Destructor.unread])
    · exact fun j hj => absurd hj (by simp)

/-- `~TcpClient` on another thread, up to its post. -/
def postsDestroyed : List Label :=
  [.destroy (.user 1), .destructor (polled []), .destructor (polled [])]

/-- The connection is established, `~TcpClient` runs, and the loop runs its closure. -/
def destroyedByClient : List Label :=
  callConnect (attempted 5 .einprogress) ++ connected 5 ++ postsDestroyed ++
    [.destructor (polled []), .loop (polled []), .loop (polled []), .loop (polled [])]

/-- The peer closes the connection after the post of `~TcpClient`, and the loop runs both closures. -/
def closedAfterPost : List Label :=
  callConnect (attempted 5 .einprogress) ++ connected 5 ++ postsDestroyed ++ closedByPeer 5 ++
    [.loop (polled []), .loop (polled []), .loop (polled [])]

end World

end HyperMuduo.Net.TcpClient
