import HyperMuduo.TcpClient.Steps

/-!
# What `connection_` points to

A connection is `Live` from the `onConnection` that makes it to its `handleClose`. `Tracks` says that
`connection_` is set exactly when a connection is live, and then to that one; there is at most one.

The close callback clears `connection_` without looking at what it points to, and `onConnection` sets
it without looking whether it is set. `stop()` resets the connector and leaves the connection alone, so
a later `connect()` can make a second one: the close of the first then clears the pointer to it.

* `step_tracked`: while no connection is handed over with `connection_` set, the connection that closes
  is the one `connection_` points to.
* **`connection_tracked_iff`**: in a run without `~TcpClient`, `Tracks` holds in every state exactly
  when no attempt succeeds while `connection_` is set.
-/

namespace HyperMuduo.Net.TcpClient

open HyperMuduo.Lib

/-- The step begins `~TcpClient`. -/
def Label.isDestroy : Label → Bool
  | .destroy _ => true
  | _ => false

namespace World

/-- The connection was made and has not run `handleClose`. -/
def Live (s : World) (id : Nat) : Prop := id < s.created ∧ .handleClose id ∉ s.log

/-- `connection_` points to the live connection. -/
def Tracks (s : World) : Prop := ∀ id, s.client.connection = some id ↔ s.Live id

/-- No attempt succeeds while `connection_` is set. -/
def EstablishesAlone (s : World) (l : Label) : Prop :=
  s.establishes l = true → s.client.connection = none

instance (s : World) (l : Label) : Decidable (s.EstablishesAlone l) :=
  inferInstanceAs (Decidable (_ → _))

/-- What goes with `Tracks`, while `~TcpClient` has not begun. -/
structure Tracked (s : World) : Prop where
  tracks : s.Tracks
  idle : s.destructor = .idle
  spared : ∀ id, .clientDestroyed id ∉ s.destroying
  callback : s.connector.newConnectionCallback = true
  made : ∀ id c, s.conns id = some c → id < s.created
  wired : ∀ id c, s.conns id = some c → c.closeCallback = some .clientReset
  closed : ∀ id c, s.conns id = some c → .handleClose id ∈ s.log → c.state = .disconnected
  logged : ∀ id, .handleClose id ∈ s.log → id < s.created

variable {s s₀ s' : World} {l : Label} {kc : Connector.Kernel} {id : Nat}

theorem start_tracked (cfg : Config) : (start cfg).Tracked where
  tracks id := by simp [start, construct, Live]
  idle := rfl
  spared id := by simp [start, World.destroying, tasks, Phase.tasks, Destructor.task]
  callback := rfl
  made id c h := absurd h (by simp [start])
  wired id c h := absurd h (by simp [start])
  closed id c h := absurd h (by simp [start])
  logged id h := absurd h (by simp [start])

/-- Steps that leave the connections, `connection_` and the closes alone. -/
theorem Tracked.of_same (h : s.Tracked) (hconnection : s'.client.connection = s.client.connection)
    (hidle : s'.destructor = .idle) (hspared : ∀ id, .clientDestroyed id ∉ s'.destroying)
    (hcallback : s'.connector.newConnectionCallback = s.connector.newConnectionCallback)
    (hcreated : s'.created = s.created) (hconns : s'.conns = s.conns)
    (hlog : ∀ id, .handleClose id ∈ s'.log ↔ .handleClose id ∈ s.log) : s'.Tracked where
  tracks id := by
    unfold Live
    rw [hconnection, hcreated, hlog]
    exact h.tracks id
  idle := hidle
  spared := hspared
  callback := by rw [hcallback]; exact h.callback
  made := by rw [hconns, hcreated]; exact h.made
  wired := by rw [hconns]; exact h.wired
  closed id c hc hmem := by
    rw [hconns] at hc
    exact h.closed id c hc ((hlog id).mp hmem)
  logged id hmem := by
    rw [hcreated]
    exact h.logged id ((hlog id).mp hmem)

theorem Tracked.frame (h : s.Tracked) (hf : Frame s s')
    (hspared : ∀ id, .clientDestroyed id ∉ s'.destroying) : s'.Tracked := by
  obtain ⟨calls, hlog⟩ := hf.log
  refine h.of_same hf.connection (hf.idle h.idle) hspared hf.attempt.newConnectionCallback hf.created
    hf.conns ?_
  intro id
  rw [hlog]
  simp

theorem Tracked.steady (h : s.Tracked) (hs : Steady s s') : s'.Tracked :=
  h.frame hs.toFrame fun id => by rw [hs.destroying]; exact h.spared id

/-- A call of the connector that hands nothing over. -/
theorem Tracked.absorb (h : s.Tracked) {c : Connector} {es : List Connector.Effect}
    (hc : c.newConnectionCallback = s.connector.newConnectionCallback) : (s.absorb c es).Tracked := by
  rw [absorb_eq]
  refine h.of_same rfl h.idle h.spared hc rfl rfl ?_
  intro id
  simp

theorem attempted_callback {c c' : Connector} {fd : Int} {es : List Connector.Effect}
    (h : Connector.Attempted c fd c' es) : c'.newConnectionCallback = c.newConnectionCallback := by
  cases h <;> rfl

theorem settled_callback {c c' : Connector} {fd : Int} {es : List Connector.Effect}
    (h : Connector.Settled c fd c' es) : c'.newConnectionCallback = c.newConnectionCallback := by
  cases h <;> rfl

theorem Tracked.runConnector (h : s.Tracked) {task : Connector.Task}
    (hrun : s.runConnector kc task = .ok s') : s'.Tracked := by
  cases task with
  | startInLoop =>
    obtain ⟨-, -, c, es, hattempted, rfl⟩ := runConnector_start hrun
    exact h.absorb (attempted_callback hattempted)
  | stopInLoop =>
    obtain ⟨-, rfl⟩ | ⟨-, rfl⟩ := runConnector_stop hrun
    · exact h.absorb rfl
    · exact h.absorb rfl

/-- A call on a connection that is not its `handleClose`. -/
theorem Tracked.absorbConn (h : s.Tracked) {c c' : TcpConnection} {es : List TcpConnection.Effect}
    (hc : s.conns id = some c) (hcb : c'.closeCallback = c.closeCallback)
    (hstate : c.state = .disconnected → c'.state = .disconnected)
    (hes : TcpConnection.Effect.queueInLoop .connectionDestroyed ∉ es) :
    (s.absorbConn id c' es).Tracked := by
  have hdestroying : (s.absorbConn id c' es).destroying = s.destroying := absorbConn_destroying hes
  have hlog : ∀ j, .handleClose j ∈ (s.absorbConn id c' es).log ↔ .handleClose j ∈ s.log := by
    intro j
    rw [absorbConn_eq]
    simp
  have hconns : ∀ j d, (s.absorbConn id c' es).conns j = some d →
      ∃ d₀, s.conns j = some d₀ ∧ d.closeCallback = d₀.closeCallback ∧
        (d₀.state = .disconnected → d.state = .disconnected) := by
    intro j d hd
    rcases absorbConn_conns_inv hd with ⟨rfl, rfl⟩ | ⟨-, hold⟩
    · exact ⟨c, hc, hcb, hstate⟩
    · exact ⟨d, hold, rfl, fun h => h⟩
  refine ⟨?_, ?_, ?_, ?_, ?_, ?_, ?_, ?_⟩
  · intro j
    unfold Live
    rw [hlog, absorbConn_eq]
    exact h.tracks j
  · rw [absorbConn_eq]
    exact h.idle
  · intro j
    rw [hdestroying]
    exact h.spared j
  · rw [absorbConn_eq]
    exact h.callback
  · intro j d hd
    obtain ⟨d₀, hd₀, -, -⟩ := hconns j d hd
    rw [absorbConn_eq]
    exact h.made j d₀ hd₀
  · intro j d hd
    obtain ⟨d₀, hd₀, hcb', -⟩ := hconns j d hd
    rw [hcb']
    exact h.wired j d₀ hd₀
  · intro j d hd hmem
    obtain ⟨d₀, hd₀, -, hstate'⟩ := hconns j d hd
    exact hstate' (h.closed j d₀ hd₀ ((hlog j).mp hmem))
  · intro j hmem
    rw [absorbConn_eq]
    exact h.logged j ((hlog j).mp hmem)

/-- **`onConnection` with `connection_` empty**: the new connection is the only live one. -/
theorem Tracked.addConnection (h : s.Tracked) (fd : Int) (hnone : s.client.connection = none) :
    (s.addConnection fd).Tracked := by
  have hdead : ∀ id, ¬ s.Live id := by
    intro id hlive
    have hsome := (h.tracks id).mpr hlive
    rw [hnone] at hsome
    exact absurd hsome (by simp)
  have hfresh : Entry.handleClose s.created ∉ s.log :=
    fun hmem => absurd (h.logged s.created hmem) (Nat.lt_irrefl _)
  refine ⟨?_, h.idle, h.spared, h.callback, ?_, ?_, ?_, ?_⟩
  · intro id
    change some s.created = some id ↔ id < s.created + 1 ∧ Entry.handleClose id ∉ s.log
    constructor
    · intro hid
      obtain rfl := Option.some.inj hid
      exact ⟨Nat.lt_succ_self _, hfresh⟩
    · rintro ⟨hlt, hopen⟩
      rcases Nat.lt_succ_iff_lt_or_eq.mp hlt with hlt | rfl
      · exact absurd ⟨hlt, hopen⟩ (hdead id)
      · rfl
  · intro j d hd
    change j < s.created + 1
    rcases addConnection_conns_inv hd with ⟨rfl, -⟩ | ⟨-, hold⟩
    · exact Nat.lt_succ_self _
    · exact Nat.lt_succ_of_lt (h.made j d hold)
  · intro j d hd
    rcases addConnection_conns_inv hd with ⟨-, rfl⟩ | ⟨-, hold⟩
    · rfl
    · exact h.wired j d hold
  · intro j d hd hmem
    rcases addConnection_conns_inv hd with ⟨rfl, -⟩ | ⟨-, hold⟩
    · exact absurd hmem hfresh
    · exact h.closed j d hold hmem
  · intro j hmem
    exact Nat.lt_succ_of_lt (h.logged j hmem)

/-- **The connection that closes is the one `connection_` points to**: nothing is live after it. -/
theorem Tracked.forget (h : s.Tracked) {c c' : TcpConnection} (cb : TcpConnection.CloseCallback)
    (hc : s.conns id = some c) (hstate : c.state = .connected ∨ c.state = .disconnecting)
    (hclosed : c'.state = .disconnected) (hcb : c'.closeCallback = c.closeCallback) :
    (((s.record (.handleClose id)).absorbConn id c'
      [.updateChannel .none, .closeCallback cb]).forget id).Tracked := by
  have hopen : Entry.handleClose id ∉ s.log := by
    intro hmem
    rw [h.closed id c hc hmem] at hstate
    exact absurd hstate (by simp)
  have hmine : s.client.connection = some id := (h.tracks id).mpr ⟨h.made id c hc, hopen⟩
  have hdestroying : ((s.record (.handleClose id)).absorbConn id c'
      [.updateChannel .none, .closeCallback cb]).destroying = s.destroying :=
    absorbConn_destroying (by simp)
  have hspared := forget_destroying ((s.record (.handleClose id)).absorbConn id c'
    [.updateChannel .none, .closeCallback cb]) id
  rw [hdestroying] at hspared
  have hconns : ∀ j d, (((s.record (.handleClose id)).absorbConn id c'
      [.updateChannel .none, .closeCallback cb]).forget id).conns j = some d →
        j = id ∧ d = c' ∨ j ≠ id ∧ s.conns j = some d := by
    intro j d hd
    change ((s.record (.handleClose id)).absorbConn id c'
      [.updateChannel .none, .closeCallback cb]).conns j = some d at hd
    have hinv := absorbConn_conns_inv hd
    exact hinv
  refine ⟨?_, ?_, ?_, ?_, ?_, ?_, ?_, ?_⟩
  · intro j
    unfold Live
    rw [absorbConn_eq]
    change none = some j ↔ j < s.created ∧ Entry.handleClose j ∉ s.log ++ [.handleClose id] ++ _
    refine ⟨fun hj => absurd hj (by simp), ?_⟩
    rintro ⟨hlt, hj⟩
    simp only [List.mem_append, List.mem_singleton, not_or] at hj
    have hj' := (h.tracks j).mpr ⟨hlt, hj.1.1⟩
    rw [hmine] at hj'
    exact absurd (Option.some.inj hj') (fun heq => hj.1.2 (by rw [heq]))
  · rw [absorbConn_eq]
    exact h.idle
  · intro j hmem
    rcases List.mem_cons.mp (hspared.mem_iff.mp hmem) with hj | hj
    · exact absurd hj (by simp)
    · exact h.spared j hj
  · rw [absorbConn_eq]
    exact h.callback
  · intro j d hd
    rw [absorbConn_eq]
    rcases hconns j d hd with ⟨rfl, -⟩ | ⟨-, hold⟩
    · exact h.made j c hc
    · exact h.made j d hold
  · intro j d hd
    rcases hconns j d hd with ⟨rfl, rfl⟩ | ⟨-, hold⟩
    · rw [hcb]
      exact h.wired j c hc
    · exact h.wired j d hold
  · intro j d hd hmem
    rcases hconns j d hd with ⟨rfl, rfl⟩ | ⟨hj, hold⟩
    · exact hclosed
    · rw [absorbConn_eq] at hmem
      change Entry.handleClose j ∈ s.log ++ [.handleClose id] ++ _ at hmem
      exact h.closed j d hold (by simpa [hj] using hmem)
  · intro j hmem
    rw [absorbConn_eq] at hmem ⊢
    change Entry.handleClose j ∈ s.log ++ [.handleClose id] ++ _ at hmem
    by_cases hj : j = id
    · subst hj
      exact h.made j c hc
    · exact h.logged j (by simpa [hj] using hmem)

theorem Tracked.rewind (h : s.Tracked) : s.rewind.Tracked :=
  h.of_same rfl h.idle h.spared rfl rfl rfl fun _ => Iff.rfl

theorem Tracked.handOver (h : s.Tracked) (fd : Int) : (s.handOver fd).Tracked := by
  have habsorbed : (s.absorb
      { s.connector with
        state := .connected
        channel := none
        socket := some Connector.invalidFd }
      (Connector.removal s.connector.channel ++
        [Connector.Effect.newConnectionCallback fd])).Tracked := h.absorb rfl
  exact habsorbed.of_same rfl habsorbed.idle habsorbed.spared rfl rfl rfl fun _ => Iff.rfl

theorem Tracked.dropConn (h : s.Tracked) (id : Nat) : (s.dropConn id).Tracked := by
  have hsame : (s.dropConn id).client = s.client ∧ (s.dropConn id).destructor = s.destructor ∧
      (s.dropConn id).destroying = s.destroying ∧ (s.dropConn id).connector = s.connector ∧
      (s.dropConn id).created = s.created ∧ (s.dropConn id).log = s.log := by
    unfold World.dropConn
    split <;> exact ⟨rfl, rfl, rfl, rfl, rfl, rfl⟩
  obtain ⟨hclient, hdestructor, hdestroying, hconnector, hcreated, hlog⟩ := hsame
  exact
    { tracks := fun j => by unfold Live; rw [hclient, hcreated, hlog]; exact h.tracks j
      idle := by rw [hdestructor]; exact h.idle
      spared := fun j => by rw [hdestroying]; exact h.spared j
      callback := by rw [hconnector]; exact h.callback
      made := fun j d hd => by rw [hcreated]; exact h.made j d (dropConn_conns_inv hd)
      wired := fun j d hd => h.wired j d (dropConn_conns_inv hd)
      closed := fun j d hd => by rw [hlog]; exact h.closed j d (dropConn_conns_inv hd)
      logged := fun j => by rw [hlog, hcreated]; exact h.logged j }

theorem step_tracked (hI : s.Tracked) (hl : s.EstablishesAlone l ∧ l.isDestroy = false)
    (he : s.step l = .ok s') : s'.Tracked := by
  obtain ⟨hlone, hlive⟩ := hl
  cases step_stepped he with
  | steady h => exact hI.steady h
  | timer s₀ k h harmed hdestroying hk hlk hrun =>
    refine Tracked.runConnector (hI.frame h ?_) hrun
    intro id
    rw [hdestroying]
    exact hI.spared id
  | closure s₀ k task h hk hlk hl hrun => exact (hI.steady h).runConnector hrun
  | writable s₀ k h hfree hl hrun =>
    have hI₀ := hI.steady h
    obtain ⟨fd, hsocket, ⟨-, c, es, hsettled, rfl⟩ | ⟨herr, hrun⟩⟩ := handleWritable_ok hrun
    · exact hI₀.absorb (settled_callback hsettled)
    · have hnone : s₀.client.connection = none := by
        rw [h.connection]
        exact hlone (hl herr (by rw [hsocket]; rfl))
      have hover := (hI₀.handOver fd).addConnection fd (by rw [handOver_client]; exact hnone)
      obtain ⟨-, c', es, hcall, rfl⟩ := onConnection_ok hrun
      exact hover.absorbConn (Function.update_self _ _ _)
        (TcpConnection.wiring_closeCallback hcall.wiring) hcall.closed.mpr hcall.not_destroying
  | returned hl hcallback hrun =>
    subst hrun
    have hreturned : ({ s with inCallback := false } : World).Tracked :=
      hI.of_same rfl hI.idle hI.spared rfl rfl rfl fun _ => Iff.rfl
    exact hreturned.absorb rfl
  | plain s₀ id c c' es h hc hcall hrun =>
    subst hrun
    exact (hI.steady h).absorbConn hc (TcpConnection.wiring_closeCallback hcall.wiring)
      hcall.closed.mpr hcall.not_destroying
  | closes s₀ s₁ id c c' cb k h hk hlk hclient hl hc hstate hcb hwiring hclosed hs₁ hrun =>
    have hI₀ := hI.steady h
    have hreset : cb = .clientReset := by
      have hwired := hI₀.wired id c hc
      rw [hcb] at hwired
      exact Option.some.inj hwired
    rw [if_pos hreset] at hrun
    subst hs₁
    have hforgot := hI₀.forget cb hc hstate hclosed (TcpConnection.wiring_closeCallback hwiring)
    obtain ⟨-, ⟨-, rfl⟩ | ⟨-, hrestart⟩⟩ := closeCallback_ok hrun
    · exact hforgot
    · exact hforgot.rewind.runConnector hrestart
  | destroyed s₀ id c c₁ task h harmed hdestroying hc htask hrun =>
    subst hrun
    have hI₀ : s₀.Tracked := by
      refine hI.frame h fun j hmem => hI.spared j ?_
      exact hdestroying.mem_iff.mpr (List.mem_cons_of_mem _ hmem)
    rcases htask with ⟨rfl, rfl⟩ | ⟨rfl, -⟩
    · refine hI₀.absorbConn hc rfl (fun _ => rfl) ?_
      unfold TcpConnection.connectionNotice
      split <;> simp
    · exact absurd (hdestroying.mem_iff.mpr (by simp)) (hI.spared id)
  | dropped id hl howned hrun =>
    subst hrun
    exact hI.dropConn id
  | begins t hl hd hrun =>
    subst hl
    exact absurd hlive (by simp [Label.isDestroy])
  | reads t id hd hconnection hrun =>
    rw [hI.idle] at hd
    exact absurd hd (by simp)
  | finishes t hd hrun =>
    rw [hI.idle] at hd
    exact absurd hd (by simp)

/-! ## An attempt that succeeds -/

theorem onConnection_total (fd : Int) (kc : Connector.Kernel) (h : s.destructor ≠ .finished) :
    ∃ s', s.onConnection fd kc = .ok s' := by
  have hestablished := TcpConnection.connectionEstablished_eq
    (c := s.client.newTcpConnection s.connector.loop fd) (t := s.loopThread) (isInLoopThread_self _) rfl
  unfold onConnection
  dsimp only
  rw [if_neg h, hestablished]
  refine ⟨_, if_neg ?_⟩
  unfold TcpConnection.connectionNotice
  split <;> simp

/-- `handleWritable` of a connected socket makes a connection and sets `connection_`. -/
theorem handleWritable_establishes (hI : s.Tracked) {fd : Int} (hsocket : s.connector.socket = some fd)
    (herr : kc.socketError = 0) :
    ∃ s', s.handleWritable kc = .ok s' ∧ s'.client.connection = some s.created ∧
      s'.created = s.created + 1 ∧ ∀ j, .handleClose j ∈ s'.log ↔ .handleClose j ∈ s.log := by
  have hidle : (s.handOver fd).destructor ≠ .finished := by
    rw [(hI.handOver fd).idle]
    simp
  obtain ⟨s', hrun⟩ := onConnection_total fd kc hidle
  have hhandles : s.handleWritable kc = .ok s' := by
    unfold handleWritable
    rw [herr, loopThread, Connector.handleWritable_success hsocket hI.callback]
    simp only [List.findSome?_append, handedOver_removal, Option.none_or, List.findSome?_cons,
      handedOver]
    exact hrun
  obtain ⟨-, c', es, -, rfl⟩ := onConnection_ok hrun
  have hcreated : (s.handOver fd).created = s.created := by
    unfold handOver
    rw [absorb_eq]
  refine ⟨_, hhandles, ?_, ?_, fun j => ?_⟩
  · rw [absorbConn_eq]
    change some (s.handOver fd).created = some s.created
    rw [hcreated]
  · rw [absorbConn_eq]
    change (s.handOver fd).created + 1 = s.created + 1
    rw [hcreated]
  · rw [absorbConn_eq]
    change Entry.handleClose j ∈ (s.handOver fd).log ++ _ ↔ _
    unfold handOver
    rw [absorb_eq]
    simp

theorem establishes_ok (hI : s.Tracked) (h : s.establishes l = true) :
    ∃ s', s.step l = .ok s' ∧ s'.client.connection = some s.created ∧ s'.created = s.created + 1 ∧
      ∀ j, .handleClose j ∈ s'.log ↔ .handleClose j ∈ s.log := by
  cases l with
  | loop k =>
    simp only [establishes, Bool.and_eq_true, decide_eq_true_eq] at h
    obtain ⟨⟨hruns, herr⟩, h⟩ := h
    split at h
    · rename_i id revents xs id' ch hphase hch
      simp only [Bool.and_eq_true, decide_eq_true_eq, Bool.not_eq_true', List.isEmpty_eq_false_iff]
        at h
      obtain ⟨⟨rfl, hhandlers⟩, hsocket⟩ := h
      obtain ⟨fd, hsocket⟩ := Option.isSome_iff_exists.mp hsocket
      -- the loop calls the write slot of the channel
      have hI₀ : ({ s with
          phase := .handling xs
          connector :=
            { s.connector with channel := some (id', ch.setReturnEvents revents) } } : World).Tracked :=
        hI.of_same rfl hI.idle (by
          intro j
          have hspared := hI.spared j
          simpa [World.destroying, tasks, hphase, Phase.tasks] using hspared) rfl rfl rfl
          fun _ => Iff.rfl
      obtain ⟨s', hrun, hestablished⟩ := handleWritable_establishes hI₀ hsocket herr
      refine ⟨s', ?_, hestablished⟩
      simp only [step, hruns, if_true, loopStep, hphase, handleConnectorEvent, hch]
      split
      · rename_i hnil
        exact absurd hnil hhandlers
      · exact hrun
    · exact absurd h (by simp)
  | _ => exact absurd h (by simp [establishes])

/-! ## Runs -/

/-- The run from `s` meets `Tracks` in every state only if its steps establish alone. -/
theorem along_of_tracks {ls : List Label} (hI : s.Tracked) (hdestroy : ∀ l ∈ ls, l.isDestroy = false)
    (h : ∀ before s', before <+: ls → run step s before = .ok s' → s'.Tracks) :
    Along step EstablishesAlone s ls := by
  induction ls generalizing s with
  | nil => trivial
  | cons l ls ih =>
    have hlone : s.EstablishesAlone l := by
      intro hestablishes
      by_contra hsome
      obtain ⟨j, hj⟩ := Option.ne_none_iff_exists'.mp hsome
      obtain ⟨s', hs', hconnection, hcreated, hlog⟩ := establishes_ok hI hestablishes
      have htracks : s'.Tracks := by
        refine h [l] s' ⟨ls, rfl⟩ ?_
        simp only [run, hs']
      -- the connection `connection_` pointed to is still live
      obtain ⟨hlt, hopen⟩ := (hI.tracks j).mp hj
      have hlive : s'.Live j := ⟨by omega, fun hmem => hopen ((hlog j).mp hmem)⟩
      have hj' := (htracks j).mpr hlive
      rw [hconnection] at hj'
      have heq := Option.some.inj hj'
      omega
    refine ⟨hlone, ?_⟩
    intro s' hs'
    refine ih (step_tracked hI ⟨hlone, hdestroy l (by simp)⟩ hs') ?_ ?_
    · exact fun l' hl' => hdestroy l' (List.mem_cons_of_mem _ hl')
    · intro before t hbefore hrun
      refine h (l :: before) t (List.cons_prefix_cons.mpr ⟨rfl, hbefore⟩) ?_
      exact (run_cons_ok hs').mpr hrun

/-- **`connection_` tracks the live connection**: in a run without `~TcpClient` it does in every state
exactly when no attempt succeeds while `connection_` is set. -/
theorem connection_tracked_iff {cfg : Config} {ls : List Label}
    (hdestroy : ∀ l ∈ ls, l.isDestroy = false) :
    (∀ before s, before <+: ls → run step (start cfg) before = .ok s → s.Tracks) ↔
      Along step EstablishesAlone (start cfg) ls := by
  constructor
  · exact along_of_tracks (start_tracked cfg) hdestroy
  · rintro halong before s ⟨after, rfl⟩ hrun
    have hlone := ((along_append hrun).mp halong).1
    have hlive : Along step (fun _ l => l.isDestroy = false) (start cfg) before := by
      refine along_of_forall fun l hl => hdestroy l ?_
      exact List.mem_append_left _ hl
    exact (run_invariant step_tracked (start_tracked cfg) (hlone.and hlive) hrun).tracks

/-- The connection of descriptor 5 is established, and closed by the peer. -/
def establishedThenClosed : List Label :=
  callConnect (attempted 5 .einprogress) ++ connected 5 ++ closedByPeer 5

theorem connection_tracked_iff_establishedThenClosed :
    (∀ l ∈ establishedThenClosed, l.isDestroy = false) ∧
      ∃ s, run step (start testConfig) establishedThenClosed = .ok s ∧ s.created = 1 ∧
        s.client.connection = none ∧ s.Tracks := by
  have hrun : ∃ s, run step (start testConfig) establishedThenClosed = .ok s ∧
      (s.created = 1 ∧ s.client.connection = none) := by decide +kernel
  have hdestroy : ∀ l ∈ establishedThenClosed, l.isDestroy = false := by
    simp [establishedThenClosed, callConnect, connected, closedByPeer, Label.isDestroy]
  have halone : Along step EstablishesAlone (start testConfig) establishedThenClosed := by
    decide +kernel
  obtain ⟨s, hs, hcreated, hnone⟩ := hrun
  refine ⟨hdestroy, s, hs, hcreated, hnone, ?_⟩
  exact (connection_tracked_iff hdestroy).mpr halone establishedThenClosed s (List.prefix_refl _) hs

/-- A connection is established. A `stop()` and a `connect()` later there is a second, and the first is
closed by the peer. -/
def twoConnections : List Label :=
  callConnect (attempted 5 .einprogress) ++ connected 5 ++ callStop ++
    callConnect (attempted 6 .einprogress) ++ connected 6 ++ closedByPeer 5

/-- **The close of the first connection clears the pointer to the second**, which is still live. -/
theorem connection_not_tracked_twoConnections :
    ∃ s, run step (start testConfig) twoConnections = .ok s ∧ s.client.connection = none ∧
      s.Live 1 ∧ ¬ s.Tracks := by
  have hrun : ∃ s, run step (start testConfig) twoConnections = .ok s ∧
      (s.client.connection = none ∧ 1 < s.created ∧ Entry.handleClose 1 ∉ s.log) := by
    decide +kernel
  obtain ⟨s, hs, hnone, hcreated, hopen⟩ := hrun
  refine ⟨s, hs, hnone, ⟨hcreated, hopen⟩, ?_⟩
  intro htracks
  have hsome := (htracks 1).mpr ⟨hcreated, hopen⟩
  rw [hnone] at hsome
  exact absurd hsome (by simp)

end World

end HyperMuduo.Net.TcpClient
