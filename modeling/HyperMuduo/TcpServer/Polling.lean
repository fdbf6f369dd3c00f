import HyperMuduo.TcpServer.Steps

/-!
# What the pollers can report

A read condition reaches a connection only while it is `Connected` or `Disconnecting`. `Polled` is the
invariant behind this: a read interest in a kernel set, and a read condition in a batch of ready
channels, belong to a connection that is open, and a connection is at most once in a batch. A stale
condition cannot survive in a batch, because a connection closes only in its own event, and tasks run
only when the batch is done.

Between the store of `Disconnected` and the call of `updateChannel` right after it, the kernel set is
behind: `Polled s skip` leaves the connection `skip` out.
-/

namespace HyperMuduo.Net

open HyperMuduo.Lib

/-- The interest or report has a condition that calls the read callback. -/
def PollEvents.reads (e : PollEvents) : Bool := e.pollin || e.pollpri || e.pollrdhup

namespace TcpConnection

variable {c c' : TcpConnection} {t : ThreadId} {es : List Effect} {w : Int}

/-- `Connected` or `Disconnecting`. -/
def Open (c : TcpConnection) : Prop := c.state = .connected ∨ c.state = .disconnecting

/-- A call keeps the read interest, in the channel and in what it registers. -/
def KeepsReading (c c' : TcpConnection) (es : List Effect) : Prop :=
  c'.channel.events.reads = c.channel.events.reads ∧
    ∀ ev, Effect.updateChannel ev ∈ es → ev.reads = c.channel.events.reads

theorem reads_union_write (e : PollEvents) : (e.union .write).reads = e.reads := by
  simp [PollEvents.reads, PollEvents.union, PollEvents.write, PollEvents.none]

theorem raiseWriteInterest_reads (c : TcpConnection) :
    KeepsReading c c.raiseWriteInterest.1 c.raiseWriteInterest.2 := by
  constructor
  · rw [raiseWriteInterest_eq]
    exact reads_union_write _
  · intro ev hmem
    unfold raiseWriteInterest at hmem
    split at hmem
    · exact absurd hmem List.not_mem_nil
    · obtain rfl := Effect.updateChannel.inj (List.mem_singleton.mp hmem)
      exact reads_union_write _

theorem directWrite_no_update (c : TcpConnection) (msg : List Byte) (w : Int) (ev : PollEvents) :
    Effect.updateChannel ev ∉ c.directWrite msg w := by
  unfold directWrite writeCompleteTasks
  split
  · split
    · simp
    · split <;> simp
  · simp

theorem highWaterTasks_no_update (c : TcpConnection) (ev : PollEvents) :
    Effect.updateChannel ev ∉ c.highWaterTasks := by
  unfold highWaterTasks
  split <;> simp

theorem sendInLoop_reads {msg : List Byte} (he : c.sendInLoop t msg w = .ok (c', es)) :
    KeepsReading c c' es := by
  obtain ⟨-, ⟨-, rfl, rfl⟩ | ⟨-, sb, -, rfl, rfl⟩⟩ := sendInLoop_inv he
  · exact ⟨rfl, fun ev hmem => absurd hmem (directWrite_no_update _ _ _ ev)⟩
  · obtain ⟨hc, hes⟩ := raiseWriteInterest_reads { c with sendBuffer := sb }
    refine ⟨hc, ?_⟩
    intro ev hmem
    rcases List.mem_append.mp hmem with hmem | hmem
    · rcases List.mem_append.mp hmem with hmem | hmem
      · exact absurd hmem (directWrite_no_update _ _ _ ev)
      · exact hes ev hmem
    · exact absurd hmem (highWaterTasks_no_update _ ev)

/-- **Sending keeps the read interest.** -/
theorem sendArgInLoop_reads {m : Memory} {arg : SendArg}
    (he : c.sendArgInLoop t m arg w = .ok (c', es)) : KeepsReading c c' es := by
  cases arg with
  | string msg => exact sendInLoop_reads he
  | pointer addr len => exact sendInLoop_reads (show c.sendInLoop t (m.read addr len) w = _ from he)
  | buffer buf =>
    obtain ⟨buf', hbuf⟩ := sendArgInLoop_buffer_inv he
    obtain ⟨-, buf₁, written, hdir, hcase⟩ := sendBufferInLoop_inv hbuf
    have hwritten : ∀ ev, Effect.updateChannel ev ∉ written := by
      intro ev
      rcases directBufferWrite_effects hdir with rfl | ⟨bytes, rfl⟩ <;> simp
    rcases hcase with ⟨-, rfl, -, rfl⟩ | ⟨-, sb, -, rfl, rfl⟩
    · exact ⟨rfl, fun ev hmem => absurd hmem (hwritten ev)⟩
    · obtain ⟨hc, hes⟩ := raiseWriteInterest_reads { c with sendBuffer := sb }
      refine ⟨hc, ?_⟩
      intro ev hmem
      rcases List.mem_append.mp hmem with hmem | hmem
      · rcases List.mem_append.mp hmem with hmem | hmem
        · exact absurd hmem (hwritten ev)
        · exact absurd hmem (highWaterTasks_no_update _ ev)
      · exact hes ev hmem

end TcpConnection

namespace TcpServer

open HyperMuduo.Net.TcpConnection (Effect ReadResult Result Open KeepsReading)

/-- The connection of a ready channel. -/
def Ready.conn : Ready → Option Nat
  | .acceptor => none
  | .channel id _ => some id

namespace World

variable {cfg : Config} {s s' : World} {skip : Option Nat} {id : Nat} {c c' : TcpConnection} {t : ThreadId}
  {es : List Effect} {w : Int} {l : LoopId}

/-- **Read conditions belong to open connections**, `skip` left out. -/
structure Polled (s : World) (skip : Option Nat) : Prop where
  synced : ∀ l fd, (s.loops l).poller.Synced fd
  interest : ∀ id c, s.conns id = some c → c.channel.events.reads = true → Open c
  kernel : ∀ l fd id ev, (s.loops l).poller.kernel fd = some (id, ev) →
    ∃ c, s.conns id = some c ∧ c.channel.fd = fd ∧ c.loop = l ∧
      (skip ≠ some id → ev.epollin = true ∨ ev.epollpri = true → Open c)
  ready : ∀ l ready, (s.loops l).phase = .handling ready → (ready.filterMap Ready.conn).Nodup ∧
    ∀ id revents, .channel id revents ∈ ready →
      ∃ c, s.conns id = some c ∧ c.loop = l ∧ (revents.reads = true → Open c)
  acceptor : ∀ l ready, (s.loops l).phase = .handling ready → .acceptor ∈ ready → l = baseLoop

/-- The connection is in no batch of ready channels. -/
def Absent (s : World) (id : Nat) : Prop :=
  ∀ l ready revents, (s.loops l).phase = .handling ready → .channel id revents ∉ ready

theorem start_polled (cfg : Config) : Polled (start cfg) none where
  synced := fun _ _ => rfl
  interest := fun _ _ h => absurd h (by simp [start])
  kernel := fun _ _ _ _ h => absurd h (by simp [start, Epoller.empty])
  ready := fun _ _ h => absurd h (by simp [start])
  acceptor := fun _ _ h => absurd h (by simp [start])

/-! ## The moves -/

/-- Pollers and connections are the same, and batches only get shorter. -/
theorem Polled.frame (h : Polled s skip) (hconns : s'.conns = s.conns)
    (hpoller : ∀ l, (s'.loops l).poller = (s.loops l).poller)
    (hphase : ∀ l ready, (s'.loops l).phase = .handling ready →
      ∃ ready', (s.loops l).phase = .handling ready' ∧ ready.Sublist ready') : Polled s' skip where
  synced := by
    intro l fd
    rw [hpoller]
    exact h.synced l fd
  interest := by
    rw [hconns]
    exact h.interest
  kernel := by
    intro l fd id ev
    rw [hpoller, hconns]
    exact h.kernel l fd id ev
  ready := by
    intro l ready hp
    obtain ⟨ready', hp', hsub⟩ := hphase l ready hp
    obtain ⟨hnodup, hmem⟩ := h.ready l ready' hp'
    rw [hconns]
    exact ⟨hnodup.sublist (hsub.filterMap _), fun id revents hin => hmem id revents (hsub.subset hin)⟩
  acceptor := by
    intro l ready hp hin
    obtain ⟨ready', hp', hsub⟩ := hphase l ready hp
    exact h.acceptor l ready' hp' (hsub.subset hin)

/-- The phases are the same too. -/
theorem Polled.same (h : Polled s skip) (hconns : s'.conns = s.conns)
    (hpoller : ∀ l, (s'.loops l).poller = (s.loops l).poller)
    (hphase : ∀ l, (s'.loops l).phase = (s.loops l).phase) : Polled s' skip :=
  h.frame hconns hpoller fun l ready hp => ⟨ready, by rw [← hphase]; exact hp, List.Sublist.refl _⟩

theorem Polled.queueInLoop (h : Polled s skip) (l : LoopId) (task : Task) :
    Polled (s.queueInLoop l task) skip := by
  refine h.same rfl ?_ ?_ <;>
  · intro l'
    unfold World.queueInLoop
    by_cases hl : l' = l
    · subst hl
      simp
    · simp [hl]

theorem Polled.record (h : Polled s skip) (e : Entry) : Polled (s.record e) skip :=
  h.same rfl (fun _ => rfl) (fun _ => rfl)

theorem poller_setPhase (s : World) (l : LoopId) (p : Phase) (l' : LoopId) :
    ((s.setPhase l p).loops l').poller = (s.loops l').poller := by
  unfold World.setPhase
  by_cases hl : l' = l
  · subst hl
    simp
  · simp [hl]

/-- The batch of a loop after one loop changed its phase. -/
theorem setPhase_handling {p : Phase} {l' : LoopId} {ready : List Ready}
    (h : ((s.setPhase l p).loops l').phase = .handling ready) :
    l' = l ∧ p = .handling ready ∨ l' ≠ l ∧ (s.loops l').phase = .handling ready := by
  unfold World.setPhase at h
  by_cases hl : l' = l
  · subst hl
    simp only [Function.update_self] at h
    exact Or.inl ⟨rfl, h⟩
  · simp only [Function.update_of_ne hl] at h
    exact Or.inr ⟨hl, h⟩

/-- The batch of a loop after one loop swapped its queue out. -/
theorem swapTasks_handling {l' : LoopId} {ready : List Ready}
    (h : ((s.swapTasks l).loops l').phase = .handling ready) : (s.loops l').phase = .handling ready := by
  unfold swapTasks at h
  by_cases hl : l' = l
  · subst hl
    simp at h
  · simp only [Function.update_of_ne hl] at h
    exact h

/-- Another phase of one loop, with no ready channel that was not there. -/
theorem Polled.setPhase (h : Polled s skip) {p : Phase}
    (hp : ∀ ready, p = .handling ready →
      ∃ ready', (s.loops l).phase = .handling ready' ∧ ready.Sublist ready') :
    Polled (s.setPhase l p) skip := by
  refine h.frame rfl (poller_setPhase s l p) ?_
  intro l' ready hphase
  rcases setPhase_handling hphase with ⟨rfl, heq⟩ | ⟨-, hold⟩
  · exact hp ready heq
  · exact ⟨ready, hold, List.Sublist.refl _⟩

/-- A connection is replaced: it stays open, or it is left out of account and out of the batches. -/
theorem Polled.setConn (h : Polled s none) (hc : s.conns id = some c) (hw : c'.wiring = c.wiring)
    (hi : c'.channel.events.reads = true → Open c')
    (hkeep : (Open c → Open c') ∨ (skip = some id ∧ Absent s id)) :
    Polled (s.setConn id c') skip where
  synced := h.synced
  interest := by
    intro i ci hci
    rw [conns_setConn] at hci
    rcases update_some_inv hci with ⟨rfl, rfl⟩ | ⟨-, hold⟩
    · exact hi
    · exact h.interest i ci hold
  kernel := by
    intro l fd i ev hk
    obtain ⟨ci, hci, hfd, hl, ho⟩ := h.kernel l fd i ev hk
    rw [conns_setConn]
    by_cases hne : i = id
    · subst hne
      rw [hc] at hci
      obtain rfl := Option.some.inj hci
      refine ⟨c', Function.update_self .., (TcpConnection.wiring_fd hw).trans hfd,
        (TcpConnection.wiring_loop hw).trans hl, ?_⟩
      intro hskip hev
      rcases hkeep with hkeep | ⟨rfl, -⟩
      · exact hkeep (ho (by simp) hev)
      · exact absurd rfl hskip
    · refine ⟨ci, by rw [Function.update_of_ne hne]; exact hci, hfd, hl, ?_⟩
      exact fun _ => ho (by simp)
  ready := by
    intro l ready hp
    obtain ⟨hnodup, hmem⟩ := h.ready l ready hp
    refine ⟨hnodup, ?_⟩
    intro i revents hin
    obtain ⟨ci, hci, hl, ho⟩ := hmem i revents hin
    rw [conns_setConn]
    by_cases hne : i = id
    · subst hne
      rw [hc] at hci
      obtain rfl := Option.some.inj hci
      refine ⟨c', Function.update_self .., (TcpConnection.wiring_loop hw).trans hl, ?_⟩
      rcases hkeep with hkeep | ⟨-, habsent⟩
      · exact fun hr => hkeep (ho hr)
      · exact absurd hin (habsent l ready revents hp)
    · exact ⟨ci, by rw [Function.update_of_ne hne]; exact hci, hl, ho⟩
  acceptor := h.acceptor

theorem phase_setPoller (s : World) (l₀ : LoopId) (ep : Epoller Nat) (l : LoopId) :
    ((s.setPoller l₀ ep).loops l).phase = (s.loops l).phase := by
  unfold World.setPoller
  by_cases hl : l = l₀
  · subst hl
    simp
  · simp [hl]

/-- A call on one descriptor of one poller, with the kernel up to date there. -/
theorem Polled.setPoller (h : Polled s skip) {ptr : Nat} {l₀ : LoopId} {fd₀ : Int} {ep : Epoller Nat}
    (hwithin : Epoller.Within ptr fd₀ (s.loops l₀).poller ep)
    (hskip : ∀ i ci, skip = some i → s.conns i = some ci → ci.channel.fd = fd₀ ∧ ci.loop = l₀)
    (hself : ∀ i ev, ep.kernel fd₀ = some (i, ev) →
      ∃ ci, s.conns i = some ci ∧ ci.channel.fd = fd₀ ∧ ci.loop = l₀ ∧
        (ev.epollin = true ∨ ev.epollpri = true → Open ci)) : Polled (s.setPoller l₀ ep) none := by
  refine ⟨?_, h.interest, ?_, ?_, ?_⟩
  · intro l fd
    unfold World.setPoller
    by_cases hl : l = l₀
    · subst hl
      simp only [Function.update_self]
      by_cases hfd : fd = fd₀
      · subst hfd
        exact hwithin.synced
      · unfold Epoller.Synced
        rw [hwithin.kernel fd hfd, hwithin.channelMap fd hfd]
        exact h.synced l fd
    · simp only [Function.update_of_ne hl]
      exact h.synced l fd
  · intro l fd i ev hk
    -- what the call did not touch was up to date before
    have hother : ¬ (fd = fd₀ ∧ l = l₀) → (s.loops l).poller.kernel fd = some (i, ev) →
        ∃ ci, s.conns i = some ci ∧ ci.channel.fd = fd ∧ ci.loop = l ∧
          (none ≠ some i → ev.epollin = true ∨ ev.epollpri = true → Open ci) := by
      intro hne hold
      obtain ⟨ci, hci, rfl, rfl, ho⟩ := h.kernel l fd i ev hold
      exact ⟨ci, hci, rfl, rfl, fun _ => ho fun heq => hne (hskip i ci heq hci)⟩
    unfold World.setPoller at hk
    by_cases hl : l = l₀
    · subst hl
      simp only [Function.update_self] at hk
      by_cases hfd : fd = fd₀
      · subst hfd
        obtain ⟨ci, hci, hfdi, hli, ho⟩ := hself i ev hk
        exact ⟨ci, hci, hfdi, hli, fun _ => ho⟩
      · rw [hwithin.kernel fd hfd] at hk
        exact hother (fun heq => hfd heq.1) hk
    · simp only [Function.update_of_ne hl] at hk
      exact hother (fun heq => hl heq.2) hk
  · intro l ready hp
    rw [phase_setPoller] at hp
    exact h.ready l ready hp
  · intro l ready hp
    rw [phase_setPoller] at hp
    exact h.acceptor l ready hp

/-- **`updateChannel` brings the kernel up to date.** -/
theorem Polled.updateChannel (h : Polled s skip) (hskip : ∀ i, skip = some i → i = id)
    (hc : s.conns id = some c) {events : PollEvents} (hr : events.reads = true → Open c) :
    Polled (s.setPoller c.loop ((s.loops c.loop).poller.updateChannel id c.channel.fd events))
      none := by
  have hsynced := h.synced c.loop c.channel.fd
  refine h.setPoller (Epoller.updateChannel_within hsynced events) ?_ ?_
  · intro i ci heq hci
    obtain rfl := hskip i heq
    rw [hc] at hci
    obtain rfl := Option.some.inj hci
    exact ⟨rfl, rfl⟩
  · intro i ev hk
    rw [Epoller.updateChannel_of_synced hsynced] at hk
    simp only [Function.update_self] at hk
    obtain ⟨rfl, rfl⟩ := Prod.mk.inj (Option.some.inj hk)
    refine ⟨c, hc, rfl, rfl, ?_⟩
    intro hev
    refine hr ?_
    unfold PollEvents.reads
    rcases hev with hev | hev
    · rw [show events.pollin = true from hev]
      rfl
    · rw [show events.pollpri = true from hev]
      simp

theorem Polled.removeChannel (h : Polled s none) (l₀ : LoopId) (fd₀ : Int) :
    Polled (s.setPoller l₀ ((s.loops l₀).poller.removeChannel fd₀)) none := by
  have hsynced := h.synced l₀ fd₀
  have hwithin : Epoller.Within 0 fd₀ (s.loops l₀).poller ((s.loops l₀).poller.removeChannel fd₀) :=
    Epoller.removeChannel_within hsynced
  refine h.setPoller hwithin ?_ ?_
  · exact fun i ci heq => absurd heq (by simp)
  · intro i ev hk
    rw [Epoller.removeChannel_kernel hsynced] at hk
    exact absurd hk (by simp)

theorem readyOf_channel {report : Report} {revents : PollEvents}
    (h : s.readyOf l report = some (.channel id revents)) :
    ∃ fd asked, report = .fd fd revents ∧ (s.loops l).poller.kernel fd = some (id, asked) ∧
      MayReport asked revents := by
  cases report with
  | acceptor =>
    simp only [readyOf] at h
    split at h <;> exact absurd h (by simp)
  | fd fd revents' =>
    simp only [readyOf] at h
    split at h
    · exact absurd h (by simp)
    · rename_i id' asked hk
      split at h
      · rename_i hmay
        obtain ⟨rfl, rfl⟩ := Ready.channel.inj (Option.some.inj h)
        exact ⟨fd, asked, rfl, hk, hmay⟩
      · exact absurd h (by simp)

/-- The descriptors of a list of reports. -/
def reportedFds (reports : List Report) : List Int :=
  reports.filterMap fun
    | .fd fd _ => some fd
    | .acceptor => none

/-- Reports of distinct descriptors are for distinct connections. -/
theorem Polled.nodup_ready (h : Polled s skip) {reports : List Report}
    (hnodup : (reportedFds reports).Nodup) :
    ((reports.filterMap (s.readyOf l)).filterMap Ready.conn).Nodup ∧
      ∀ id ∈ (reports.filterMap (s.readyOf l)).filterMap Ready.conn,
        ∃ fd ∈ reportedFds reports, ∃ asked, (s.loops l).poller.kernel fd = some (id, asked) := by
  induction reports with
  | nil => exact ⟨List.nodup_nil, fun id hid => absurd hid List.not_mem_nil⟩
  | cons report reports ih =>
    cases report with
    | acceptor =>
      have hskip : ((Report.acceptor :: reports).filterMap (s.readyOf l)).filterMap Ready.conn =
          (reports.filterMap (s.readyOf l)).filterMap Ready.conn := by
        simp only [List.filterMap_cons, readyOf]
        split <;> rename_i heq
        · rfl
        · split at heq
          · obtain rfl := Option.some.inj heq
            rfl
          · exact absurd heq (by simp)
      rw [hskip]
      exact ih hnodup
    | fd fd revents =>
      have hcons : reportedFds (.fd fd revents :: reports) = fd :: reportedFds reports := rfl
      rw [hcons, List.nodup_cons] at hnodup
      obtain ⟨hih, hfds⟩ := ih hnodup.2
      rw [hcons]
      cases hready : s.readyOf l (.fd fd revents) with
      | none =>
        rw [List.filterMap_cons_none hready]
        refine ⟨hih, ?_⟩
        intro id hid
        obtain ⟨fd', hmem, hk⟩ := hfds id hid
        exact ⟨fd', List.mem_cons_of_mem _ hmem, hk⟩
      | some ready =>
        rw [List.filterMap_cons_some hready]
        cases ready with
        | acceptor =>
          simp only [readyOf] at hready
          split at hready
          · exact absurd hready (by simp)
          · split at hready <;> exact absurd hready (by simp)
        | channel id revents' =>
          obtain ⟨fd', asked, heq, hk, -⟩ := readyOf_channel hready
          obtain ⟨rfl, rfl⟩ := Report.fd.inj heq
          rw [List.filterMap_cons_some (show Ready.conn (.channel id revents) = some id from rfl)]
          refine ⟨List.nodup_cons.mpr ⟨?_, hih⟩, ?_⟩
          · -- the same connection again would be the same descriptor again
            intro hmem
            obtain ⟨fd', hfd', asked', hk'⟩ := hfds id hmem
            obtain ⟨c, hc, rfl, -⟩ := h.kernel l fd id asked hk
            obtain ⟨c', hc', rfl, -⟩ := h.kernel l fd' id asked' hk'
            rw [hc] at hc'
            obtain rfl := Option.some.inj hc'
            exact hnodup.1 hfd'
          · intro i hi
            rcases List.mem_cons.mp hi with rfl | hi
            · exact ⟨fd, List.mem_cons_self, asked, hk⟩
            · obtain ⟨fd', hmem, hk'⟩ := hfds i hi
              exact ⟨fd', List.mem_cons_of_mem _ hmem, hk'⟩

theorem acceptor_of_poll {reports : List Report} (h : .acceptor ∈ s.poll l reports) :
    l = baseLoop ∧ .acceptor ∈ reports := by
  unfold World.poll at h
  split at h
  · obtain ⟨report, hmem, hready⟩ := List.mem_filterMap.mp h
    cases report with
    | acceptor =>
      simp only [readyOf] at hready
      split at hready
      · rename_i hl
        exact ⟨hl, hmem⟩
      · exact absurd hready (by simp)
    | fd fd revents =>
      simp only [readyOf] at hready
      split at hready
      · exact absurd hready (by simp)
      · split at hready <;> exact absurd hready (by simp)
  · exact absurd h List.not_mem_nil

/-- **`poll` brings read conditions of open connections only**, and of each at most once. -/
theorem Polled.poll (h : Polled s none) (l : LoopId) (reports : List Report) :
    Polled (s.setPhase l (.handling (s.poll l reports))) none := by
  refine ⟨?_, h.interest, ?_, ?_, ?_⟩
  · intro l' fd
    rw [poller_setPhase]
    exact h.synced l' fd
  · intro l' fd id ev hk
    rw [poller_setPhase] at hk
    exact h.kernel l' fd id ev hk
  · intro l' ready hp
    rcases setPhase_handling hp with ⟨rfl, heq⟩ | ⟨-, hold⟩
    · obtain rfl := Phase.handling.inj heq
      unfold World.poll
      split
      · rename_i hnodup
        refine ⟨(h.nodup_ready hnodup).1, ?_⟩
        intro id revents hmem
        obtain ⟨report, -, hready⟩ := List.mem_filterMap.mp hmem
        obtain ⟨fd, asked, -, hk, hmay⟩ := readyOf_channel hready
        obtain ⟨c, hc, -, hloop, ho⟩ := h.kernel l' fd id asked hk
        refine ⟨c, hc, hloop, ?_⟩
        intro hreads
        refine ho (by simp) ?_
        unfold PollEvents.reads at hreads
        rw [Bool.or_eq_true, Bool.or_eq_true] at hreads
        rcases hreads with (hin | hpri) | hhup
        · exact Or.inl (hmay.1 hin)
        · exact Or.inr (hmay.2.1 hpri)
        · rw [hmay.2.2.2] at hhup
          exact absurd hhup (by simp)
      · exact ⟨List.nodup_nil, fun id revents hmem => absurd hmem List.not_mem_nil⟩
    · exact h.ready l' ready hold
  · intro l' ready hp hin
    rcases setPhase_handling hp with ⟨rfl, heq⟩ | ⟨-, hold⟩
    · obtain rfl := Phase.handling.inj heq
      exact (acceptor_of_poll hin).1
    · exact h.acceptor l' ready hold hin

/-- A new connection has no interest and is nowhere registered. -/
theorem Polled.accept (h : Polled s none) (hfresh : s.conns s.accepted = none) (fd : Int) :
    Polled (s.addConnection fd) none := by
  have hold : ∀ i ci, s.conns i = some ci → (s.addConnection fd).conns i = some ci := by
    intro i ci hi
    have hne : i ≠ s.accepted := by
      rintro rfl
      rw [hfresh] at hi
      exact absurd hi (by simp)
    exact (Function.update_of_ne hne ..).trans hi
  refine ⟨h.synced, ?_, ?_, ?_, h.acceptor⟩
  · intro i ci hi
    rcases update_some_inv hi with ⟨rfl, rfl⟩ | ⟨-, hold'⟩
    · exact fun hreads => absurd (show PollEvents.none.reads = true from hreads) (by decide)
    · exact h.interest i ci hold'
  · intro l fd' i ev hk
    obtain ⟨ci, hi, hrest⟩ := h.kernel l fd' i ev hk
    exact ⟨ci, hold i ci hi, hrest⟩
  · intro l ready hp
    obtain ⟨hnodup, hmem⟩ := h.ready l ready hp
    refine ⟨hnodup, ?_⟩
    intro i revents hin
    obtain ⟨ci, hi, hrest⟩ := hmem i revents hin
    exact ⟨ci, hold i ci hi, hrest⟩

/-! ## The functions -/

theorem removeConnectionInLoop_polled (h : Polled s none)
    (he : s.removeConnectionInLoop t id = .ok s') : Polled s' none ∧ s'.conns = s.conns := by
  obtain ⟨_, -, he⟩ := bind_ok_inv he
  simp only at he
  split at he
  · exact absurd he (by simp)
  · obtain rfl := Except.ok.inj he
    refine ⟨Polled.queueInLoop ?_ _ _, rfl⟩
    exact h.same rfl (fun _ => rfl) (fun _ => rfl)

theorem removeConnection_polled (h : Polled s none) (he : s.removeConnection t id = .ok s') :
    Polled s' none ∧ s'.conns = s.conns := by
  unfold removeConnection at he
  split at he
  · exact removeConnectionInLoop_polled h he
  · obtain rfl := Except.ok.inj he
    exact ⟨h.queueInLoop _ _, rfl⟩

theorem perform_polled (h : Polled s none) (hc : s.conns id = some c) {e : Effect}
    (hupd : ∀ ev, e = .updateChannel ev → ev.reads = true → Open c)
    (he : s.perform t id c e = .ok s') : Polled s' none ∧ s'.conns = s.conns := by
  have h₁ := h.record (.effect id e)
  cases e with
  | updateChannel events =>
    obtain ⟨_, -, he⟩ := bind_ok_inv he
    obtain rfl := Except.ok.inj he
    exact ⟨h₁.updateChannel (fun _ hs => absurd hs (by simp)) hc (hupd events rfl), rfl⟩
  | removeChannel =>
    obtain ⟨_, -, he⟩ := bind_ok_inv he
    obtain rfl := Except.ok.inj he
    exact ⟨h₁.removeChannel _ _, rfl⟩
  | queueInLoop task =>
    obtain rfl := Except.ok.inj he
    exact ⟨h₁.queueInLoop _ _, rfl⟩
  | closeCallback cb =>
    cases cb with
    | serverRemoveConnection conn =>
      obtain ⟨hP, hconns⟩ := removeConnection_polled h₁ he
      exact ⟨hP, hconns⟩
    | _ =>
      obtain rfl := Except.ok.inj he
      exact ⟨h₁, rfl⟩
  | _ =>
    obtain rfl := Except.ok.inj he
    exact ⟨h₁, rfl⟩

theorem performAll_polled (h : Polled s none) (hc : s.conns id = some c)
    (hupd : ∀ ev, Effect.updateChannel ev ∈ es → ev.reads = true → Open c)
    (he : performAll t id c s es = .ok s') : Polled s' none := by
  induction es generalizing s with
  | nil =>
    obtain rfl := Except.ok.inj he
    exact h
  | cons e es ih =>
    obtain ⟨s₁, h1, h2⟩ := bind_ok_inv he
    obtain ⟨hP, hconns⟩ :=
      perform_polled h hc (fun ev heq => hupd ev (by rw [heq]; exact List.mem_cons_self)) h1
    exact ih hP (by rw [hconns]; exact hc) (fun ev hmem => hupd ev (List.mem_cons_of_mem _ hmem)) h2

/-- A call that keeps an open connection open. -/
theorem invoke_polled (h : Polled s none) (hc : s.conns id = some c) {r : Result}
    (hr : r = .ok (c', es)) (hw : c'.wiring = c.wiring) (ho : Open c → Open c')
    (hreads : KeepsReading c c' es) (he : s.invoke t id r = .ok s') : Polled s' none := by
  rw [hr] at he
  have hopen : c.channel.events.reads = true → Open c' := fun hr => ho (h.interest id c hc hr)
  have h₁ : Polled (s.setConn id c') none :=
    h.setConn hc hw (fun hr => hopen (by rw [← hreads.1]; exact hr)) (Or.inl ho)
  exact performAll_polled h₁ (Function.update_self ..)
    (fun ev hmem hr => hopen (by rw [← hreads.2 ev hmem]; exact hr)) he

/-- A call that closes the connection: it drops the interest first. -/
theorem invoke_close_polled (h : Polled s none) (habsent : Absent s id) (hc : s.conns id = some c)
    {r : Result} (hr : r = .ok (c', .updateChannel .none :: es)) (hw : c'.wiring = c.wiring)
    (hnone : c'.channel.events = .none) (hes : ∀ ev, Effect.updateChannel ev ∉ es)
    (he : s.invoke t id r = .ok s') : Polled s' none := by
  rw [hr] at he
  have he : performAll t id c' (s.setConn id c') (.updateChannel .none :: es) = .ok s' := he
  have h₁ : Polled (s.setConn id c') (some id) :=
    h.setConn hc hw (fun hr => absurd hr (by rw [hnone]; decide)) (Or.inr ⟨rfl, habsent⟩)
  have hself : (s.setConn id c').conns id = some c' := Function.update_self ..
  obtain ⟨s₂, hupdate, he⟩ := bind_ok_inv he
  obtain ⟨_, -, hupdate⟩ := bind_ok_inv hupdate
  obtain rfl := Except.ok.inj hupdate
  have hnoread : PollEvents.none.reads = true → Open c' := fun hr => absurd hr (by decide)
  have h₂ := (h₁.record (.effect id (.updateChannel .none))).updateChannel
    (fun i hi => (Option.some.inj hi).symm) hself hnoread
  exact performAll_polled h₂ hself (fun ev hmem => absurd hmem (hes ev)) he

theorem connectionEstablished_polled (h : Polled s none) (hc : s.conns id = some c)
    (he : s.invoke t id (c.connectionEstablished t) = .ok s') : Polled s' none := by
  obtain ⟨⟨c', es⟩, hr, he'⟩ := bind_ok_inv he
  obtain ⟨-, -, rfl, rfl⟩ := TcpConnection.connectionEstablished_inv hr
  have hopen : Open { c with state := .connected, channel := c.channel.listenTillReadable } :=
    Or.inl rfl
  have h₁ : Polled (s.setConn id
      { c with state := .connected, channel := c.channel.listenTillReadable }) none :=
    h.setConn hc rfl (fun _ => hopen) (Or.inl fun _ => hopen)
  exact performAll_polled h₁ (Function.update_self ..) (fun _ _ _ => hopen) he'

theorem connectionDestroyed_polled (h : Polled s none) (habsent : Absent s id)
    (hc : s.conns id = some c) (he : s.invoke t id (c.connectionDestroyed t) = .ok s') :
    Polled s' none := by
  obtain ⟨⟨c', es⟩, hr, -⟩ := bind_ok_inv he
  obtain ⟨-, rfl, rfl⟩ := TcpConnection.connectionDestroyed_inv hr
  refine invoke_close_polled h habsent hc hr rfl rfl ?_ he
  intro ev
  unfold TcpConnection.connectionNotice
  split <;> simp

theorem sendArgInLoop_polled (h : Polled s none) (hc : s.conns id = some c) {m : Memory}
    {arg : TcpConnection.SendArg} (he : s.invoke t id (c.sendArgInLoop t m arg w) = .ok s') :
    Polled s' none := by
  obtain ⟨⟨c', es⟩, hr, -⟩ := bind_ok_inv he
  obtain ⟨hw, hst, -⟩ := TcpConnection.sendArgInLoop_wiring hr
  refine invoke_polled h hc hr hw ?_ (TcpConnection.sendArgInLoop_reads hr) he
  unfold TcpConnection.Open
  rw [hst]
  exact fun ho => ho

theorem shutdownInLoop_polled (h : Polled s none) (hc : s.conns id = some c)
    (he : s.invoke t id (c.shutdownInLoop t) = .ok s') : Polled s' none := by
  obtain ⟨⟨c', es⟩, hr, -⟩ := bind_ok_inv he
  obtain ⟨-, ⟨-, rfl, rfl⟩ | ⟨-, -, rfl, rfl⟩ | ⟨-, -, rfl, rfl⟩⟩ := TcpConnection.shutdownInLoop_inv hr
  · exact invoke_polled h hc hr rfl (fun ho => ho) ⟨rfl, by simp⟩ he
  · exact invoke_polled h hc hr rfl (fun _ => Or.inr rfl) ⟨rfl, by simp⟩ he
  · exact invoke_polled h hc hr rfl (fun _ => Or.inr rfl) ⟨rfl, by simp⟩ he

/-- Tasks other than `connectionEstablished` run while their loop handles no events. -/
theorem execute_polled (h : Polled s none) {task : Task}
    (hidle : (∃ id, task = .conn id .connectionEstablished) ∨
      ∀ ready, (s.loops l).phase ≠ .handling ready)
    (he : s.execute (.loop l) w task = .ok s') : Polled s' none := by
  cases task with
  | removeConnectionInLoop id => exact (removeConnectionInLoop_polled h he).1
  | conn id task =>
    simp only [execute] at he
    split at he
    · exact absurd he (by simp)
    · rename_i c hc
      cases task with
      | connectionEstablished => exact connectionEstablished_polled (h.record _) hc he
      | connectionDestroyed =>
        refine connectionDestroyed_polled (h.record _) ?_ hc he
        intro l' ready revents hp hmem
        obtain ⟨⟨c', es⟩, hr, -⟩ := bind_ok_inv he
        obtain ⟨ht, -⟩ := TcpConnection.connectionDestroyed_inv hr
        obtain ⟨ci, hci, hl, -⟩ := (h.ready l' ready hp).2 id revents hmem
        rw [hc] at hci
        obtain rfl := Option.some.inj hci
        obtain rfl : l = c.loop := ThreadId.loop.inj (eq_loop ht)
        subst hl
        rcases hidle with ⟨i, heq⟩ | hidle
        · exact absurd heq (by simp)
        · exact hidle ready hp
      | shutdownInLoop => exact shutdownInLoop_polled h hc he
      | sendString msg => exact sendArgInLoop_polled h hc he
      | sendBuffer buf => exact sendArgInLoop_polled h hc he
      | sendPointer addr len => exact sendArgInLoop_polled h hc he
      | writeCompleteCallback | highWaterCallback =>
        obtain rfl := Except.ok.inj he
        exact h

theorem handleReadable_polled (h : Polled s none) (habsent : Absent s id) (hc : s.conns id = some c)
    {r : ReadResult} (he : s.invoke t id (c.handleReadable t r) = .ok s') : Polled s' none := by
  obtain ⟨⟨c', es⟩, hr, -⟩ := bind_ok_inv he
  obtain ⟨-, rb, -, ⟨-, hclose⟩ | ⟨-, rfl, rfl⟩⟩ := TcpConnection.handleReadable_inv hr
  · obtain ⟨-, -, cb, -, rfl, rfl⟩ := TcpConnection.handleClose_inv hclose
    exact invoke_close_polled h habsent hc hr rfl rfl (by simp) he
  · refine invoke_polled h hc hr rfl (fun ho => ho) ⟨rfl, ?_⟩ he
    intro ev hmem
    split at hmem <;> simp at hmem

theorem newConnection_polled (h : Polled s none) (hfresh : s.conns s.accepted = none) {fd : Int}
    (he : s.newConnection (.loop l) fd w = .ok s') : Polled s' none := by
  obtain ⟨_, -, he⟩ := bind_ok_inv he
  have h₁ := h.accept hfresh fd
  unfold runInLoop at he
  split at he
  · exact execute_polled h₁ (Or.inl ⟨_, rfl⟩) he
  · obtain rfl := Except.ok.inj he
    exact h₁.queueInLoop _ _

/-- The connection whose event is handled is not in the rest of the batch, nor in another one. -/
theorem Polled.absent_of_head (h : Polled s none) {revents : PollEvents} {ready : List Ready}
    (hp : (s.loops l).phase = .handling (.channel id revents :: ready)) :
    Absent (s.setPhase l (.handling ready)) id := by
  obtain ⟨hnodup, hmem⟩ := h.ready l _ hp
  obtain ⟨c, hc, hloop, -⟩ := hmem id revents List.mem_cons_self
  intro l' ready' revents' hp' hin
  rcases setPhase_handling hp' with ⟨rfl, heq⟩ | ⟨hl, hold⟩
  · obtain rfl := Phase.handling.inj heq
    have hnotin := (List.nodup_cons.mp hnodup).1
    exact hnotin (List.mem_filterMap.mpr ⟨_, hin, rfl⟩)
  · obtain ⟨c', hc', hloop', -⟩ := (h.ready l' ready' hold).2 id revents' hin
    rw [hc] at hc'
    obtain rfl := Option.some.inj hc'
    exact hl (hloop'.symm.trans hloop)

theorem handle_channel_polled (h : Polled s none) (hI : Inv cfg s none) (habsent : Absent s id)
    {k : Kernel} {revents : PollEvents} (he : s.handle t k (.channel id revents) = .ok s') :
    Polled s' none := by
  simp only [handle] at he
  split at he
  · exact absurd he (by simp)
  · rename_i c hc
    generalize hc₁ : { c with channel := c.channel.setReturnEvents revents } = c₁ at he
    have hw : c₁.wiring = c.wiring := by rw [← hc₁]; rfl
    have hopen : Open c → Open c₁ := by rw [← hc₁]; exact fun ho => ho
    have hev : c₁.channel.events = c.channel.events := by rw [← hc₁]; rfl
    have h₁ : Polled (s.setConn id c₁) none :=
      h.setConn hc hw (fun hr => hopen (h.interest id c hc (by rw [← hev]; exact hr))) (Or.inl hopen)
    have hlook : (s.setConn id c₁).conns id = some c₁ := Function.update_self ..
    rw [handleEvent_wired (hI.at hc).1] at he
    split at he
    · have he := runHandlers_read hlook he
      split at he
      · exact handleReadable_polled (h₁.record _) habsent hlook he
      · exact handleReadable_polled h₁ habsent hlook he
    · obtain rfl := Except.ok.inj he
      exact h₁

theorem loopStep_polled (h : Polled s none) (hI : Inv cfg s none) {k : Kernel}
    (he : s.loopStep l k = .ok s') : Polled s' none := by
  unfold loopStep at he
  split at he
  · obtain rfl := Except.ok.inj he
    exact h.poll l _
  · rename_i x xs hp
    have h₁ : Polled (s.setPhase l (.handling xs)) none := by
      refine h.setPhase ?_
      rintro ready heq
      obtain rfl := Phase.handling.inj heq
      exact ⟨_, hp, List.sublist_cons_self ..⟩
    have hI₁ : Inv cfg (s.setPhase l (.handling xs)) none := hI.setPhase (by rw [hp]; rfl)
    cases x with
    | acceptor =>
      simp only [handle] at he
      obtain ⟨_, -, he⟩ := bind_ok_inv he
      split at he
      · obtain rfl := Except.ok.inj he
        exact h₁
      · exact newConnection_polled h₁ (hI₁.fresh _ (Nat.le_refl _)) he
    | channel id revents => exact handle_channel_polled h₁ hI₁ (h.absent_of_head hp) he
  · obtain rfl := Except.ok.inj he
    refine h.frame rfl ?_ ?_
    · intro l'
      unfold swapTasks
      by_cases hl : l' = l
      · subst hl
        simp
      · simp [hl]
    · intro l' ready hp'
      exact ⟨ready, swapTasks_handling hp', List.Sublist.refl _⟩
  · rename_i task tasks hp
    have h₁ : Polled (s.setPhase l (.executing tasks)) none := h.setPhase (by simp)
    refine execute_polled h₁ (Or.inr ?_) he
    unfold World.setPhase
    simp
  · obtain rfl := Except.ok.inj he
    exact h.setPhase (by simp)

theorem send_polled (h : Polled s none) (hc : s.conns id = some c) {arg : TcpConnection.SendArg}
    (he : s.invoke t id (c.send t s.memory arg w) = .ok s') : Polled s' none := by
  obtain ⟨⟨c', es⟩, hr, -⟩ := bind_ok_inv he
  rcases TcpConnection.send_inv hr with ⟨-, rfl, rfl⟩ | ⟨-, -, hcall⟩ | ⟨-, -, rfl, rfl⟩
  · exact invoke_polled h hc hr rfl (fun ho => ho) ⟨rfl, by simp⟩ he
  · rw [hr, ← hcall] at he
    exact sendArgInLoop_polled h hc he
  · exact invoke_polled h hc hr rfl (fun ho => ho) ⟨rfl, by simp⟩ he

theorem shutdown_polled (h : Polled s none) (hc : s.conns id = some c)
    (he : s.invoke t id (c.shutdown t) = .ok s') : Polled s' none := by
  obtain ⟨⟨c', es⟩, hr, -⟩ := bind_ok_inv he
  rcases TcpConnection.shutdown_inv hr with ⟨-, rfl, rfl⟩ | ⟨-, rfl, rfl⟩
  · exact invoke_polled h hc hr rfl (fun ho => ho) ⟨rfl, by simp⟩ he
  · refine invoke_polled h hc hr rfl (fun _ => Or.inr rfl) ⟨rfl, ?_⟩ he
    intro ev hmem
    split at hmem <;> simp at hmem

/-- **Every step keeps the pollers truthful.** -/
theorem step_polled {lb : Label} (h : Polled s none) (hI : Inv cfg s none) (he : s.step lb = .ok s') :
    Polled s' none := by
  cases lb with
  | loop l k => exact loopStep_polled h hI he
  | send t id arg w =>
    simp only [step] at he
    split at he
    · obtain rfl := Except.ok.inj he
      exact h
    · rename_i c hc
      exact send_polled h hc he
  | shutdown t id =>
    simp only [step] at he
    split at he
    · obtain rfl := Except.ok.inj he
      exact h
    · rename_i c hc
      exact shutdown_polled h hc he
  | store m =>
    obtain rfl := Except.ok.inj he
    exact h.same rfl (fun _ => rfl) (fun _ => rfl)

end World

end TcpServer

end HyperMuduo.Net
