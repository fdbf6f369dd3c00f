import HyperMuduo.Lib.PartialMap
import HyperMuduo.Lib.Run
import HyperMuduo.TcpServer.Stages

/-!
# Every step keeps the stages

One lemma per function of the world: what it does to `Inv`, and which entries it adds to the log.
`step_inv` assembles them, and `reachable_inv` is the induction over runs.

`Entry.quiet` sets two kinds of entries apart, a call of `connectionEstablished` and a message
callback; `step_inv` says where a step can have added one (`StepLog`).
-/

namespace HyperMuduo.Net.TcpServer

open HyperMuduo.Lib
open HyperMuduo.Net.TcpConnection (Effect ReadResult Result)

/-- Neither a call of `connectionEstablished` nor a message callback. -/
def Entry.quiet : Entry → Bool
  | .called .connectionEstablished _ _ | .effect _ .messageCallback => false
  | _ => true

/-- Neither a close, nor a task that moves a connection. -/
def routine : Effect → Bool
  | .closeCallback _ | .queueInLoop .connectionEstablished | .queueInLoop .connectionDestroyed => false
  | _ => true

theorem routine_of_output {es : List Effect} (h : es.all Effect.output = true) :
    es.all routine = true := by
  rw [List.all_eq_true] at h ⊢
  intro e he
  have hout := h e he
  unfold routine
  split <;> first | rfl | exact absurd hout (by simp [TcpConnection.Effect.output])

theorem quiet_of_output {es : List Effect} (h : es.all Effect.output = true) (id : Nat) :
    (es.map (Entry.effect id)).all Entry.quiet = true := by
  rw [List.all_map, List.all_eq_true]
  rw [List.all_eq_true] at h
  intro e he
  have hout := h e he
  cases e with
  | messageCallback => exact absurd hout (by simp [TcpConnection.Effect.output])
  | _ => rfl

section Routine

variable {c c' : TcpConnection} {t : ThreadId} {es : List Effect} {w : Int}

theorem connectionEstablished_routine (hr : c.connectionEstablished t = .ok (c', es)) :
    es.all routine = true := by
  obtain ⟨-, -, -, rfl⟩ := TcpConnection.connectionEstablished_inv hr
  unfold TcpConnection.connectionNotice
  split <;> rfl

theorem connectionDestroyed_routine (hr : c.connectionDestroyed t = .ok (c', es)) :
    es.all routine = true := by
  obtain ⟨-, -, rfl⟩ := TcpConnection.connectionDestroyed_inv hr
  unfold TcpConnection.connectionNotice
  split <;> rfl

theorem sendArgInLoop_routine {m : Memory} {arg : TcpConnection.SendArg}
    (hr : c.sendArgInLoop t m arg w = .ok (c', es)) : es.all routine = true :=
  routine_of_output (TcpConnection.sendArgInLoop_output hr)

theorem shutdownInLoop_routine (hr : c.shutdownInLoop t = .ok (c', es)) : es.all routine = true := by
  obtain ⟨-, ⟨-, -, rfl⟩ | ⟨-, -, -, rfl⟩ | ⟨-, -, -, rfl⟩⟩ := TcpConnection.shutdownInLoop_inv hr <;> rfl

theorem send_routine {m : Memory} {arg : TcpConnection.SendArg}
    (hr : c.send t m arg w = .ok (c', es)) : es.all routine = true := by
  rcases TcpConnection.send_inv hr with ⟨-, -, rfl⟩ | ⟨-, -, hcall⟩ | ⟨-, -, -, rfl⟩
  · rfl
  · exact sendArgInLoop_routine hcall
  · cases arg <;> rfl

theorem shutdown_routine (hr : c.shutdown t = .ok (c', es)) : es.all routine = true := by
  rcases TcpConnection.shutdown_inv hr with ⟨-, -, rfl⟩ | ⟨-, -, heq⟩
  · rfl
  · rw [heq]
    split <;> rfl

end Routine

theorem stateAt_open {n : Nat} {st : TcpConnection.State} (h : StateAt n st)
    (ho : st = .connected ∨ st = .disconnecting) : n = 1 := by
  unfold StateAt at h
  split at h
  · rcases ho with rfl | rfl <;> exact absurd h (by simp)
  · rfl
  · rcases ho with rfl | rfl <;> exact absurd h (by simp)

/-- `Connected` may become `Disconnecting` within a stage. -/
theorem stateAt_disconnecting {n : Nat} {st : TcpConnection.State} (h : StateAt n st)
    (hc : st = .connected) : StateAt n .disconnecting := by
  obtain rfl := stateAt_open h (Or.inl hc)
  exact Or.inr rfl

theorem eq_loop {l : LoopId} {t : ThreadId} (h : isInLoopThread l t = true) : t = .loop l :=
  of_decide_eq_true h

namespace World

variable {cfg : Config} {s s' : World} {hand : Option (LoopId × Task)} {id : Nat} {c c' : TcpConnection}
  {t : ThreadId} {es : List Effect} {w : Int} {l : LoopId} {task : Task}

/-! ## Effects -/

theorem perform_routine (h : Inv cfg s hand) {c₀ : TcpConnection} (hc : s.conns id = some c₀)
    (hl : c.loop = c₀.loop) {e : Effect} (hr : routine e = true) (he : s.perform t id c e = .ok s') :
    Inv cfg s' hand ∧ s'.conns = s.conns ∧ s'.log = s.log ++ [.effect id e] := by
  have h₁ := h.record id e
  cases e with
  | updateChannel events =>
    obtain ⟨_, -, he⟩ := bind_ok_inv he
    obtain rfl := Except.ok.inj he
    exact ⟨h₁.setPoller _ _, rfl, rfl⟩
  | removeChannel =>
    obtain ⟨_, -, he⟩ := bind_ok_inv he
    obtain rfl := Except.ok.inj he
    exact ⟨h₁.setPoller _ _, rfl, rfl⟩
  | queueInLoop task =>
    obtain rfl := Except.ok.inj he
    rw [hl]
    refine ⟨h₁.queue hc ?_, rfl, rfl⟩
    cases task with
    | connectionEstablished | connectionDestroyed => exact absurd hr (by simp [routine])
    | _ => rfl
  | closeCallback cb => exact absurd hr (by simp [routine])
  | _ =>
    obtain rfl := Except.ok.inj he
    exact ⟨h₁, rfl, rfl⟩

theorem performAll_routine (h : Inv cfg s hand) {c₀ : TcpConnection} (hc : s.conns id = some c₀)
    (hl : c.loop = c₀.loop) (hr : es.all routine = true) (he : performAll t id c s es = .ok s') :
    Inv cfg s' hand ∧ s'.conns = s.conns ∧ s'.log = s.log ++ es.map (.effect id) := by
  induction es generalizing s with
  | nil =>
    obtain rfl := Except.ok.inj he
    exact ⟨h, rfl, (List.append_nil _).symm⟩
  | cons e es ih =>
    rw [List.all_cons, Bool.and_eq_true] at hr
    obtain ⟨s₁, h1, h2⟩ := bind_ok_inv he
    obtain ⟨hI, hconns, hlog⟩ := perform_routine h hc hl hr.1 h1
    obtain ⟨hI', hconns', hlog'⟩ := ih hI (by rw [hconns]; exact hc) hr.2 h2
    refine ⟨hI', hconns'.trans hconns, ?_⟩
    rw [hlog', hlog, List.append_assoc]
    rfl

/-- A call that leaves the stage alone and asks for routine effects only. -/
theorem invoke_routine (h : Inv cfg s hand) (hc : s.conns id = some c) {r : Result}
    (hr : r = .ok (c', es)) (hw : c'.wiring = c.wiring)
    (hst : ∀ n, StateAt n c.state → StateAt n c'.state) (hes : es.all routine = true)
    (he : s.invoke t id r = .ok s') : Inv cfg s' hand ∧ s'.log = s.log ++ es.map (.effect id) := by
  rw [hr] at he
  have h₁ := h.setConn hc hw hst
  obtain ⟨hI, -, hlog⟩ := performAll_routine h₁ (Function.update_self ..) rfl hes he
  exact ⟨hI, hlog⟩

/-! ## The functions of the life cycle -/

/-- The stage that a waiting task ends. -/
theorem Inv.stage_of_token (h : Inv cfg s hand) (hm : task.moves = true)
    (hpos : 0 < tokens s hand l task) :
    ∃ c n, s.conns task.captured = some c ∧ At s hand task.captured c n ∧
      nextTask task.captured c.loop n = some (l, task) := by
  obtain ⟨c, hc, -⟩ := h.home l task hpos
  obtain ⟨-, n, hat⟩ := h.at hc
  refine ⟨c, n, hc, hat, ?_⟩
  by_contra hne
  rw [hat.token l task hm rfl, if_neg hne] at hpos
  exact absurd hpos (Nat.lt_irrefl 0)

/-- The stage that a task in hand ends. -/
theorem Inv.stage (h : Inv cfg s (some (l, task))) (hm : task.moves = true) :
    ∃ c n, s.conns task.captured = some c ∧ At s (some (l, task)) task.captured c n ∧
      nextTask task.captured c.loop n = some (l, task) := by
  refine h.stage_of_token hm ?_
  unfold tokens
  rw [if_pos rfl]
  omega

theorem tokens_pos_of_mem (h : task ∈ (s.loops l).pending) : 0 < tokens s hand l task := by
  have hcount := List.count_pos_iff.mpr h
  unfold tokens
  omega

theorem connectionEstablished_step (h : Inv cfg s (some (l, .conn id .connectionEstablished)))
    (hc : s.conns id = some c)
    (he : (s.record (.called .connectionEstablished t id)).invoke t id (c.connectionEstablished t) =
      .ok s') :
    Inv cfg s' none ∧ s'.log = s.log ++ .called .connectionEstablished t id ::
      (.updateChannel c.channel.listenTillReadable.events :: c.connectionNotice true).map
        (.effect id) := by
  obtain ⟨⟨c', es⟩, hr, he⟩ := bind_ok_inv he
  have hes := connectionEstablished_routine hr
  obtain ⟨ht, -, rfl, rfl⟩ := TcpConnection.connectionEstablished_inv hr
  obtain rfl := eq_loop ht
  obtain ⟨c₀, n, hc₀, hat, hnext⟩ := h.stage rfl
  rw [show Task.captured (.conn id .connectionEstablished) = id from rfl] at hc₀ hat hnext
  rw [hc] at hc₀
  obtain rfl := Option.some.inj hc₀
  obtain rfl := nextTask_established hnext
  rw [← hnext] at h hat
  have h₁ : Inv cfg ((s.record (.called .connectionEstablished (.loop c.loop) id)).setConn id
      { c with state := .connected, channel := c.channel.listenTillReadable })
      (nextTask id c.loop (0 + 1)) :=
    h.advance { c with state := .connected, channel := c.channel.listenTillReadable }
      s.server.connections hc hat rfl rfl (Or.inl rfl) (fun _ _ h => h) (fun _ _ => rfl)
      (fun hfew => (hat.mapped hfew).trans (by omega)) rfl rfl rfl rfl rfl
  obtain ⟨hI, -, hlog⟩ := performAll_routine h₁ (Function.update_self ..) rfl hes he
  refine ⟨hI, ?_⟩
  rw [hlog]
  exact List.append_assoc ..

theorem connectionDestroyed_step (h : Inv cfg s (some (l, .conn id .connectionDestroyed)))
    (hc : s.conns id = some c)
    (he : (s.record (.called .connectionDestroyed t id)).invoke t id (c.connectionDestroyed t) =
      .ok s') :
    Inv cfg s' none ∧ ∃ new, s'.log = s.log ++ new ∧ new.all Entry.quiet = true := by
  obtain ⟨⟨c', es⟩, hr, he⟩ := bind_ok_inv he
  have hes := connectionDestroyed_routine hr
  obtain ⟨ht, rfl, rfl⟩ := TcpConnection.connectionDestroyed_inv hr
  obtain rfl := eq_loop ht
  obtain ⟨c₀, n, hc₀, hat, hnext⟩ := h.stage rfl
  rw [show Task.captured (.conn id .connectionDestroyed) = id from rfl] at hc₀ hat hnext
  rw [hc] at hc₀
  obtain rfl := Option.some.inj hc₀
  obtain rfl := nextTask_destroyed hnext
  rw [← hnext] at h hat
  have h₁ : Inv cfg ((s.record (.called .connectionDestroyed (.loop c.loop) id)).setConn id
      { c with state := .disconnected, channel := c.channel.ignoreAll })
      (nextTask id c.loop (3 + 1)) :=
    h.advance { c with state := .disconnected, channel := c.channel.ignoreAll }
      s.server.connections hc hat rfl rfl rfl (fun _ _ h => h) (fun _ _ => rfl)
      (fun hfew => (hat.mapped hfew).trans (by omega)) rfl rfl rfl rfl rfl
  obtain ⟨hI, -, hlog⟩ := performAll_routine h₁ (Function.update_self ..) rfl hes he
  refine ⟨hI, _, hlog.trans (List.append_assoc ..), ?_⟩
  unfold TcpConnection.connectionNotice
  split <;> rfl

theorem removeConnectionInLoop_step
    (h : Inv cfg s (some (l, .removeConnectionInLoop id)))
    (he : s.removeConnectionInLoop t id = .ok s') :
    Inv cfg s' none ∧ s'.log = s.log ++ [.called .removeConnectionInLoop t id] := by
  obtain ⟨_, hin, he⟩ := bind_ok_inv he
  obtain rfl := eq_loop (assert_inv hin)
  obtain ⟨c, n, hc, hat, hnext⟩ := h.stage rfl
  rw [show Task.captured (.removeConnectionInLoop id) = id from rfl] at hc hat hnext
  obtain rfl := nextTask_remove hnext
  rw [← hnext] at h hat
  have hc₁ : (s.record (.called .removeConnectionInLoop (.loop baseLoop) id)).conns id = some c := hc
  simp only [hc₁] at he
  obtain rfl := Except.ok.inj he
  let connections := Function.update s.server.connections c.name none
  have hgone : connections c.name = none := Function.update_self ..
  have hsub : ∀ name i, connections name = some i → s.server.connections name = some i := by
    intro name i hi
    exact (update_none_inv hi).2
  have h₁ : Inv cfg { s.record (.called .removeConnectionInLoop (.loop baseLoop) id) with
      server := { s.server with connections := connections } } (nextTask id c.loop (2 + 1)) :=
    h.advance c connections hc hat rfl rfl hat.state hsub
      (fun name hne => Function.update_of_ne hne ..) (fun _ => by rw [hgone]; simp) rfl rfl
      (Function.update_eq_self_iff.mpr hc.symm).symm rfl rfl
  exact ⟨h₁.put, rfl⟩

theorem removeConnection_step (h : Inv cfg s (some (baseLoop, .removeConnectionInLoop id)))
    (he : s.removeConnection t id = .ok s') :
    Inv cfg s' none ∧ ∃ new, s'.log = s.log ++ new ∧ new.all Entry.quiet = true := by
  unfold removeConnection at he
  split at he
  · obtain ⟨hI, hlog⟩ := removeConnectionInLoop_step h he
    exact ⟨hI, _, hlog, rfl⟩
  · obtain rfl := Except.ok.inj he
    exact ⟨h.put, [], (List.append_nil _).symm, rfl⟩

theorem handleClose_step (h : Inv cfg s none) (hc : s.conns id = some c)
    (he : (s.record (.called .handleClose t id)).invoke t id (c.handleReadable t (some [])) =
      .ok s') :
    Inv cfg s' none ∧ ∃ new, s'.log = s.log ++ new ∧ new.all Entry.quiet = true := by
  obtain ⟨⟨c', es⟩, hr, he⟩ := bind_ok_inv he
  obtain ⟨ht, rb, -, ⟨-, hclose⟩ | ⟨hne, -⟩⟩ := TcpConnection.handleReadable_inv hr
  · obtain ⟨-, hopen, cb, hcb, rfl, rfl⟩ := TcpConnection.handleClose_inv hclose
    obtain rfl := eq_loop ht
    obtain ⟨hwired, n, hat⟩ := h.at hc
    obtain rfl := stateAt_open hat.state hopen
    have hcb' : c.closeCallback = some cb := hcb
    rw [hwired.closeCallback] at hcb'
    obtain rfl := Option.some.inj hcb'
    have h₁ : Inv cfg ((s.record (.called .handleClose (.loop c.loop) id)).setConn id { c with
        receiveBuffer := rb, state := .disconnected, channel := c.channel.ignoreAll })
        (nextTask id c.loop (1 + 1)) :=
      Inv.advance (n := 1) h
        { c with receiveBuffer := rb, state := .disconnected, channel := c.channel.ignoreAll }
        s.server.connections hc hat rfl rfl rfl (fun _ _ h => h) (fun _ _ => rfl)
        (fun hfew => (hat.mapped hfew).trans (by omega)) rfl rfl rfl rfl rfl
    -- the interest goes first, then the close callback takes the task in hand
    obtain ⟨s₂, hupdate, he⟩ := bind_ok_inv he
    obtain ⟨h₂, -, hlog₂⟩ := perform_routine h₁ (Function.update_self ..) rfl rfl hupdate
    obtain ⟨s₃, hcall, he⟩ := bind_ok_inv he
    obtain rfl := Except.ok.inj he
    obtain ⟨hI, new, hlog, hquiet⟩ := removeConnection_step (h₂.record id _) hcall
    refine ⟨hI, .called .handleClose (.loop c.loop) id :: .effect id (.updateChannel .none) ::
      .effect id (.closeCallback (.serverRemoveConnection id)) :: new, ?_, hquiet⟩
    rw [hlog]
    simp only [World.record, hlog₂, World.setConn, List.append_assoc, List.cons_append,
      List.nil_append]
  · exact absurd rfl hne

/-! ## Tasks and events -/

/-- The entries a task can add: quiet ones, or a call of `connectionEstablished` followed by the
connection callback, when it is set. -/
inductive CallLog (connectionCallback : Bool) (new : List Entry) : Prop where
  | quiet (h : new.all Entry.quiet = true)
  | established (t : ThreadId) (id : Nat) (rest : List Entry)
    (heq : new = .called .connectionEstablished t id :: rest) (hrest : rest.all Entry.quiet = true)
    (hnotice : connectionCallback = true → .effect id (.connectionCallback true) ∈ rest)

/-- The entries a step can add: those of a call, or the callback for a message that an event of a
loop brought. -/
inductive StepLog (cfg : Config) (s : World) (new : List Entry) : Prop where
  | call (h : CallLog cfg.connectionCallback new)
  | message (l : LoopId) (id : Nat) (revents : PollEvents) (ready : List Ready)
    (heq : new = [.effect id .messageCallback])
    (hready : (s.loops l).phase = .handling (.channel id revents :: ready))
    (hread : revents.pollin = true ∨ revents.pollpri = true ∨ revents.pollrdhup = true)

theorem sendArgInLoop_step (h : Inv cfg s hand) (hc : s.conns id = some c) {m : Memory}
    {arg : TcpConnection.SendArg} (he : s.invoke t id (c.sendArgInLoop t m arg w) = .ok s') :
    Inv cfg s' hand ∧ ∃ new, s'.log = s.log ++ new ∧ new.all Entry.quiet = true := by
  obtain ⟨⟨c', es⟩, hr, -⟩ := bind_ok_inv he
  obtain ⟨hw, hst, -⟩ := TcpConnection.sendArgInLoop_wiring hr
  obtain ⟨hI, hlog⟩ := invoke_routine h hc hr hw (fun n hn => by rw [hst]; exact hn)
    (sendArgInLoop_routine hr) he
  exact ⟨hI, _, hlog, quiet_of_output (TcpConnection.sendArgInLoop_output hr) id⟩

theorem shutdownInLoop_step (h : Inv cfg s hand) (hc : s.conns id = some c)
    (he : s.invoke t id (c.shutdownInLoop t) = .ok s') :
    Inv cfg s' hand ∧ ∃ new, s'.log = s.log ++ new ∧ new.all Entry.quiet = true := by
  obtain ⟨⟨c', es⟩, hr, -⟩ := bind_ok_inv he
  have hw := TcpConnection.shutdownInLoop_wiring hr
  have hst : ∀ n, StateAt n c.state → StateAt n c'.state := by
    obtain ⟨-, ⟨-, rfl, -⟩ | ⟨hcon, -, rfl, -⟩ | ⟨hcon, -, rfl, -⟩⟩ :=
      TcpConnection.shutdownInLoop_inv hr
    · exact fun n hn => hn
    · exact fun n hn => stateAt_disconnecting hn hcon
    · exact fun n hn => stateAt_disconnecting hn hcon
  have hquiet : (es.map (Entry.effect id)).all Entry.quiet = true := by
    obtain ⟨-, ⟨-, -, rfl⟩ | ⟨-, -, -, rfl⟩ | ⟨-, -, -, rfl⟩⟩ := TcpConnection.shutdownInLoop_inv hr <;>
      rfl
  obtain ⟨hI, hlog⟩ := invoke_routine h hc hr hw hst (shutdownInLoop_routine hr) he
  exact ⟨hI, _, hlog, hquiet⟩

/-- The notice of `connectionEstablished` in the log. -/
theorem established_log (hwired : Wired cfg id c) {new : List Entry}
    (heq : new = .called .connectionEstablished t id ::
      (Effect.updateChannel c.channel.listenTillReadable.events :: c.connectionNotice true).map
        (Entry.effect id)) : CallLog cfg.connectionCallback new := by
  refine .established t id _ heq ?_ ?_
  · unfold TcpConnection.connectionNotice
    split <;> rfl
  · intro hcb
    rw [← hwired.connectionCallback] at hcb
    unfold TcpConnection.connectionNotice
    rw [if_pos hcb]
    simp

theorem execute_step (h : Inv cfg s (some (l, task))) (he : s.execute t w task = .ok s') :
    Inv cfg s' none ∧ ∃ new, s'.log = s.log ++ new ∧ CallLog cfg.connectionCallback new := by
  cases task with
  | removeConnectionInLoop id =>
    obtain ⟨hI, hlog⟩ := removeConnectionInLoop_step h he
    exact ⟨hI, _, hlog, .quiet rfl⟩
  | conn id task =>
    simp only [execute] at he
    split at he
    · exact absurd he (by simp)
    · rename_i c hc
      cases task with
      | connectionEstablished =>
        obtain ⟨hI, hlog⟩ := connectionEstablished_step h hc he
        exact ⟨hI, _, hlog, established_log (h.at hc).1 rfl⟩
      | connectionDestroyed =>
        obtain ⟨hI, new, hlog, hquiet⟩ := connectionDestroyed_step h hc he
        exact ⟨hI, new, hlog, .quiet hquiet⟩
      | shutdownInLoop =>
        obtain ⟨hI, new, hlog, hquiet⟩ := shutdownInLoop_step (h.release rfl) hc he
        exact ⟨hI, new, hlog, .quiet hquiet⟩
      | sendString msg =>
        obtain ⟨hI, new, hlog, hquiet⟩ := sendArgInLoop_step (h.release rfl) hc he
        exact ⟨hI, new, hlog, .quiet hquiet⟩
      | sendBuffer buf =>
        obtain ⟨hI, new, hlog, hquiet⟩ := sendArgInLoop_step (h.release rfl) hc he
        exact ⟨hI, new, hlog, .quiet hquiet⟩
      | sendPointer addr len =>
        obtain ⟨hI, new, hlog, hquiet⟩ := sendArgInLoop_step (h.release rfl) hc he
        exact ⟨hI, new, hlog, .quiet hquiet⟩
      | writeCompleteCallback | highWaterCallback =>
        obtain rfl := Except.ok.inj he
        exact ⟨h.release rfl, [], (List.append_nil _).symm, .quiet rfl⟩

theorem newConnection_step (h : Inv cfg s none) {fd : Int} (he : s.newConnection t fd w = .ok s') :
    Inv cfg s' none ∧ ∃ new, s'.log = s.log ++ new ∧ CallLog cfg.connectionCallback new := by
  obtain ⟨_, -, he⟩ := bind_ok_inv he
  have h₁ := h.accept fd
  unfold runInLoop at he
  split at he
  · obtain ⟨hI, new, hlog, hnew⟩ := execute_step h₁ he
    exact ⟨hI, new, hlog, hnew⟩
  · obtain rfl := Except.ok.inj he
    exact ⟨h₁.put, [], (List.append_nil _).symm, .quiet rfl⟩

/-- The handlers of an event on a connection: at most the read callback. -/
theorem handleEvent_wired (h : Wired cfg id c) (revents : PollEvents) :
    (c.channel.setReturnEvents revents).handleEvent =
      if revents.pollin || revents.pollpri || revents.pollrdhup then [.handleReadable] else [] := by
  unfold Channel.handleEvent Channel.setReturnEvents
  simp only [h.readCallback, h.writeCallback, h.errorCallback, Option.toList_none, ite_self,
    List.nil_append, List.append_nil]
  rfl

theorem runHandlers_read (hc : s.conns id = some c) {r : ReadResult}
    (he : s.runHandlers t id r w [.handleReadable] = .ok s') :
    (if r = some [] then s.record (.called .handleClose t id) else s).invoke t id
      (c.handleReadable t r) = .ok s' := by
  unfold runHandlers at he
  simp only [hc, true_and] at he
  obtain ⟨s₁, h1, h2⟩ := bind_ok_inv he
  obtain rfl := Except.ok.inj h2
  exact h1

theorem handle_channel_step (h : Inv cfg s none) {k : Kernel} {id : Nat} {revents : PollEvents}
    (he : s.handle t k (.channel id revents) = .ok s') :
    Inv cfg s' none ∧ ∃ new, s'.log = s.log ++ new ∧ (new.all Entry.quiet = true ∨
      (new = [.effect id .messageCallback] ∧
        (revents.pollin = true ∨ revents.pollpri = true ∨ revents.pollrdhup = true))) := by
  simp only [handle] at he
  split at he
  · exact absurd he (by simp)
  · rename_i c hc
    generalize hc₁ : { c with channel := c.channel.setReturnEvents revents } = c₁ at he
    have hw : c₁.wiring = c.wiring := by rw [← hc₁]; rfl
    have hst : c₁.state = c.state := by rw [← hc₁]
    have h₁ := h.setConn hc hw (fun n hn => by rw [hst]; exact hn)
    rw [handleEvent_wired (h.at hc).1] at he
    split at he
    · rename_i hread
      have hlook : (s.setConn id c₁).conns id = some c₁ := Function.update_self ..
      have he := runHandlers_read hlook he
      by_cases hr : k.read = some []
      · rw [if_pos hr, hr] at he
        obtain ⟨hI, new, hlog, hquiet⟩ := handleClose_step h₁ hlook he
        exact ⟨hI, new, hlog, Or.inl hquiet⟩
      · rw [if_neg hr] at he
        obtain ⟨⟨c', es⟩, hcall, -⟩ := bind_ok_inv he
        obtain ⟨-, rb, -, ⟨heof, -⟩ | ⟨-, rfl, rfl⟩⟩ := TcpConnection.handleReadable_inv hcall
        · exact absurd heof hr
        · by_cases hmsg : (k.read.isSome && c₁.messageCallback) = true
          · rw [if_pos hmsg] at hcall
            obtain ⟨hI, hlog⟩ := invoke_routine h₁ hlook hcall rfl (fun _ hn => hn) rfl he
            refine ⟨hI, _, hlog, Or.inr ⟨rfl, ?_⟩⟩
            simpa [or_assoc] using hread
          · rw [if_neg hmsg] at hcall
            obtain ⟨hI, hlog⟩ := invoke_routine h₁ hlook hcall rfl (fun _ hn => hn) rfl he
            exact ⟨hI, _, hlog, Or.inl rfl⟩
    · obtain rfl := Except.ok.inj he
      exact ⟨h₁, [], (List.append_nil _).symm, Or.inl rfl⟩

/-! ## Steps and runs -/

theorem Inv.setPhase (h : Inv cfg s hand) {p : Phase} (hp : p.tasks = (s.loops l).phase.tasks) :
    Inv cfg (s.setPhase l p) hand :=
  h.same rfl rfl rfl (fun _ => rfl) (tokens_setPhase hp)

theorem loopStep_inv (h : Inv cfg s none) {k : Kernel} (he : s.loopStep l k = .ok s') :
    Inv cfg s' none ∧ ∃ new, s'.log = s.log ++ new ∧ StepLog cfg s new := by
  unfold loopStep at he
  split at he
  · rename_i hp
    obtain rfl := Except.ok.inj he
    exact ⟨h.setPhase (by rw [hp]; rfl), [], (List.append_nil _).symm, .call (.quiet rfl)⟩
  · rename_i x xs hp
    have h₁ : Inv cfg (s.setPhase l (.handling xs)) none := h.setPhase (by rw [hp]; rfl)
    cases x with
    | acceptor =>
      simp only [handle] at he
      obtain ⟨_, -, he⟩ := bind_ok_inv he
      split at he
      · obtain rfl := Except.ok.inj he
        exact ⟨h₁, [], (List.append_nil _).symm, .call (.quiet rfl)⟩
      · obtain ⟨hI, new, hlog, hnew⟩ := newConnection_step h₁ he
        exact ⟨hI, new, hlog, .call hnew⟩
    | channel id revents =>
      obtain ⟨hI, new, hlog, hquiet | ⟨heq, hread⟩⟩ := handle_channel_step h₁ he
      · exact ⟨hI, new, hlog, .call (.quiet hquiet)⟩
      · exact ⟨hI, new, hlog, .message l id revents xs heq hp hread⟩
  · rename_i hp
    obtain rfl := Except.ok.inj he
    exact ⟨h.same rfl rfl rfl (fun _ => rfl) (tokens_swapTasks (by rw [hp]; rfl)), [],
      (List.append_nil _).symm, .call (.quiet rfl)⟩
  · rename_i task tasks hp
    obtain ⟨hI, new, hlog, hnew⟩ := execute_step (h.take hp) he
    exact ⟨hI, new, hlog, .call hnew⟩
  · rename_i hp
    obtain rfl := Except.ok.inj he
    exact ⟨h.setPhase (by rw [hp]; rfl), [], (List.append_nil _).symm, .call (.quiet rfl)⟩

theorem send_step (h : Inv cfg s hand) (hc : s.conns id = some c) {arg : TcpConnection.SendArg}
    (he : s.invoke t id (c.send t s.memory arg w) = .ok s') :
    Inv cfg s' hand ∧ ∃ new, s'.log = s.log ++ new ∧ new.all Entry.quiet = true := by
  obtain ⟨⟨c', es⟩, hr, -⟩ := bind_ok_inv he
  rcases TcpConnection.send_inv hr with ⟨-, rfl, rfl⟩ | ⟨-, -, hcall⟩ | ⟨-, -, rfl, rfl⟩
  · obtain ⟨hI, hlog⟩ := invoke_routine h hc hr rfl (fun _ hn => hn) rfl he
    exact ⟨hI, _, hlog, rfl⟩
  · rw [hr, ← hcall] at he
    exact sendArgInLoop_step h hc he
  · obtain ⟨hI, hlog⟩ := invoke_routine h hc hr rfl (fun _ hn => hn) (send_routine hr) he
    exact ⟨hI, _, hlog, rfl⟩

theorem shutdown_step (h : Inv cfg s hand) (hc : s.conns id = some c)
    (he : s.invoke t id (c.shutdown t) = .ok s') :
    Inv cfg s' hand ∧ ∃ new, s'.log = s.log ++ new ∧ new.all Entry.quiet = true := by
  obtain ⟨⟨c', es⟩, hr, -⟩ := bind_ok_inv he
  rcases TcpConnection.shutdown_inv hr with ⟨-, rfl, rfl⟩ | ⟨hcon, rfl, heq⟩
  · obtain ⟨hI, hlog⟩ := invoke_routine h hc hr rfl (fun _ hn => hn) rfl he
    exact ⟨hI, _, hlog, rfl⟩
  · have hquiet : (es.map (Entry.effect id)).all Entry.quiet = true := by
      rw [heq]
      split <;> rfl
    obtain ⟨hI, hlog⟩ := invoke_routine h hc hr rfl (fun _ hn => stateAt_disconnecting hn hcon)
      (shutdown_routine hr) he
    exact ⟨hI, _, hlog, hquiet⟩

/-- **Every step keeps the stages.** -/
theorem step_inv {lb : Label} (h : Inv cfg s none) (he : s.step lb = .ok s') :
    Inv cfg s' none ∧ ∃ new, s'.log = s.log ++ new ∧ StepLog cfg s new := by
  cases lb with
  | loop l k => exact loopStep_inv h he
  | send t id arg w =>
    simp only [step] at he
    split at he
    · obtain rfl := Except.ok.inj he
      exact ⟨h, [], (List.append_nil _).symm, .call (.quiet rfl)⟩
    · rename_i c hc
      obtain ⟨hI, new, hlog, hquiet⟩ := send_step h hc he
      exact ⟨hI, new, hlog, .call (.quiet hquiet)⟩
  | shutdown t id =>
    simp only [step] at he
    split at he
    · obtain rfl := Except.ok.inj he
      exact ⟨h, [], (List.append_nil _).symm, .call (.quiet rfl)⟩
    · rename_i c hc
      obtain ⟨hI, new, hlog, hquiet⟩ := shutdown_step h hc he
      exact ⟨hI, new, hlog, .call (.quiet hquiet)⟩
  | store m =>
    obtain rfl := Except.ok.inj he
    exact ⟨h.same rfl rfl rfl (fun _ => rfl) (fun _ _ => rfl), [], (List.append_nil _).symm,
      .call (.quiet rfl)⟩

theorem start_inv (cfg : Config) : Inv cfg (start cfg) none where
  fresh := fun _ _ => rfl
  unseen := fun _ _ => rfl
  settings := ⟨rfl, rfl⟩
  next := (toInt32_of_lt (by decide)).symm
  conn := fun id hid => absurd hid (Nat.not_lt_zero id)
  home := fun _ _ hpos => absurd hpos (Nat.lt_irrefl 0)
  map := fun _ _ h => absurd h (by simp [start, started])

/-- A state the server can be in. -/
def Reachable (cfg : Config) (s : World) : Prop := ∃ labels, run step (start cfg) labels = .ok s

/-- **The stages hold in every reachable state.** -/
theorem reachable_inv (h : Reachable cfg s) : Inv cfg s none := by
  obtain ⟨labels, hr⟩ := h
  exact run_preserves (I := fun s => Inv cfg s none) (fun hI he => (step_inv hI he).1) (start_inv cfg) hr

end World

end HyperMuduo.Net.TcpServer
