import HyperMuduo.TcpConnection.Backlog

/-!
# A destroyed connection and the poller

`connectionDestroyed` takes the channel out of the poller. `send` tests the state on the caller's
thread, and the `sendInLoop` task it pushes does not test it again: when the task runs after
`connectionDestroyed` and the write is short, `listenTillWritable` registers the channel once more,
with `EPOLL_CTL_ADD`.

`KeepsOut` is the condition on a step: a `sendInLoop` that runs after `connectionDestroyed` has
nothing left to watch. Runs that meet it keep the channel out (`destroyed_stays_deregistered`), and
a step that breaks it puts the channel back (`reregistered_of_leftover`).
-/

namespace HyperMuduo.Net.TcpConnection

open HyperMuduo.Lib HyperMuduo.Net.Buffer

/-! ## Effects on the poller -/

def Effect.touchesPoller : Effect → Bool
  | .updateChannel _ | .removeChannel => true
  | _ => false

theorem onPoller_synced {fd : Int} {ep : Epoller Unit} (h : ep.Synced fd) (e : Effect) :
    (e.onPoller fd ep).Synced fd := by
  cases e with
  | updateChannel events => exact Epoller.updateChannel_synced h events
  | removeChannel => exact Epoller.removeChannel_synced h
  | _ => exact h

theorem foldl_onPoller_synced {fd : Int} {ep : Epoller Unit} (h : ep.Synced fd) (es : List Effect) :
    (es.foldl (fun ep e => e.onPoller fd ep) ep).Synced fd := by
  induction es generalizing ep with
  | nil => exact h
  | cons e es ih => exact ih (onPoller_synced h e)

theorem foldl_onPoller_quiet {fd : Int} {ep : Epoller Unit} {es : List Effect}
    (h : es.any Effect.touchesPoller = false) :
    es.foldl (fun ep e => e.onPoller fd ep) ep = ep := by
  induction es generalizing ep with
  | nil => rfl
  | cons e es ih =>
    rw [List.any_cons, Bool.or_eq_false_iff] at h
    have he : e.onPoller fd ep = ep := by
      cases e with
      | updateChannel events => exact absurd h.1 (by simp [Effect.touchesPoller])
      | removeChannel => exact absurd h.1 (by simp [Effect.touchesPoller])
      | _ => rfl
    rw [List.foldl_cons, he]
    exact ih h.2

/-- Registered stays registered until `removeChannel`, and `updateChannel` registers. -/
theorem foldl_onPoller_registered {fd : Int} {ep : Epoller Unit} {es : List Effect}
    (h : ep.Synced fd) (hno : Effect.removeChannel ∉ es)
    (hup : (ep.kernel fd).isSome = true ∨ ∃ events, Effect.updateChannel events ∈ es) :
    ((es.foldl (fun ep e => e.onPoller fd ep) ep).kernel fd).isSome = true := by
  induction es generalizing ep with
  | nil =>
    rcases hup with hup | ⟨events, hmem⟩
    · exact hup
    · exact absurd hmem List.not_mem_nil
  | cons e es ih =>
    rw [List.mem_cons, not_or] at hno
    refine ih (onPoller_synced h e) hno.2 ?_
    cases e with
    | updateChannel events =>
      left
      simp only [Effect.onPoller]
      rw [Epoller.updateChannel_of_synced h]
      simp
    | removeChannel => exact absurd rfl hno.1
    | _ =>
      rcases hup with hup | ⟨events, hmem⟩
      · exact Or.inl hup
      · exact Or.inr ⟨events, by simpa using hmem⟩

/-! ## What the member functions ask of the poller -/

variable {c c' : TcpConnection} {t : ThreadId} {es : List Effect} {w : Int} {m : Memory}

theorem writeCompleteTasks_poller (c : TcpConnection) :
    c.writeCompleteTasks.any Effect.touchesPoller = false := by
  unfold writeCompleteTasks
  split <;> rfl

theorem directWrite_poller (c : TcpConnection) (msg : List Byte) (w : Int) :
    (c.directWrite msg w).any Effect.touchesPoller = false := by
  unfold directWrite
  split
  · split
    · rfl
    · rw [List.any_cons, writeCompleteTasks_poller]
      rfl
  · rfl

/-- The bytes an argument of `send` counts. -/
def SendArg.len : SendArg → Nat
  | .string msg => msg.length
  | .buffer buf => buf.readableBytes
  | .pointer _ len => len

/-- `sendInLoop` writes everything it is given. -/
def LeavesNothing (c : TcpConnection) (arg : SendArg) (w : Int) : Prop :=
  arg.len ≤ c.directlyWritten w

instance (c : TcpConnection) (arg : SendArg) (w : Int) : Decidable (c.LeavesNothing arg w) :=
  inferInstanceAs (Decidable (_ ≤ _))

theorem Memory.length_read (m : Memory) (addr len : Nat) : (m.read addr len).length = len := by
  simp [Memory.read]

theorem directBufferWrite_leftover {buf buf₁ : Buffer} {written : List Effect}
    (h : c.directBufferWrite buf w = .ok (buf₁, written))
    (hn : c.LeavesNothing (.buffer buf) w) : buf₁.readableBytes = 0 := by
  unfold LeavesNothing SendArg.len directlyWritten at hn
  unfold directBufferWrite at h
  split at h
  · rename_i hd
    rw [if_pos hd] at hn
    obtain ⟨offered, -, h⟩ := bind_ok_inv h
    split at h
    · simp only [pure, Except.pure, Except.ok.injEq, Prod.mk.injEq] at h
      obtain ⟨rfl, -⟩ := h
      rw [retrieve, if_pos hn]
      exact readableBytes_retrieveAll buf
    · rename_i hw
      simp only [pure, Except.pure, Except.ok.injEq, Prod.mk.injEq] at h
      obtain ⟨rfl, -⟩ := h
      rw [Int.toNat_of_nonpos (by omega)] at hn
      exact Nat.le_zero.mp hn
  · rename_i hd
    rw [if_neg hd] at hn
    simp only [Except.ok.injEq, Prod.mk.injEq] at h
    obtain ⟨rfl, -⟩ := h
    exact Nat.le_zero.mp hn

/-- A send that leaves nothing does not touch the connection, nor the poller. -/
theorem sendArgInLoop_leavesNothing {arg : SendArg} (hn : c.LeavesNothing arg w)
    (he : c.sendArgInLoop t m arg w = .ok (c', es)) :
    c' = c ∧ es.any Effect.touchesPoller = false := by
  have hmsg : ∀ msg : List Byte, msg.length ≤ c.directlyWritten w →
      c.sendInLoop t msg w = .ok (c', es) → c' = c ∧ es.any Effect.touchesPoller = false := by
    intro msg hle he
    obtain ⟨-, ⟨-, rfl, rfl⟩ | ⟨hlt, -⟩⟩ := sendInLoop_inv he
    · exact ⟨rfl, directWrite_poller _ _ _⟩
    · exact absurd hlt (Nat.not_lt.mpr hle)
  cases arg with
  | string msg => exact hmsg msg hn he
  | pointer addr len =>
    exact hmsg (m.read addr len) (by rw [Memory.length_read]; exact hn) he
  | buffer buf =>
    obtain ⟨buf', hbuf⟩ := sendArgInLoop_buffer_inv he
    obtain ⟨-, buf₁, written, hdir, hcase⟩ := sendBufferInLoop_inv hbuf
    have hz := directBufferWrite_leftover hdir hn
    rcases hcase with ⟨-, rfl, -, rfl⟩ | ⟨hpos, -⟩
    · refine ⟨rfl, ?_⟩
      rcases directBufferWrite_effects hdir with rfl | ⟨bytes, rfl⟩ <;> rfl
    · exact absurd hz (Nat.ne_of_gt hpos)

theorem raiseWriteInterest_updates (h : c.channel.isWriting = false) :
    ∃ events, Effect.updateChannel events ∈ c.raiseWriteInterest.2 := by
  unfold raiseWriteInterest
  rw [if_neg (by simp [h])]
  exact ⟨_, List.mem_singleton.mpr rfl⟩

theorem directBufferWrite_leaves {buf buf₁ : Buffer} {written : List Effect} (hb : Usable buf)
    (h : c.directBufferWrite buf w = .ok (buf₁, written))
    (hn : ¬ c.LeavesNothing (.buffer buf) w) : 0 < buf₁.readableBytes := by
  change ¬ buf.readableBytes ≤ c.directlyWritten w at hn
  unfold directlyWritten at hn
  unfold directBufferWrite at h
  split at h
  · rename_i hd
    rw [if_pos hd] at hn
    obtain ⟨offered, -, h⟩ := bind_ok_inv h
    split at h
    · simp only [pure, Except.pure, Except.ok.injEq, Prod.mk.injEq] at h
      obtain ⟨rfl, -⟩ := h
      rw [(retrieve_usable hb _).readableBytes_eq_length, readable_retrieve hb.toWf,
        List.length_drop, ← hb.readableBytes_eq_length]
      omega
    · simp only [pure, Except.pure, Except.ok.injEq, Prod.mk.injEq] at h
      obtain ⟨rfl, -⟩ := h
      omega
  · rename_i hd
    rw [if_neg hd] at hn
    simp only [Except.ok.injEq, Prod.mk.injEq] at h
    obtain ⟨rfl, -⟩ := h
    omega

/-- A `Buffer` argument is one the class can produce. -/
def SendArg.Usable : SendArg → Prop
  | .buffer buf => Buffer.Usable buf
  | _ => True

/-- A send that leaves something raises the write interest of a channel without it. -/
theorem sendArgInLoop_updates {arg : SendArg} (harg : arg.Usable)
    (hw : c.channel.isWriting = false) (hn : ¬ c.LeavesNothing arg w)
    (he : c.sendArgInLoop t m arg w = .ok (c', es)) :
    ∃ events, Effect.updateChannel events ∈ es := by
  have hmsg : ∀ msg : List Byte, ¬ msg.length ≤ c.directlyWritten w →
      c.sendInLoop t msg w = .ok (c', es) → ∃ events, Effect.updateChannel events ∈ es := by
    intro msg hnle he
    obtain ⟨-, ⟨hle, -⟩ | ⟨-, sb, -, -, rfl⟩⟩ := sendInLoop_inv he
    · exact absurd hle hnle
    · obtain ⟨events, hmem⟩ := raiseWriteInterest_updates (c := { c with sendBuffer := sb }) hw
      exact ⟨events, List.mem_append_left _ (List.mem_append_right _ hmem)⟩
  cases arg with
  | string msg => exact hmsg msg hn he
  | pointer addr len => exact hmsg (m.read addr len) (by rw [Memory.length_read]; exact hn) he
  | buffer buf =>
    obtain ⟨buf', hbuf⟩ := sendArgInLoop_buffer_inv he
    obtain ⟨-, buf₁, written, hdir, ⟨hz, -⟩ | ⟨-, sb, -, -, rfl⟩⟩ := sendBufferInLoop_inv hbuf
    · exact absurd hz (Nat.ne_of_gt (directBufferWrite_leaves harg hdir hn))
    · obtain ⟨events, hmem⟩ := raiseWriteInterest_updates (c := { c with sendBuffer := sb }) hw
      exact ⟨events, List.mem_append_right _ hmem⟩

namespace Sys

variable {s s' : Sys} {l : Label}

/-- `connectionDestroyed` has run: it alone asks for `removeChannel`. -/
def Destroyed (s : Sys) : Prop := Effect.removeChannel ∈ s.effects

instance (s : Sys) : Decidable (Destroyed s) := inferInstanceAs (Decidable (_ ∈ _))

/-- The condition on a step: a `sendInLoop` that runs after `connectionDestroyed` leaves nothing. -/
def KeepsOut (s : Sys) (l : Label) : Prop :=
  Destroyed s → ∀ p ∈ s.sends l, s.conn.LeavesNothing p.1 p.2

instance (s : Sys) (l : Label) : Decidable (s.KeepsOut l) :=
  match h : s.sends l with
  | none => isTrue fun _ p hp => absurd (h ▸ hp) (by simp)
  | some p => decidable_of_iff (Destroyed s → s.conn.LeavesNothing p.1 p.2)
      (by simp [KeepsOut, h])

/-- The poller's two tables agree on the descriptor, and once `connectionDestroyed` has run the
channel is in neither. -/
structure StaysOut (s : Sys) : Prop where
  synced : s.poller.Synced s.conn.channel.fd
  out : Destroyed s → s.registered = false ∧ s.conn.channel.events = .none ∧
    s.conn.state ≠ .connecting

theorem absorb_synced (h : s.poller.Synced s.conn.channel.fd) {c : TcpConnection}
    (hfd : c.channel.fd = s.conn.channel.fd) (es : List Effect) :
    (s.absorb c es).poller.Synced (s.absorb c es).conn.channel.fd := by
  have hc : s.poller.Synced c.channel.fd := by
    rw [hfd]
    exact h
  exact foldl_onPoller_synced hc es

/-- A call that does not ask for `removeChannel`, and touches neither the poller nor the interest
of a destroyed connection. -/
theorem StaysOut.absorb (h : StaysOut s) {c : TcpConnection} {es : List Effect}
    (hfd : c.channel.fd = s.conn.channel.fd) (hes : Effect.removeChannel ∉ es)
    (hq : Destroyed s → es.any Effect.touchesPoller = false ∧
      c.channel.events = s.conn.channel.events ∧ c.state ≠ .connecting) :
    StaysOut (s.absorb c es) := by
  refine ⟨absorb_synced h.synced hfd es, ?_⟩
  intro hd
  unfold Destroyed at hd
  rw [effects_absorb, List.mem_append] at hd
  have hd : Destroyed s := hd.resolve_right hes
  obtain ⟨hreg, hev, -⟩ := h.out hd
  obtain ⟨hquiet, hev', hst⟩ := hq hd
  refine ⟨?_, hev'.trans hev, hst⟩
  simp only [registered, Sys.absorb, foldl_onPoller_quiet hquiet, hfd]
  exact hreg

theorem StaysOut.destroyed (h : StaysOut s) {c : TcpConnection} {es : List Effect}
    (hr : s.conn.connectionDestroyed s.thread = .ok (c, es)) : StaysOut (s.absorb c es) := by
  obtain ⟨-, rfl, rfl⟩ := connectionDestroyed_inv hr
  refine ⟨absorb_synced h.synced rfl _, fun _ => ⟨?_, rfl, by simp [Sys.absorb]⟩⟩
  -- whatever the callback did, `removeChannel` is the last effect
  simp only [registered, Sys.absorb, List.foldl_append, List.foldl_cons, List.foldl_nil]
  have hsync := foldl_onPoller_synced h.synced
    (.updateChannel .none :: s.conn.connectionNotice false)
  exact congrArg Option.isSome (Epoller.removeChannel_kernel hsync)

/-- One step keeps the channel out. -/
theorem step_staysOut (h : StaysOut s) (hk : s.KeepsOut l) (he : s.step l = .ok s') :
    StaysOut s' := by
  by_cases hev : ∃ revents r w, l = .event revents r w
  · obtain ⟨revents, r, w, rfl⟩ := hev
    simp only [step] at he
    split at he
    · -- a registered channel has not been destroyed, and no handler destroys it
      rename_i hreg
      have hnot : ¬ Destroyed s := fun hd => by simp [(h.out hd).1] at hreg
      have hI := runHandlers_rule
        (I := fun s => s.poller.Synced s.conn.channel.fd ∧ ¬ Destroyed s) (fun hI hr => ?_)
        (s := { s with conn := { s.conn with channel := s.conn.channel.setReturnEvents revents } })
        ⟨h.synced, hnot⟩ he
      · exact ⟨hI.1, fun hd => absurd hd hI.2⟩
      · refine ⟨absorb_synced hI.1 (wiring_fd (runHandler_wiring hr)) _, ?_⟩
        unfold Destroyed
        rw [effects_absorb, List.mem_append, not_or]
        exact ⟨hI.2, not_mem_of_ordinary (runHandler_ordinary hr) rfl⟩
    · obtain rfl := Except.ok.inj he
      exact h
  · refine step_rule (I := StaysOut) ?_ ?_ h he
    · intro s s' h ht hp heff
      refine ⟨?_, ?_⟩
      · rw [hp, wiring_fd ht.wiring]
        exact h.synced
      · unfold Destroyed
        rw [heff]
        intro hd
        obtain ⟨hreg, hevs, hst⟩ := h.out hd
        refine ⟨?_, ht.events.trans hevs, ?_⟩
        · unfold registered
          rw [hp, wiring_fd ht.wiring]
          exact hreg
        · rcases ht.state with hs | hs <;> rw [hs]
          · exact hst
          · decide
    · intro s₁ c es h₁ hcall
      cases hcall with
      | connectionEstablished hr =>
        have hord := connectionEstablished_ordinary hr
        obtain ⟨-, hconn, rfl, -⟩ := connectionEstablished_inv hr
        exact h₁.absorb rfl (not_mem_of_ordinary hord rfl)
          (fun hd => absurd hconn (h₁.out hd).2.2)
      | connectionDestroyed hr => exact h₁.destroyed hr
      | sendInLoop hl hc hm heff hr =>
        obtain ⟨hwire, -, -⟩ := sendArgInLoop_wiring hr
        refine h₁.absorb (wiring_fd hwire) (not_mem_of_ordinary (sendArgInLoop_ordinary hr) rfl) ?_
        intro hd
        have hd₀ : Destroyed s := by
          unfold Destroyed
          rw [← heff]
          exact hd
        have hleft := hk hd₀ _ hl
        rw [← hc] at hleft
        obtain ⟨rfl, hquiet⟩ := sendArgInLoop_leavesNothing hleft hr
        exact ⟨hquiet, rfl, (h₁.out hd).2.2⟩
      | shutdownInLoop hr =>
        obtain ⟨-, ⟨-, rfl, rfl⟩ | ⟨-, -, rfl, rfl⟩ | ⟨-, -, rfl, rfl⟩⟩ := shutdownInLoop_inv hr
        · exact h₁.absorb rfl (by simp) (fun hd => ⟨rfl, rfl, (h₁.out hd).2.2⟩)
        · exact h₁.absorb rfl (by simp) (fun _ => ⟨rfl, rfl, by simp⟩)
        · exact h₁.absorb rfl (by simp) (fun _ => ⟨rfl, rfl, by simp⟩)
      | handler hl hr => exact absurd ⟨_, _, _, hl⟩ hev

theorem start_staysOut (u : Setup) (loop : LoopId) (name : String) (fd : Int) :
    StaysOut (start u loop name fd) :=
  ⟨rfl, fun hd => absurd hd List.not_mem_nil⟩

/-- **A destroyed connection stays deregistered.** In every run whose steps keep it out, once
`connectionDestroyed` has run the channel is in neither table of the poller. -/
theorem destroyed_stays_deregistered {u : Setup} {loop : LoopId} {name : String} {fd : Int}
    {labels : List Label} (hk : Along step KeepsOut (start u loop name fd) labels)
    (hr : run step (start u loop name fd) labels = .ok s) (hd : Destroyed s) :
    s.poller.kernel s.conn.channel.fd = none ∧ s.poller.channelMap s.conn.channel.fd = none := by
  have h : StaysOut s := run_invariant step_staysOut (start_staysOut u loop name fd) hk hr
  have hreg := (h.out hd).1
  have hmap := h.synced
  unfold Epoller.Synced at hmap
  unfold registered at hreg
  rw [hreg] at hmap
  exact ⟨by simpa using hreg, by simpa using hmap⟩

/-- **The condition is exact.** From a state with the channel out, a `sendInLoop` that leaves
something puts it back. -/
theorem reregistered_of_leftover (h : StaysOut s) (hd : Destroyed s) {arg : SendArg} {w : Int}
    (hl : s.sends l = some (arg, w)) (harg : arg.Usable) (hn : ¬ s.conn.LeavesNothing arg w)
    (he : s.step l = .ok s') : s'.registered = true := by
  have hw : s.conn.channel.isWriting = false := by
    unfold Channel.isWriting
    rw [(h.out hd).2.1]
    rfl
  -- whichever label calls it, the call is made in a state with this connection and this poller
  have hcall : ∀ s₁ : Sys, s₁.conn = s.conn → s₁.poller = s.poller →
      s₁.invoke (s₁.conn.sendArgInLoop s₁.thread s₁.memory arg w) = .ok s' →
      s'.registered = true := by
    intro s₁ hc hp hinv
    obtain ⟨c, es, hr, rfl⟩ := invoke_inv hinv
    have hup := sendArgInLoop_updates harg (by rw [hc]; exact hw) (by rw [hc]; exact hn) hr
    have hno := not_mem_of_ordinary (sendArgInLoop_ordinary hr) (e := .removeChannel) rfl
    have hsync : s₁.poller.Synced c.channel.fd := by
      rw [wiring_fd (sendArgInLoop_wiring hr).1, hc, hp]
      exact h.synced
    exact foldl_onPoller_registered hsync hno (Or.inr hup)
  cases l with
  | send arg' w' =>
    simp only [sends] at hl
    split at hl
    · rename_i hconn
      obtain ⟨rfl, rfl⟩ := Prod.mk.inj (Option.some.inj hl)
      simp only [step, if_pos hconn] at he
      have hst : s.conn.state = .connected := by simpa [connected] using hconn
      refine hcall (s.record (.sendCalled (s.argBytes arg'))) rfl rfl ?_
      rw [← he]
      congr 1
      have hin := inLoopThread (s.record (.sendCalled (s.argBytes arg')))
      unfold TcpConnection.send
      rw [if_pos (show (s.record (.sendCalled (s.argBytes arg'))).conn.state = .connected from hst),
        if_pos hin]
    · exact absurd hl (by simp)
  | sendInLoop arg' w' =>
    obtain ⟨rfl, rfl⟩ := Prod.mk.inj (Option.some.inj hl)
    exact hcall s rfl rfl he
  | runTask w' =>
    simp only [sends] at hl
    simp only [step] at he
    split at he
    · rename_i hq
      rw [hq] at hl
      exact absurd hl (by simp)
    · rename_i task rest hq
      rw [hq] at hl
      simp only [List.head?_cons, Option.bind_some] at hl
      cases task with
      | sendString msg =>
        obtain ⟨rfl, rfl⟩ := Prod.mk.inj (Option.some.inj hl)
        exact hcall (record { s with taskQueue := rest } (.ran (.sendString msg))) rfl rfl he
      | sendBuffer buf =>
        obtain ⟨rfl, rfl⟩ := Prod.mk.inj (Option.some.inj hl)
        exact hcall (record { s with taskQueue := rest } (.ran (.sendBuffer buf))) rfl rfl he
      | sendPointer addr len =>
        obtain ⟨rfl, rfl⟩ := Prod.mk.inj (Option.some.inj hl)
        exact hcall (record { s with taskQueue := rest } (.ran (.sendPointer addr len))) rfl rfl he
      | _ => exact absurd hl (by simp [Task.sends])
  | _ => exact absurd hl (by simp [sends])

/-- Another thread's `send` passes its test, the peer closes, the owner destroys the connection, and
only then is the task pushed. -/
def lateSend : List Label :=
  [.connectionEstablished, .sendCheck (.string [1]), .event .read (some []) 0, .queueDestroyed,
    .runTask 0, .advance 0]

/-- The late task writes its byte at once. -/
theorem destroyed_stays_deregistered_lateSend :
    ∃ s, run step (start plainSetup 0 "server#1" 5) (lateSend ++ [.runTask 1]) = .ok s ∧
      Destroyed s ∧ s.poller.kernel s.conn.channel.fd = none := by
  have hk : Along step KeepsOut (start plainSetup 0 "server#1" 5) (lateSend ++ [.runTask 1]) := by
    decide +kernel
  have hrun : ∃ s, run step (start plainSetup 0 "server#1" 5) (lateSend ++ [.runTask 1]) = .ok s ∧
      Destroyed s := by decide +kernel
  obtain ⟨s, hr, hd⟩ := hrun
  exact ⟨s, hr, hd, (destroyed_stays_deregistered hk hr hd).1⟩

/-- The late task finds the socket full: `write` fails, and the channel is registered again. -/
theorem destroyed_not_always_deregistered :
    ¬ ∀ (u : Setup) (loop : LoopId) (name : String) (fd : Int) (labels : List Label) (s : Sys),
      run step (start u loop name fd) labels = .ok s → Destroyed s → s.registered = false := by
  intro hall
  have hrun : ∃ s, run step (start plainSetup 0 "server#1" 5) (lateSend ++ [.runTask (-1)]) = .ok s ∧
      (Destroyed s ∧ s.registered = true) := by decide +kernel
  obtain ⟨s, hr, hd, hreg⟩ := hrun
  have hout := hall _ _ _ _ _ s hr hd
  rw [hreg] at hout
  exact absurd hout (by simp)

end Sys

end HyperMuduo.Net.TcpConnection
