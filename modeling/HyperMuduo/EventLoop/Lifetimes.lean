import HyperMuduo.EventLoop.Owners

/-!
# Registered channels are alive

When the owners on a loop keep its registry in order. `Registry.Live` says that every entry of
`channel_map_` is a channel that exists, on an open descriptor in the epoll set, and that a channel
that asked for events is in the set. Three kinds of steps break it, all by letting go of a channel
that is registered:

* `Acceptor` has no destructor of its own: a listening one leaves its entry behind, and a new channel
  on the same descriptor number is then modified instead of added, which fails;
* so does a connection that is destroyed before `connectionDestroyed`;
* a connector that starts an attempt, or resets `socket_` after `new_connection_callback_`, while
  another attempt is in progress closes the socket of that one.

**`registry_live_iff`**: the registry is live throughout a run exactly when there is no such step.
-/

namespace HyperMuduo.Net.Owners

open HyperMuduo.Lib
open Registry (Live Sound)
open Connector (Effect removal destroySocket attemptChannel invalidFd)

theorem acceptor_construct_inv {fd : Int} {bound : Bool} {a : Acceptor}
    (h : Acceptor.construct fd bound = .ok a) :
    fd ≠ invalidFd ∧ a = ⟨fd, (Channel.construct fd).setReadCallback .accept, false⟩ := by
  unfold Acceptor.construct at h
  split at h
  · exact absurd h (by simp)
  · rename_i hvalid
    split at h
    · exact ⟨hvalid, (Except.ok.inj h).symm⟩
    · exact absurd h (by simp)

theorem acceptor_listen_inv {a a' : Acceptor} {ok : Bool} (h : a.listen ok = .ok a') :
    a' = { a with isListening := true, acceptChannel := a.acceptChannel.listenTillReadable } := by
  unfold Acceptor.listen at h
  split at h
  · exact (Except.ok.inj h).symm
  · exact absurd h (by simp)

/-- No member function of a connection rewires it. -/
theorem ConnectionCall.wiring {c c' : TcpConnection} {es : List TcpConnection.Effect}
    {call : ConnectionCall} (h : call.run c = .ok (c', es)) : c'.wiring = c.wiring := by
  cases call with
  | connectionEstablished => exact (TcpConnection.connectionEstablished_plain h).wiring
  | connectionDestroyed =>
    obtain ⟨-, rfl, -⟩ := TcpConnection.connectionDestroyed_inv h
    rfl
  | send m arg w => exact (TcpConnection.send_plain h).wiring
  | sendInLoop m arg w => exact (TcpConnection.sendArgInLoop_plain h).wiring
  | shutdown => exact (TcpConnection.shutdown_plain h).wiring
  | shutdownInLoop => exact (TcpConnection.shutdownInLoop_plain h).wiring
  | handler x r w => exact TcpConnection.runHandler_wiring h

namespace Host

variable {s s' t : Host}

/-! ## Who has what -/

/-- The descriptor of a channel that exists. -/
def channelFd (s : Host) : Ptr → Option Int
  | .acceptor id => (s.acceptors id).map fun a => a.acceptChannel.fd
  | .connector id channel =>
    match s.connectors id with
    | none => none
    | some c =>
      match c.channel with
      | none => none
      | some (n, ch) => if n = channel then some ch.fd else none
  | .connection id => (s.connections id).map fun c => c.channel.fd

/-- The objects and the registry agree. -/
structure Kept (s : Host) : Prop where
  sound : s.registry.Sound
  chans : s.registry.chans = s.channelFd
  acceptor : ∀ id a, s.acceptors id = some a → id < s.created ∧
    a.acceptChannel.fd = a.acceptSocket ∧ s.registry.holder a.acceptSocket = some (.acceptor id)
  connection : ∀ id c, s.connections id = some c → id < s.created ∧
    c.channel.fd = c.socket.fd ∧ s.registry.holder c.socket.fd = some (.connection id)
  connector : ∀ id c, s.connectors id = some c → id < s.created
  socket : ∀ id c fd, s.connectors id = some c → c.socket = some fd →
    fd = invalidFd ∨ s.registry.holder fd = some (.connector id)
  attempt : ∀ id c n ch, s.connectors id = some c → c.channel = some (n, ch) →
    c.socket = some ch.fd ∧ ch.fd ≠ invalidFd ∧ n < c.channels ∧
      s.registry.listened (.connector id n) = true

theorem init_kept : Kept init where
  sound := Registry.empty_sound
  chans := by
    funext c
    cases c <;> rfl
  acceptor id a h := absurd h (by simp [init])
  connection id c h := absurd h (by simp [init])
  connector id c h := absurd h (by simp [init])
  socket id c fd h := absurd h (by simp [init])
  attempt id c n ch h := absurd h (by simp [init])

/-- The channel of a connector is that of its attempt. -/
theorem channelFd_connector {id n : Nat} {fd : Int} (h : s.channelFd (.connector id n) = some fd) :
    ∃ c ch, s.connectors id = some c ∧ c.channel = some (n, ch) ∧ ch.fd = fd := by
  simp only [channelFd] at h
  split at h
  · exact absurd h (by simp)
  · rename_i c hc
    split at h
    · exact absurd h (by simp)
    · rename_i m ch hch
      split at h
      · rename_i heq
        subst heq
        exact ⟨c, ch, hc, hch, Option.some.inj h⟩
      · exact absurd h (by simp)

theorem Kept.acceptor_chans (h : Kept s) {id : Nat} {a : Acceptor} (ha : s.acceptors id = some a) :
    s.registry.chans (.acceptor id) = some a.acceptSocket := by
  rw [h.chans, channelFd, ha, Option.map_some, (h.acceptor id a ha).2.1]

theorem Kept.connection_chans (h : Kept s) {id : Nat} {c : TcpConnection}
    (hc : s.connections id = some c) : s.registry.chans (.connection id) = some c.socket.fd := by
  rw [h.chans, channelFd, hc, Option.map_some, (h.connection id c hc).2.1]

theorem Kept.connector_chans (h : Kept s) {id n : Nat} {c : Connector} {ch : Channel Connector.Handler}
    (hc : s.connectors id = some c) (hch : c.channel = some (n, ch)) :
    s.registry.chans (.connector id n) = some ch.fd := by
  rw [h.chans, channelFd, hc]
  simp only [hch, if_true]

/-- The owner of a channel has its socket. -/
theorem Kept.holder_of_chans (h : Kept s) {c : Ptr} {fd : Int} (hc : s.registry.chans c = some fd) :
    s.registry.holder fd = some c.holder := by
  rw [h.chans] at hc
  cases c with
  | acceptor id =>
    obtain ⟨a, ha, rfl⟩ := Option.map_eq_some_iff.mp hc
    obtain ⟨-, heq, hold⟩ := h.acceptor id a ha
    rw [heq]
    exact hold
  | connector id n =>
    obtain ⟨c, ch, hcon, hch, rfl⟩ := channelFd_connector hc
    obtain ⟨hsocket, hvalid, -⟩ := h.attempt id c n ch hcon hch
    exact (h.socket id c ch.fd hcon hsocket).resolve_left hvalid
  | connection id =>
    obtain ⟨c, hconn, rfl⟩ := Option.map_eq_some_iff.mp hc
    obtain ⟨-, heq, hold⟩ := h.connection id c hconn
    rw [heq]
    exact hold

/-- Something happens to the registry that no object notices. -/
theorem Kept.registry (h : Kept s) {r : Registry Ptr Holder} (hsound : r.Sound)
    (hchans : r.chans = s.registry.chans)
    (hholder : ∀ fd k, s.registry.holder fd = some k → k ≠ .user → r.holder fd = some k)
    (hlistened : ∀ id n, s.registry.listened (.connector id n) = true →
      r.listened (.connector id n) = true) : Kept { s with registry := r } where
  sound := hsound
  chans := hchans.trans h.chans
  acceptor id a ha := by
    obtain ⟨hlt, heq, hold⟩ := h.acceptor id a ha
    exact ⟨hlt, heq, hholder _ _ hold (by simp)⟩
  connection id c hc := by
    obtain ⟨hlt, heq, hold⟩ := h.connection id c hc
    exact ⟨hlt, heq, hholder _ _ hold (by simp)⟩
  connector := h.connector
  socket id c fd hc hs := (h.socket id c fd hc hs).imp_right fun hold => hholder _ _ hold (by simp)
  attempt id c n ch hc hch := by
    obtain ⟨hs, hvalid, hlt, hl⟩ := h.attempt id c n ch hc hch
    exact ⟨hs, hvalid, hlt, hlistened id n hl⟩

theorem possible_fresh {fd : Int} (h : s.possible fd = true) (hvalid : fd ≠ invalidFd) :
    s.registry.holder fd = none := by
  simp only [possible, Bool.or_eq_true, decide_eq_true_eq, Bool.and_eq_true, Option.isNone_iff_eq_none]
    at h
  exact (h.resolve_left hvalid).2

/-- A descriptor is opened. -/
theorem Kept.opened (h : Kept s) {fd : Int} (hfresh : s.registry.holder fd = none) (k : Holder) :
    Kept (s.perform [.openSocket fd k]) := by
  refine h.registry (h.sound.hold fd k) rfl (fun fd' k' hk' _ => ?_) (fun _ _ hl => hl)
  have hne : fd' ≠ fd := by
    rintro rfl
    rw [hfresh] at hk'
    exact absurd hk' (by simp)
  exact (Function.update_of_ne hne _ _).trans hk'

/-- Something happens to a descriptor that no object uses. -/
theorem Kept.unused (h : Kept s) {r : Registry Ptr Holder} {fd : Int} (hsound : r.Sound)
    (hchans : r.chans = s.registry.chans)
    (hholder : ∀ fd', fd' ≠ fd → r.holder fd' = s.registry.holder fd')
    (hlistened : r.listened = s.registry.listened) (hnone : ∀ c, s.registry.chans c ≠ some fd)
    (hsocket : ∀ id c, s.connectors id = some c → c.socket = some fd → fd = invalidFd) :
    Kept { s with registry := r } where
  sound := hsound
  chans := hchans.trans h.chans
  acceptor id a ha := by
    obtain ⟨hlt, heq, hold⟩ := h.acceptor id a ha
    have hne : a.acceptSocket ≠ fd := by
      rintro rfl
      exact hnone (.acceptor id) (h.acceptor_chans ha)
    exact ⟨hlt, heq, (hholder _ hne).trans hold⟩
  connection id c hc := by
    obtain ⟨hlt, heq, hold⟩ := h.connection id c hc
    have hne : c.socket.fd ≠ fd := by
      rintro rfl
      exact hnone (.connection id) (h.connection_chans hc)
    exact ⟨hlt, heq, (hholder _ hne).trans hold⟩
  connector := h.connector
  socket id c fd' hc hs := by
    by_cases hne : fd' = fd
    · subst hne
      exact Or.inl (hsocket id c hc hs)
    · exact (h.socket id c fd' hc hs).imp_right (hholder fd' hne).trans
  attempt id c n ch hc hch := by
    obtain ⟨hs, hvalid, hlt, hl⟩ := h.attempt id c n ch hc hch
    exact ⟨hs, hvalid, hlt, by rw [hlistened]; exact hl⟩

/-- A descriptor is closed that no object uses. -/
theorem Kept.closed (h : Kept s) {fd : Int} (hnone : ∀ c, s.registry.chans c ≠ some fd)
    (hsocket : ∀ id c, s.connectors id = some c → c.socket = some fd → fd = invalidFd) :
    Kept (s.perform [.closeSocket fd]) :=
  h.unused (h.sound.close hnone) rfl (fun _ hne => Function.update_of_ne hne _ _) rfl hnone hsocket

/-! ## Acceptors and connections -/

theorem channelFd_setAcceptor (s : Host) (id : Nat) (a : Option Acceptor) :
    (s.setAcceptor id a).channelFd =
      Function.update s.channelFd (.acceptor id) (a.map fun a => a.acceptChannel.fd) := by
  funext c
  cases c with
  | acceptor i =>
    by_cases hi : i = id
    · subst hi
      simp [channelFd, setAcceptor]
    · rw [Function.update_of_ne (by simpa using hi)]
      simp [channelFd, setAcceptor, Function.update_of_ne hi]
  | connector i n =>
    rw [Function.update_of_ne (by simp)]
    rfl
  | connection i =>
    rw [Function.update_of_ne (by simp)]
    rfl

theorem channelFd_setConnection (s : Host) (id : Nat) (c : Option TcpConnection) :
    (s.setConnection id c).channelFd =
      Function.update s.channelFd (.connection id) (c.map fun c => c.channel.fd) := by
  funext p
  cases p with
  | acceptor i =>
    rw [Function.update_of_ne (by simp)]
    rfl
  | connector i n =>
    rw [Function.update_of_ne (by simp)]
    rfl
  | connection i =>
    by_cases hi : i = id
    · subst hi
      simp [channelFd, setConnection]
    · rw [Function.update_of_ne (by simpa using hi)]
      simp [channelFd, setConnection, Function.update_of_ne hi]

/-- No channel is on a descriptor whose socket somebody else has. -/
theorem Kept.no_channel (h : Kept s) {fd : Int} {k : Holder} (hold : s.registry.holder fd = some k)
    (hk : ∀ c : Ptr, c.holder = k → s.registry.chans c = none) : ∀ c, s.registry.chans c ≠ some fd := by
  intro c hc
  have hholder := h.holder_of_chans hc
  rw [hold] at hholder
  rw [hk c (Option.some.inj hholder).symm] at hc
  exact absurd hc (by simp)

/-- Nobody but connector `id` has a socket that is its. -/
theorem Kept.no_socket (h : Kept s) {fd : Int} {k : Holder} (hold : s.registry.holder fd = some k)
    (hk : ∀ id, k ≠ .connector id) (id : Nat) (c : Connector) (hc : s.connectors id = some c)
    (hs : c.socket = some fd) : fd = invalidFd := by
  refine (h.socket id c fd hc hs).resolve_right fun hholder => ?_
  rw [hold] at hholder
  exact hk id (Option.some.inj hholder)

/-- An acceptor and a connection have one channel. -/
theorem Ptr.eq_of_holder {p q : Ptr} (hp : ∀ id n, p ≠ .connector id n) (h : q.holder = p.holder) :
    q = p := by
  cases p with
  | connector id n => exact absurd rfl (hp id n)
  | acceptor id | connection id => cases q <;> simp_all [Ptr.holder]

/-- No channel is on a descriptor whose owner has no channel. -/
theorem Kept.no_channel_at (h : Kept s) {p : Ptr} {fd : Int} (hp : ∀ id n, p ≠ .connector id n)
    (hold : s.registry.holder fd = some p.holder) (hnone : s.registry.chans p = none) :
    ∀ c, s.registry.chans c ≠ some fd := by
  refine h.no_channel hold fun c hc => ?_
  rw [Ptr.eq_of_holder hp hc]
  exact hnone

/-- The attempts do not notice another owner's new channel. -/
theorem Kept.attempt_construct (h : Kept s) {p : Ptr} (hp : ∀ id n, p ≠ .connector id n) (id : Nat)
    (c : Connector) (n : Nat) (ch : Channel Connector.Handler) (hc : s.connectors id = some c)
    (hch : c.channel = some (n, ch)) : c.socket = some ch.fd ∧ ch.fd ≠ invalidFd ∧ n < c.channels ∧
      Function.update s.registry.listened p false (.connector id n) = true := by
  obtain ⟨hs, hvalid, hlt, hl⟩ := h.attempt id c n ch hc hch
  refine ⟨hs, hvalid, hlt, ?_⟩
  rw [Function.update_of_ne (hp id n).symm]
  exact hl

theorem Kept.created (h : Kept s) : Kept { s with created := s.created + 1 } where
  sound := h.sound
  chans := h.chans
  acceptor id a ha := ⟨Nat.lt_succ_of_lt (h.acceptor id a ha).1, (h.acceptor id a ha).2⟩
  connection id c hc := ⟨Nat.lt_succ_of_lt (h.connection id c hc).1, (h.connection id c hc).2⟩
  connector id c hc := Nat.lt_succ_of_lt (h.connector id c hc)
  socket := h.socket
  attempt := h.attempt

/-- An acceptor is made on a descriptor opened for it. -/
theorem Kept.addAcceptor (h : Kept s) {a : Acceptor} (hfd : a.acceptChannel.fd = a.acceptSocket)
    (hold : s.registry.holder a.acceptSocket = some (.acceptor s.created)) :
    Kept (({ s with created := s.created + 1 }.setAcceptor s.created (some a)).perform
      [.construct (.acceptor s.created) a.acceptSocket]) := by
  have hnone : s.registry.chans (.acceptor s.created) = none := by
    rw [h.chans, channelFd]
    cases ha : s.acceptors s.created with
    | none => rfl
    | some a => exact absurd (h.acceptor _ a ha).1 (Nat.lt_irrefl _)
  have hfree := h.no_channel_at (p := .acceptor s.created) (by simp) hold hnone
  have h₁ := h.created
  refine ⟨h.sound.construct hnone (by rw [hold]; rfl) hfree, ?_, ?_, h₁.connection, h₁.connector,
    h.socket, h.attempt_construct (p := .acceptor s.created) (by simp)⟩
  · change Function.update s.registry.chans _ _ = _
    rw [h.chans]
    refine Eq.trans ?_ (channelFd_setAcceptor { s with created := s.created + 1 } _ _).symm
    rw [Option.map_some, hfd]
    rfl
  · intro id b hb
    rcases update_some_inv hb with ⟨rfl, rfl⟩ | ⟨-, hb'⟩
    · exact ⟨Nat.lt_succ_self _, hfd, hold⟩
    · exact h₁.acceptor id b hb'

/-- A connection is made of a socket that is its. -/
theorem Kept.addConnection (h : Kept s) {c : TcpConnection} (hfd : c.channel.fd = c.socket.fd)
    (hold : s.registry.holder c.socket.fd = some (.connection s.created)) :
    Kept (({ s with created := s.created + 1 }.setConnection s.created (some c)).perform
      [.construct (.connection s.created) c.socket.fd]) := by
  have hnone : s.registry.chans (.connection s.created) = none := by
    rw [h.chans, channelFd]
    cases hc : s.connections s.created with
    | none => rfl
    | some c => exact absurd (h.connection _ c hc).1 (Nat.lt_irrefl _)
  have hfree := h.no_channel_at (p := .connection s.created) (by simp) hold hnone
  have h₁ := h.created
  refine ⟨h.sound.construct hnone (by rw [hold]; rfl) hfree, ?_, h₁.acceptor, ?_, h₁.connector,
    h.socket, h.attempt_construct (p := .connection s.created) (by simp)⟩
  · change Function.update s.registry.chans _ _ = _
    rw [h.chans]
    refine Eq.trans ?_ (channelFd_setConnection { s with created := s.created + 1 } _ _).symm
    rw [Option.map_some, hfd]
    rfl
  · intro id d hd
    rcases update_some_inv hd with ⟨rfl, rfl⟩ | ⟨-, hd'⟩
    · exact ⟨Nat.lt_succ_self _, hfd, hold⟩
    · exact h₁.connection id d hd'

/-- A connection is made of a socket that a user has. -/
theorem Kept.newConnection (h : Kept s) {fd : Int} (huser : s.registry.holder fd = some .user)
    (u : TcpConnection.Setup) :
    Kept (({ s with created := s.created + 1 }.setConnection s.created
      (some (u.apply (TcpConnection.construct 0 "" fd)))).perform
        [.handOver fd (.connection s.created), .construct (.connection s.created) fd]) := by
  have hmoved := h.registry (h.sound.hold fd (.connection s.created)) rfl
    (fun fd' k hk hne => ?_) (fun _ _ hl => hl)
  · exact hmoved.addConnection (c := u.apply (TcpConnection.construct 0 "" fd)) rfl
      (Function.update_self ..)
  · have hfd : fd' ≠ fd := by
      rintro rfl
      exact hne (Option.some.inj (hk.symm.trans huser))
    exact (Function.update_of_ne hfd _ _).trans hk

/-- A user closes a socket. -/
theorem Kept.dropSocket (h : Kept s) {fd : Int} (huser : s.registry.holder fd = some .user) :
    Kept (s.perform [.closeSocket fd]) := by
  refine h.closed (h.no_channel huser fun c hc => ?_) (h.no_socket huser (by simp))
  cases c <;> exact absurd hc (by simp [Ptr.holder])

/-- An acceptor changes and keeps its descriptor. -/
theorem Kept.setAcceptor (h : Kept s) {id : Nat} {a a' : Acceptor} (ha : s.acceptors id = some a)
    (hsocket : a'.acceptSocket = a.acceptSocket) (hfd : a'.acceptChannel.fd = a.acceptChannel.fd) :
    Kept (s.setAcceptor id (some a')) := by
  obtain ⟨hlt, heq, hold⟩ := h.acceptor id a ha
  refine ⟨h.sound, ?_, fun i b hb => ?_, h.connection, h.connector, h.socket, h.attempt⟩
  · rw [channelFd_setAcceptor]
    refine Eq.trans h.chans (Function.update_eq_self_iff.mpr ?_).symm
    simp [channelFd, ha, hfd]
  · rcases update_some_inv hb with ⟨rfl, rfl⟩ | ⟨-, hb'⟩
    · exact ⟨hlt, hfd.trans (heq.trans hsocket.symm), by rw [hsocket]; exact hold⟩
    · exact h.acceptor i b hb'

/-- A connection changes and keeps its descriptor. -/
theorem Kept.setConnection (h : Kept s) {id : Nat} {c c' : TcpConnection}
    (hc : s.connections id = some c) (hw : c'.wiring = c.wiring) :
    Kept (s.setConnection id (some c')) := by
  obtain ⟨hlt, heq, hold⟩ := h.connection id c hc
  have hfd := TcpConnection.wiring_fd hw
  have hsocket := TcpConnection.wiring_socketFd hw
  refine ⟨h.sound, ?_, h.acceptor, fun i d hd => ?_, h.connector, h.socket, h.attempt⟩
  · rw [channelFd_setConnection]
    refine Eq.trans h.chans (Function.update_eq_self_iff.mpr ?_).symm
    simp [channelFd, hc, hfd]
  · rcases update_some_inv hd with ⟨rfl, rfl⟩ | ⟨-, hd'⟩
    · exact ⟨hlt, hfd.trans (heq.trans hsocket.symm), by rw [hsocket]; exact hold⟩
    · exact h.connection i d hd'

/-- An acceptor is destroyed that is not registered. -/
theorem Kept.destroyAcceptor (h : Kept s) {id : Nat} {a : Acceptor} (ha : s.acceptors id = some a)
    (hout : s.registry.poller.channelMap a.acceptSocket ≠ some (.acceptor id)) :
    Kept ((s.setAcceptor id none).perform [.destroy (.acceptor id), .closeSocket a.acceptSocket]) := by
  have hchan := h.acceptor_chans ha
  obtain ⟨-, -, hold⟩ := h.acceptor id a ha
  have hdestroyed : Kept ((s.setAcceptor id none).perform [.destroy (.acceptor id)]) := by
    refine ⟨h.sound.destroy fun fd hfd => ?_, ?_, fun i b hb => ?_, h.connection, h.connector,
      h.socket, h.attempt⟩
    · obtain rfl := Option.some.inj (hchan.symm.trans hfd)
      exact hout
    · change Function.update s.registry.chans _ _ = _
      rw [h.chans]
      exact (channelFd_setAcceptor s id none).symm
    · exact h.acceptor i b (update_none_inv hb).2
  have hfree := hdestroyed.no_channel_at (p := .acceptor id) (by simp) hold (Function.update_self ..)
  exact hdestroyed.closed hfree (hdestroyed.no_socket hold (by simp))

/-- A connection is destroyed that is not registered. -/
theorem Kept.destroyConnection (h : Kept s) {id : Nat} {c : TcpConnection}
    (hc : s.connections id = some c)
    (hout : s.registry.poller.channelMap c.socket.fd ≠ some (.connection id)) :
    Kept ((s.setConnection id none).perform [.destroy (.connection id), .closeSocket c.socket.fd]) := by
  have hchan := h.connection_chans hc
  obtain ⟨-, -, hold⟩ := h.connection id c hc
  have hdestroyed : Kept ((s.setConnection id none).perform [.destroy (.connection id)]) := by
    refine ⟨h.sound.destroy fun fd hfd => ?_, ?_, h.acceptor, fun i d hd => ?_, h.connector,
      h.socket, h.attempt⟩
    · obtain rfl := Option.some.inj (hchan.symm.trans hfd)
      exact hout
    · change Function.update s.registry.chans _ _ = _
      rw [h.chans]
      exact (channelFd_setConnection s id none).symm
    · exact h.connection i d (update_none_inv hd).2
  have hfree := hdestroyed.no_channel_at (p := .connection id) (by simp) hold (Function.update_self ..)
  exact hdestroyed.closed hfree (hdestroyed.no_socket hold (by simp))

/-- The channel of an acceptor or of a connection updates its interest or is removed. -/
theorem Kept.onChannel (h : Kept s) {c : Ptr} (hc : ∀ id n, c ≠ .connector id n)
    {op : Registry.Op Ptr Holder} (hop : (∃ events, op = .updateChannel c events) ∨ op = .removeChannel c) :
    Kept (s.perform [op]) := by
  have hne : ∀ id n, Ptr.connector id n ≠ c := fun id n heq => hc id n heq.symm
  rcases hop with ⟨events, rfl⟩ | rfl
  · refine h.registry (h.sound.update c events) ?_ ?_ ?_ <;> cases hch : s.registry.chans c <;>
      simp_all [Registry.steps, Registry.step]
  · refine h.registry (h.sound.remove c) ?_ ?_ ?_ <;> cases hch : s.registry.chans c <;>
      simp_all [Registry.steps, Registry.step]

theorem perform_append (s : Host) (ops ops' : List (Registry.Op Ptr Holder)) :
    s.perform (ops ++ ops') = (s.perform ops).perform ops' := by
  simp only [perform, Registry.steps_append]

/-- What a member function of a connection asks of the poller. -/
theorem Kept.ofConnection {id : Nat} {es : List TcpConnection.Effect} (h : Kept s) :
    Kept (s.perform (es.flatMap (ofConnection id))) := by
  induction es generalizing s with
  | nil => exact h
  | cons e es ih =>
    cases e with
    | updateChannel events => exact ih (h.onChannel (by simp) (Or.inl ⟨events, rfl⟩))
    | removeChannel => exact ih (h.onChannel (by simp) (Or.inr rfl))
    | _ => exact ih h

/-! ## Connectors -/

theorem setConnector_perform (s : Host) (id : Nat) (c : Option Connector)
    (ops : List (Registry.Op Ptr Holder)) :
    (s.perform ops).setConnector id c = (s.setConnector id c).perform ops := rfl

theorem setConnector_setConnector (s : Host) (id : Nat) (c c' : Option Connector) :
    (s.setConnector id c).setConnector id c' = s.setConnector id c' := by
  simp only [setConnector, Function.update_idem]

theorem channelFd_setConnector_of_ne (s : Host) {id : Nat} (c : Option Connector) {p : Ptr}
    (hp : ∀ n, p ≠ .connector id n) : (s.setConnector id c).channelFd p = s.channelFd p := by
  cases p with
  | connector i n =>
    have hi : i ≠ id := by
      rintro rfl
      exact hp n rfl
    simp [channelFd, setConnector, Function.update_of_ne hi]
  | acceptor | connection => rfl

theorem channelFd_setConnector_none (s : Host) {id : Nat} {c : Connector} (hc : c.channel = none)
    (n : Nat) : (s.setConnector id (some c)).channelFd (.connector id n) = none := by
  simp [channelFd, setConnector, hc]

theorem channelFd_setConnector_some (s : Host) {id n : Nat} {c : Connector}
    {ch : Channel Connector.Handler} (hc : c.channel = some (n, ch)) (m : Nat) :
    (s.setConnector id (some c)).channelFd (.connector id m) = if n = m then some ch.fd else none := by
  simp [channelFd, setConnector, hc]

/-- A connector changes, with its channels and nothing else in the registry. -/
theorem Kept.setConnector (h : Kept s) {id : Nat} {c : Connector} {r : Registry Ptr Holder}
    (hid : id < s.created) (hsound : r.Sound)
    (hchans : r.chans = (s.setConnector id (some c)).channelFd)
    (hholder : r.holder = s.registry.holder)
    (hlistened : ∀ i n, i ≠ id → r.listened (.connector i n) = s.registry.listened (.connector i n))
    (hsocket : ∀ fd, c.socket = some fd → fd = invalidFd ∨ s.registry.holder fd = some (.connector id))
    (hattempt : ∀ n ch, c.channel = some (n, ch) → c.socket = some ch.fd ∧ ch.fd ≠ invalidFd ∧
      n < c.channels ∧ r.listened (.connector id n) = true) :
    Kept { s.setConnector id (some c) with registry := r } where
  sound := hsound
  chans := hchans
  acceptor i a ha := by
    simp only [hholder]
    exact h.acceptor i a ha
  connection i d hd := by
    simp only [hholder]
    exact h.connection i d hd
  connector i d hd := by
    rcases update_some_inv hd with ⟨rfl, rfl⟩ | ⟨-, hd'⟩
    · exact hid
    · exact h.connector i d hd'
  socket i d fd hd hs := by
    simp only [hholder]
    rcases update_some_inv hd with ⟨rfl, rfl⟩ | ⟨-, hd'⟩
    · exact hsocket fd hs
    · exact h.socket i d fd hd' hs
  attempt i d n ch hd hch := by
    rcases update_some_inv hd with ⟨rfl, rfl⟩ | ⟨hne, hd'⟩
    · exact hattempt n ch hch
    · obtain ⟨hs, hvalid, hlt, hl⟩ := h.attempt i d n ch hd' hch
      exact ⟨hs, hvalid, hlt, (hlistened i n hne).trans hl⟩

/-- A connector without an attempt has no channel. -/
theorem Kept.idle_chans (h : Kept s) {id : Nat} {c : Connector} (hc : s.connectors id = some c)
    (hnone : c.channel = none) (n : Nat) : s.registry.chans (.connector id n) = none := by
  rw [h.chans, channelFd, hc]
  simp only [hnone]

/-- Neither the attempt nor the socket changes. -/
theorem Kept.sameAttempt (h : Kept s) {id : Nat} {c d : Connector} (hc : s.connectors id = some c)
    (hchannel : d.channel = c.channel) (hsocket : d.socket = c.socket)
    (hchannels : d.channels = c.channels) : Kept (s.setConnector id (some d)) := by
  refine h.setConnector (h.connector id c hc) h.sound ?_ rfl (fun _ _ _ => rfl) ?_ ?_
  · rw [h.chans]
    funext p
    by_cases hp : ∃ n, p = .connector id n
    · obtain ⟨n, rfl⟩ := hp
      simp [channelFd, Host.setConnector, hc, hchannel]
    · exact (channelFd_setConnector_of_ne s _ fun n hn => hp ⟨n, hn⟩).symm
  · rw [hsocket]
    exact fun fd hfd => h.socket id c fd hc hfd
  · rw [hchannel, hsocket, hchannels]
    exact fun n ch hch => h.attempt id c n ch hc hch

/-- `resetChannel`. -/
theorem Kept.resetChannel (h : Kept s) {id : Nat} {c : Connector} (hc : s.connectors id = some c) :
    Kept ((s.setConnector id (some { c with channel := none })).perform
      ((removal c.channel).flatMap (ofConnector id c.channels))) := by
  cases hch : c.channel with
  | none =>
    have heq : { c with channel := none } = c := by rw [← hch]
    rw [heq]
    exact h.sameAttempt hc rfl rfl rfl
  | some x =>
    obtain ⟨n, ch⟩ := x
    obtain ⟨hs, hvalid, hlt, hl⟩ := h.attempt id c n ch hc hch
    have hchan := h.connector_chans hc hch
    obtain ⟨r, hr, hsound, hchans, hholder, hlistened⟩ := h.sound.release hchan
    have hops : (removal (some (n, ch))).flatMap (ofConnector id c.channels) =
        [.updateChannel (.connector id n) .none, .removeChannel (.connector id n),
          .destroy (.connector id n)] := by
      simp [removal, ofConnector, Nat.not_le.mpr hlt]
    rw [hops]
    change Kept { s.setConnector id _ with registry := s.registry.steps _ }
    rw [hr]
    refine h.setConnector (h.connector id c hc) hsound ?_ hholder ?_ ?_ ?_
    · rw [hchans, h.chans]
      funext p
      by_cases hp : ∃ m, p = .connector id m
      · obtain ⟨m, rfl⟩ := hp
        rw [channelFd_setConnector_none s rfl]
        by_cases hm : m = n
        · subst hm
          exact Function.update_self ..
        · rw [Function.update_of_ne (by simpa using hm)]
          simp [channelFd, hc, hch, Ne.symm hm]
      · rw [Function.update_of_ne fun heq => hp ⟨n, heq⟩]
        exact (channelFd_setConnector_of_ne s _ fun n hn => hp ⟨n, hn⟩).symm
    · intro i m hi
      exact hlistened _ (by simp [hi])
    · exact fun fd hfd => h.socket id c fd hc hfd
    · exact fun m ch' hch' => absurd hch' (by simp)

/-- No object uses a descriptor of a connector that it does not use itself. -/
theorem Kept.own_unused (h : Kept s) {id : Nat} {c : Connector} {fd : Int}
    (hc : s.connectors id = some c) (hnone : c.channel = none) (hsocket : c.socket ≠ some fd)
    (hold : s.registry.holder fd = some (.connector id)) :
    (∀ p, s.registry.chans p ≠ some fd) ∧
      ∀ i d, s.connectors i = some d → d.socket = some fd → fd = invalidFd := by
  refine ⟨h.no_channel hold fun p hp => ?_, fun i d hd hs => ?_⟩
  · cases p with
    | connector i n =>
      obtain rfl := Holder.connector.inj hp
      exact h.idle_chans hc hnone n
    | acceptor | connection => exact absurd hp (by simp [Ptr.holder])
  · refine (h.socket i d fd hd hs).resolve_right fun hholder => ?_
    rw [hold] at hholder
    obtain rfl := Holder.connector.inj (Option.some.inj hholder)
    obtain rfl := Option.some.inj (hc.symm.trans hd)
    exact hsocket hs

theorem Kept.closeOwn (h : Kept s) {id : Nat} {c : Connector} {fd : Int} (hc : s.connectors id = some c)
    (hnone : c.channel = none) (hsocket : c.socket ≠ some fd)
    (hold : s.registry.holder fd = some (.connector id)) : Kept (s.perform [.closeSocket fd]) := by
  obtain ⟨hchans, hsockets⟩ := h.own_unused hc hnone hsocket hold
  exact h.closed hchans hsockets

/-- The socket is handed to the callback. -/
theorem Kept.handOver (h : Kept s) {id : Nat} {c : Connector} {fd : Int} (hc : s.connectors id = some c)
    (hnone : c.channel = none) (hsocket : c.socket ≠ some fd)
    (hold : s.registry.holder fd = some (.connector id)) : Kept (s.perform [.handOver fd .user]) := by
  obtain ⟨hchans, hsockets⟩ := h.own_unused hc hnone hsocket hold
  exact h.unused (h.sound.hold fd .user) rfl (fun _ hne => Function.update_of_ne hne _ _) rfl hchans
    hsockets

/-- The connector gives up its socket, with no attempt in progress. -/
theorem Kept.forgetSocket (h : Kept s) {id : Nat} {c d : Connector} (hc : s.connectors id = some c)
    (hnone : c.channel = none) (hnone' : d.channel = none)
    (hsocket : ∀ fd, d.socket = some fd → fd = invalidFd) : Kept (s.setConnector id (some d)) := by
  refine h.setConnector (h.connector id c hc) h.sound ?_ rfl (fun _ _ _ => rfl) ?_ ?_
  · rw [h.chans]
    funext p
    by_cases hp : ∃ n, p = .connector id n
    · obtain ⟨n, rfl⟩ := hp
      simp [channelFd, Host.setConnector, hc, hnone, hnone']
    · exact (channelFd_setConnector_of_ne s _ fun n hn => hp ⟨n, hn⟩).symm
  · exact fun fd hfd => Or.inl (hsocket fd hfd)
  · exact fun n ch hch => absurd (hnone'.symm.trans hch) (by simp)

/-- `socket_.reset()`, with no attempt in progress. -/
theorem Kept.resetSocket (h : Kept s) {id : Nat} {c : Connector} (hc : s.connectors id = some c)
    (hnone : c.channel = none) (made : Nat) :
    Kept ((s.setConnector id (some { c with socket := none })).perform
      ((destroySocket c.socket).flatMap (ofConnector id made))) := by
  have hset : Kept (s.setConnector id (some { c with socket := none })) :=
    h.forgetSocket hc hnone hnone (by simp)
  cases hs : c.socket with
  | none => exact hset
  | some fd =>
    by_cases hvalid : fd = invalidFd
    · simp only [destroySocket, hvalid, if_true]
      exact hset
    · rw [Connector.destroySocket_valid hvalid]
      have hold := (h.socket id c fd hc hs).resolve_left hvalid
      exact hset.closeOwn (Function.update_self ..) hnone (by simp) hold

/-- `resetChannel` and `socket_.reset()`. -/
theorem Kept.letGo (h : Kept s) {id : Nat} {c : Connector} (hc : s.connectors id = some c) :
    Kept ((s.setConnector id (some { c with channel := none, socket := none })).perform
      ((removal c.channel ++ destroySocket c.socket).flatMap (ofConnector id c.channels))) := by
  have hremoved := h.resetChannel hc
  have hreset := hremoved.resetSocket (Function.update_self ..) rfl c.channels
  rw [setConnector_perform, setConnector_setConnector, ← perform_append, ← List.flatMap_append] at hreset
  exact hreset

/-- A new attempt is made on a socket that is the connector's. -/
theorem Kept.connecting (h : Kept s) {id : Nat} {c d : Connector} {fd : Int}
    (hc : s.connectors id = some c) (hnone : c.channel = none) (hvalid : fd ≠ invalidFd)
    (hold : s.registry.holder fd = some (.connector id)) (hother : c.socket ≠ some fd)
    (hchannel : d.channel = some (c.channels, attemptChannel fd)) (hsocket : d.socket = some fd)
    (hchannels : d.channels = c.channels + 1) :
    Kept ((s.setConnector id (some d)).perform
      [.construct (.connector id c.channels) fd,
        .updateChannel (.connector id c.channels) (attemptChannel fd).events]) := by
  obtain ⟨hfree, -⟩ := h.own_unused hc hnone hother hold
  obtain ⟨r, hr, hsound, hchans, hholder, hlistened, hothers⟩ :=
    h.sound.register (h.idle_chans hc hnone c.channels) (by rw [hold]; rfl) hfree
      (attemptChannel fd).events
  change Kept { s.setConnector id _ with registry := s.registry.steps _ }
  rw [hr]
  refine h.setConnector (h.connector id c hc) hsound ?_ hholder ?_ ?_ ?_
  · rw [hchans, h.chans]
    funext p
    by_cases hp : ∃ m, p = .connector id m
    · obtain ⟨m, rfl⟩ := hp
      rw [channelFd_setConnector_some s hchannel]
      by_cases hm : c.channels = m
      · subst hm
        rw [Function.update_self, if_pos rfl]
        rfl
      · rw [Function.update_of_ne (by simpa using Ne.symm hm), if_neg hm]
        simp [channelFd, hc, hnone]
    · rw [Function.update_of_ne fun heq => hp ⟨_, heq⟩]
      exact (channelFd_setConnector_of_ne s _ fun n hn => hp ⟨n, hn⟩).symm
  · intro i m hi
    exact hothers _ (by simp [hi])
  · intro fd' hfd'
    obtain rfl := Option.some.inj (hsocket.symm.trans hfd')
    exact Or.inr hold
  · intro n ch hch
    obtain ⟨rfl, rfl⟩ := Prod.mk.inj (Option.some.inj (hchannel.symm.trans hch))
    exact ⟨hsocket, hvalid, by omega, hlistened⟩

theorem retryTimer_ops (c : Connector) (id made : Nat) :
    c.retryTimer.flatMap (ofConnector id made) = [] := by
  unfold Connector.retryTimer
  split <;> rfl

/-- `socket_ = std::make_unique<Socket>()`, with no attempt in progress. -/
theorem Kept.openSocket (h : Kept s) {id : Nat} {c : Connector} {fd : Int}
    (hc : s.connectors id = some c) (hnone : c.channel = none) (hfresh : s.registry.holder fd = none)
    (made : Nat) : ∃ s₁, (s.setConnector id (some { c with socket := none })).perform
        ((Effect.openSocket fd :: destroySocket c.socket ++ [Effect.connect fd]).flatMap
          (ofConnector id made)) = s₁ ∧
      Kept s₁ ∧ s₁.connectors id = some { c with socket := none } ∧
      s₁.registry.holder fd = some (.connector id) := by
  have hopened := h.opened hfresh (.connector id)
  have hreset := hopened.resetSocket hc hnone made
  rw [setConnector_perform, ← perform_append] at hreset
  have hops : (Effect.openSocket fd :: destroySocket c.socket ++ [Effect.connect fd]).flatMap
      (ofConnector id made) =
      [.openSocket fd (.connector id)] ++ (destroySocket c.socket).flatMap (ofConnector id made) := by
    simp [ofConnector]
  refine ⟨_, rfl, by rw [hops]; exact hreset, Function.update_self .., ?_⟩
  rw [hops]
  cases hs : c.socket with
  | none => exact Function.update_self ..
  | some old =>
    by_cases hvalid : old = invalidFd
    · simp only [destroySocket, hvalid, if_true]
      exact Function.update_self ..
    · -- the old socket is another one, since it is open
      have hne : fd ≠ old := by
        rintro rfl
        have hold := (h.socket id c fd hc hs).resolve_left hvalid
        rw [hfresh] at hold
        exact absurd hold (by simp)
      rw [Connector.destroySocket_valid hvalid]
      change Function.update (Function.update s.registry.holder fd _) old none fd = _
      rw [Function.update_of_ne hne]
      exact Function.update_self ..

theorem Kept.startInLoop (h : Kept s) {id : Nat} {c c' : Connector} {k : Connector.Kernel}
    {es : List Effect} (hc : s.connectors id = some c) (hnone : c.channel = none)
    (hpossible : s.possible k.socket = true) (he : c.startInLoop loopThread k = .ok (c', es)) :
    Kept ((s.setConnector id (some c')).perform (es.flatMap (ofConnector id c.channels))) := by
  obtain ⟨-, hvalid, hattempted⟩ := Connector.startInLoop_inv he
  have hfresh := possible_fresh hpossible hvalid
  obtain ⟨s₁, hs₁, h₁, hc₁, hold⟩ := h.openSocket hc hnone hfresh c.channels
  have hcompose : ∀ (d : Connector) rest,
      (s.setConnector id (some d)).perform
        ((Effect.openSocket k.socket :: destroySocket c.socket ++ [Effect.connect k.socket] ++
          rest).flatMap (ofConnector id c.channels)) =
        (s₁.setConnector id (some d)).perform (rest.flatMap (ofConnector id c.channels)) := by
    intro d rest
    rw [← hs₁, setConnector_perform, setConnector_setConnector, List.flatMap_append, perform_append]
  cases hattempted with
  | inProgress =>
    rw [hcompose, hnone]
    have hnew := h₁.connecting (d := { c with
        state := .connecting
        socket := some k.socket
        channel := some (c.channels, attemptChannel k.socket)
        channels := c.channels + 1 }) hc₁ hnone hvalid hold (by simp) rfl rfl rfl
    simpa [Connector.destroyChannel, ofConnector] using hnew
  | retried =>
    rw [hcompose]
    have hclosed := h₁.closeOwn hc₁ hnone (by simp) hold
    have hset := hclosed.sameAttempt (d := { c with
        state := .disconnected
        socket := none
        retryDelay := min (2 * c.retryDelay) Connector.maxRetryDelay }) hc₁ rfl rfl rfl
    rw [List.flatMap_append, retryTimer_ops, List.append_nil]
    exact hset
  | gaveUp =>
    rw [hcompose]
    have hclosed := h₁.closeOwn hc₁ hnone (by simp) hold
    exact hclosed.sameAttempt (d := { c with state := .disconnected, socket := none }) hc₁ rfl rfl rfl

theorem Kept.stopInLoop (h : Kept s) {id : Nat} {c c' : Connector} {es : List Effect}
    (hc : s.connectors id = some c) (he : c.stopInLoop loopThread = .ok (c', es)) :
    Kept ((s.setConnector id (some c')).perform (es.flatMap (ofConnector id c.channels))) := by
  rcases Connector.stopInLoop_inv he with ⟨-, rfl, rfl⟩ | ⟨-, rfl, rfl⟩
  · have hgone := h.letGo hc
    have hset := hgone.sameAttempt (d := { c with
        channel := none, socket := none, state := .disconnected }) (Function.update_self ..) rfl rfl rfl
    rw [setConnector_perform, setConnector_setConnector] at hset
    exact hset
  · exact h.sameAttempt hc rfl rfl rfl

theorem Kept.handleWritable (h : Kept s) {id : Nat} {c c' : Connector} {err : Int} {es : List Effect}
    (hc : s.connectors id = some c) (he : c.handleWritable loopThread err = .ok (c', es)) :
    Kept ((s.setConnector id (some c')).perform (es.flatMap (ofConnector id c.channels))) := by
  obtain ⟨fd, hs, ⟨-, hsettled⟩ | ⟨-, -, rfl, rfl⟩⟩ := Connector.handleWritable_inv he
  · have hgone := h.letGo hc
    rw [hs] at hgone
    cases hsettled with
    | failed =>
      have hset := hgone.sameAttempt (d := { c with
          state := .disconnected
          channel := none
          socket := none
          retryDelay := min (2 * c.retryDelay) Connector.maxRetryDelay }) (Function.update_self ..)
        rfl rfl rfl
      rw [setConnector_perform, setConnector_setConnector] at hset
      rw [List.flatMap_append, retryTimer_ops, List.append_nil]
      exact hset
    | ignored =>
      have hset := hgone.sameAttempt (d := { c with
          state := .connected, channel := none, socket := none }) (Function.update_self ..) rfl rfl rfl
      rw [setConnector_perform, setConnector_setConnector] at hset
      exact hset
  · have hremoved := h.resetChannel hc
    have hset := hremoved.forgetSocket (d := { c with
        state := .connected, channel := none, socket := some invalidFd }) (Function.update_self ..)
      rfl rfl (by simp)
    rw [List.flatMap_append, perform_append]
    rw [setConnector_perform, setConnector_setConnector] at hset
    by_cases hvalid : fd = invalidFd
    · have hnoop : [Effect.newConnectionCallback fd].flatMap (ofConnector id c.channels) = [] := by
        simp [ofConnector, hvalid]
      rw [hnoop]
      exact hset
    · have hold := (hremoved.socket id _ fd (Function.update_self ..) hs).resolve_left hvalid
      have hhanded := hset.handOver (Function.update_self ..) rfl (by simpa using Ne.symm hvalid) hold
      simpa [ofConnector, hvalid] using hhanded

/-! ## Every step -/

/-- The call opens a socket. -/
def startsAttempt (call : ConnectorCall) : Bool := call.socket.isSome

/-- No owner lets go of a channel that is registered: no acceptor and no connection is destroyed, no
attempt started and no socket reset after `new_connection_callback_` while it is. -/
def Deregisters (s : Host) : Label → Prop
  | .destroyAcceptor id => ∀ a ∈ s.acceptors id,
    s.registry.poller.channelMap a.acceptSocket ≠ some (.acceptor id)
  | .destroyConnection id => ∀ c ∈ s.connections id,
    s.registry.poller.channelMap c.socket.fd ≠ some (.connection id)
  | .connector id call => ∀ c ∈ s.connectors id,
    startsAttempt call = true → call.socket.all s.possible = true → c.channel = none
  | .callbackReturns => ∀ id ∈ s.returning.head?, ∀ c ∈ s.connectors id, c.channel = none
  | _ => True

instance (s : Host) : ∀ a : Label, Decidable (Deregisters s a)
  | .destroyAcceptor id => inferInstanceAs (Decidable (∀ a ∈ s.acceptors id,
      s.registry.poller.channelMap a.acceptSocket ≠ some (.acceptor id)))
  | .destroyConnection id => inferInstanceAs (Decidable (∀ c ∈ s.connections id,
      s.registry.poller.channelMap c.socket.fd ≠ some (.connection id)))
  | .connector id call => inferInstanceAs (Decidable (∀ c ∈ s.connectors id,
      startsAttempt call = true → call.socket.all s.possible = true → c.channel = none))
  | .callbackReturns => inferInstanceAs (Decidable (∀ id ∈ s.returning.head?,
      ∀ c ∈ s.connectors id, c.channel = none))
  | .newAcceptor _ _ | .listen _ _ | .accept _ _ | .newConnector _ | .destroyConnector _ |
    .newConnection _ _ | .connection _ _ | .dropSocket _ => isTrue trivial

theorem Kept.returning (h : Kept s) (ids : List Nat) : Kept { s with returning := ids } :=
  ⟨h.sound, h.chans, h.acceptor, h.connection, h.connector, h.socket, h.attempt⟩

/-- A connector is made. -/
theorem Kept.addConnector (h : Kept s) (callback : Bool) :
    Kept ({ s with created := s.created + 1 }.setConnector s.created
      (some (Connector.construct 0 callback))) := by
  have hnone : s.connectors s.created = none := by
    cases hc : s.connectors s.created with
    | none => rfl
    | some c => exact absurd (h.connector _ c hc) (Nat.lt_irrefl _)
  refine h.created.setConnector (Nat.lt_succ_self _) h.sound ?_ rfl (fun _ _ _ => rfl) ?_ ?_
  · rw [h.chans]
    funext p
    by_cases hp : ∃ n, p = .connector s.created n
    · obtain ⟨n, rfl⟩ := hp
      rw [channelFd_setConnector_none _ rfl]
      simp [channelFd, hnone]
    · exact (channelFd_setConnector_of_ne _ _ fun n hn => hp ⟨n, hn⟩).symm
  · exact fun fd hfd => absurd hfd (by simp [Connector.construct])
  · exact fun n ch hch => absurd hch (by simp [Connector.construct])

/-- A connector without an attempt is destroyed. -/
theorem Kept.dropConnector (h : Kept s) {id : Nat} {c : Connector} (hc : s.connectors id = some c)
    (hnone : c.channel = none) : Kept (s.setConnector id none) where
  sound := h.sound
  chans := by
    change s.registry.chans = _
    rw [h.chans]
    funext p
    by_cases hp : ∃ n, p = .connector id n
    · obtain ⟨n, rfl⟩ := hp
      simp [channelFd, Host.setConnector, hc, hnone]
    · exact (channelFd_setConnector_of_ne s _ fun n hn => hp ⟨n, hn⟩).symm
  acceptor := h.acceptor
  connection := h.connection
  connector i d hd := h.connector i d (update_none_inv hd).2
  socket i d fd hd := h.socket i d fd (update_none_inv hd).2
  attempt i d n ch hd := h.attempt i d n ch (update_none_inv hd).2

/-- A call of a connector. -/
theorem Kept.call (h : Kept s) {id : Nat} {c c' : Connector} {call : ConnectorCall} {es : List Effect}
    (hc : s.connectors id = some c) (hnone : startsAttempt call = true → c.channel = none)
    (hpossible : call.socket.all s.possible = true) (he : call.run c = .ok (c', es)) :
    Kept ((s.setConnector id (some c')).perform (es.flatMap (ofConnector id c.channels))) := by
  cases call with
  | start k =>
    have hset := h.sameAttempt (d := c.start.1) hc rfl rfl rfl
    have hstart := hset.startInLoop (Function.update_self ..) (hnone rfl) hpossible he
    rw [setConnector_setConnector] at hstart
    exact hstart
  | stop =>
    have hset := h.sameAttempt (d := c.stop.1) hc rfl rfl rfl
    have hstop := hset.stopInLoop (Function.update_self ..) he
    rw [setConnector_setConnector] at hstop
    exact hstop
  | restart k =>
    obtain ⟨⟨c₁, task⟩, hrestart, he⟩ := bind_ok_inv he
    obtain ⟨rfl, -⟩ := Connector.restart_inv hrestart
    have hset := h.sameAttempt (d := { c with
        state := .disconnected, connectFlag := true, retryDelay := Connector.defaultRetryDelay })
      hc rfl rfl rfl
    have hstart := hset.startInLoop (Function.update_self ..) (hnone rfl) hpossible he
    rw [setConnector_setConnector] at hstart
    exact hstart
  | startInLoop k => exact h.startInLoop hc (hnone rfl) hpossible he
  | stopInLoop => exact h.stopInLoop hc he
  | handleWritable err => exact h.handleWritable hc he

theorem step_kept {a : Label} (h : Kept s) (hd : Deregisters s a) (he : s.step a = .ok s') : Kept s' := by
  cases a with
  | newAcceptor fd bound =>
    simp only [step] at he
    split at he
    · rename_i hpossible
      obtain ⟨a, ha, he⟩ := bind_ok_inv he
      obtain rfl := Except.ok.inj he
      obtain ⟨hvalid, rfl⟩ := acceptor_construct_inv ha
      have hopened := h.opened (possible_fresh hpossible hvalid) (.acceptor s.created)
      have hold : (s.perform [.openSocket fd (.acceptor s.created)]).registry.holder fd =
          some (.acceptor s.created) := Function.update_self ..
      exact hopened.addAcceptor (a := ⟨fd, (Channel.construct fd).setReadCallback .accept, false⟩)
        rfl hold
    · obtain rfl := Except.ok.inj he
      exact h
  | listen id ok =>
    simp only [step] at he
    split at he
    · obtain rfl := Except.ok.inj he
      exact h
    · rename_i a ha
      obtain ⟨a', hlisten, he⟩ := bind_ok_inv he
      obtain rfl := Except.ok.inj he
      obtain rfl := acceptor_listen_inv hlisten
      have hset : Kept (s.setAcceptor id (some { a with
          isListening := true, acceptChannel := a.acceptChannel.listenTillReadable })) :=
        h.setAcceptor ha rfl rfl
      exact hset.onChannel (c := .acceptor id) (by simp) (Or.inl ⟨_, rfl⟩)
  | accept id fd =>
    simp only [step] at he
    split at he
    · obtain rfl := Except.ok.inj he
      exact h
    · obtain rfl := Except.ok.inj he
      split
      · rename_i hfd
        exact h.opened (possible_fresh hfd.1 hfd.2) .user
      · exact h
  | destroyAcceptor id =>
    simp only [step] at he
    split at he
    · obtain rfl := Except.ok.inj he
      exact h
    · rename_i a ha
      obtain rfl := Except.ok.inj he
      exact h.destroyAcceptor ha (hd a ha)
  | newConnector callback =>
    obtain rfl := Except.ok.inj he
    exact h.addConnector callback
  | connector id call =>
    simp only [step] at he
    split at he
    · obtain rfl := Except.ok.inj he
      exact h
    · rename_i c hc
      split at he
      · rename_i hpossible
        obtain ⟨⟨c', es⟩, hcall, he⟩ := bind_ok_inv he
        obtain rfl := Except.ok.inj he
        have hkept := h.call hc (fun hs => hd c hc hs hpossible) hpossible hcall
        split
        · exact hkept.returning _
        · exact hkept
      · obtain rfl := Except.ok.inj he
        exact h
  | callbackReturns =>
    simp only [step] at he
    split at he
    · obtain rfl := Except.ok.inj he
      exact h
    · rename_i id rest hreturning
      split at he
      · exact absurd he (by simp)
      · rename_i c hc
        obtain rfl := Except.ok.inj he
        have hnone : c.channel = none := hd id (by simp [hreturning]) c hc
        exact (h.returning rest).resetSocket hc hnone c.channels
  | destroyConnector id =>
    simp only [step] at he
    split at he
    · obtain rfl := Except.ok.inj he
      exact h
    · rename_i c hc
      obtain ⟨⟨c', removed⟩, hreset, he⟩ := bind_ok_inv he
      obtain ⟨rfl, rfl⟩ := Connector.resetChannel_inv hreset
      obtain rfl := Except.ok.inj he
      have hgone := (h.letGo hc).dropConnector (Function.update_self ..) rfl
      rw [setConnector_perform, setConnector_setConnector] at hgone
      exact hgone
  | newConnection fd u =>
    obtain rfl := Except.ok.inj he
    split
    · rename_i huser
      exact h.newConnection huser u
    · exact h
  | connection id call =>
    simp only [step] at he
    split at he
    · obtain rfl := Except.ok.inj he
      exact h
    · rename_i c hc
      obtain ⟨⟨c', es⟩, hcall, he⟩ := bind_ok_inv he
      obtain rfl := Except.ok.inj he
      exact (h.setConnection hc (ConnectionCall.wiring hcall)).ofConnection
  | destroyConnection id =>
    simp only [step] at he
    split at he
    · obtain rfl := Except.ok.inj he
      exact h
    · rename_i c hc
      obtain rfl := Except.ok.inj he
      exact h.destroyConnection hc (hd c hc)
  | dropSocket fd =>
    obtain rfl := Except.ok.inj he
    split
    · rename_i huser
      exact h.dropSocket huser
    · exact h

/-! ## Steps that break the order -/

/-- The attempt of a connector is registered. -/
theorem Kept.attempt_mapped (h : Kept s) {id n : Nat} {c : Connector} {ch : Channel Connector.Handler}
    (hc : s.connectors id = some c) (hch : c.channel = some (n, ch)) :
    s.registry.poller.channelMap ch.fd = some (.connector id n) :=
  h.sound.mapped (h.connector_chans hc hch) (h.attempt id c n ch hc hch).2.2.2

/-- An attempt is started over another. -/
theorem Kept.not_live_of_start (h : Kept s) {id n : Nat} {c c' : Connector} {k : Connector.Kernel}
    {ch : Channel Connector.Handler} {es : List Effect} (hc : s.connectors id = some c)
    (hch : c.channel = some (n, ch)) (hpossible : s.possible k.socket = true)
    (he : c.startInLoop loopThread k = .ok (c', es)) :
    ¬ Live (s.registry.steps (es.flatMap (ofConnector id c.channels))) := by
  obtain ⟨-, hvalid, hattempted⟩ := Connector.startInLoop_inv he
  obtain ⟨hs, hfd, hlt, -⟩ := h.attempt id c n ch hc hch
  have hmap := h.attempt_mapped hc hch
  have hne : ch.fd ≠ k.socket := by
    intro heq
    have hold := (h.socket id c ch.fd hc hs).resolve_left hfd
    rw [heq, possible_fresh hpossible hvalid] at hold
    exact absurd hold (by simp)
  -- the old socket is closed, and nothing opens it again
  have hopening : (Effect.openSocket k.socket :: destroySocket c.socket ++
      [Effect.connect k.socket]).flatMap (ofConnector id c.channels) =
      [.openSocket k.socket (.connector id), .closeSocket ch.fd] := by
    rw [hs, Connector.destroySocket_valid hfd]
    rfl
  obtain ⟨r, hr, hmap₁, hclosed⟩ : ∃ r, s.registry.steps
      [.openSocket k.socket (.connector id), .closeSocket ch.fd] = r ∧
      r.poller.channelMap ch.fd = some (.connector id n) ∧ r.holder ch.fd = none :=
    ⟨_, rfl, hmap, Function.update_self ..⟩
  cases hattempted with
  | inProgress =>
    have hrest : (Connector.destroyChannel c.channel ++
        [Effect.updateChannel c.channels k.socket (attemptChannel k.socket).events]).flatMap
          (ofConnector id c.channels) =
        [.destroy (.connector id n), .construct (.connector id c.channels) k.socket,
          .updateChannel (.connector id c.channels) (attemptChannel k.socket).events] := by
      rw [hch]
      simp [Connector.destroyChannel, ofConnector]
    rw [List.flatMap_append, hopening, Registry.steps_append, hr, hrest]
    simp only [Registry.steps, List.foldl, Registry.step, Function.update_self]
    exact Registry.not_live_of_closed ch.fd (.connector id n)
      ((Epoller.updateChannel_channelMap_of_ne hne _).trans hmap₁) hclosed
  | retried =>
    rw [List.flatMap_append, hopening, Registry.steps_append, hr, List.flatMap_append, retryTimer_ops]
    refine Registry.not_live_of_closed ch.fd (.connector id n) hmap₁ ?_
    exact (Function.update_of_ne hne _ _).trans hclosed
  | gaveUp =>
    rw [List.flatMap_append, hopening, Registry.steps_append, hr]
    refine Registry.not_live_of_closed ch.fd (.connector id n) hmap₁ ?_
    exact (Function.update_of_ne hne _ _).trans hclosed

/-- A call over an attempt in progress. -/
theorem Kept.not_live_of_call (h : Kept s) {id n : Nat} {c c' : Connector} {call : ConnectorCall}
    {ch : Channel Connector.Handler} {es : List Effect} (hc : s.connectors id = some c)
    (hch : c.channel = some (n, ch)) (hstarts : startsAttempt call = true)
    (hpossible : call.socket.all s.possible = true) (he : call.run c = .ok (c', es)) :
    ¬ Live (s.registry.steps (es.flatMap (ofConnector id c.channels))) := by
  cases call with
  | start k =>
    have hset := h.sameAttempt (d := c.start.1) hc rfl rfl rfl
    exact hset.not_live_of_start (c := c.start.1) (Function.update_self ..) hch hpossible he
  | restart k =>
    obtain ⟨⟨c₁, task⟩, hrestart, he⟩ := bind_ok_inv he
    obtain ⟨rfl, -⟩ := Connector.restart_inv hrestart
    have hset := h.sameAttempt (d := { c with
        state := .disconnected, connectFlag := true, retryDelay := Connector.defaultRetryDelay })
      hc rfl rfl rfl
    exact hset.not_live_of_start (c := { c with
        state := .disconnected, connectFlag := true, retryDelay := Connector.defaultRetryDelay })
      (Function.update_self ..) hch hpossible he
  | startInLoop k => exact h.not_live_of_start hc hch hpossible he
  | stop | stopInLoop | handleWritable => exact absurd hstarts (by simp [startsAttempt, ConnectorCall.socket])

theorem deregisters_of_live {a : Label} (h : Kept s) (he : s.step a = .ok s')
    (hl : Live s'.registry) : Deregisters s a := by
  cases a with
  | destroyAcceptor id =>
    intro a ha hmap
    simp only [Option.mem_def] at ha
    simp only [step, ha] at he
    obtain rfl := Except.ok.inj he
    refine absurd hl (Registry.not_live_of_destroyed a.acceptSocket (.acceptor id) ?_ ?_)
    · exact hmap
    · exact Function.update_self ..
  | destroyConnection id =>
    intro c hc hmap
    simp only [Option.mem_def] at hc
    simp only [step, hc] at he
    obtain rfl := Except.ok.inj he
    refine absurd hl (Registry.not_live_of_destroyed c.socket.fd (.connection id) ?_ ?_)
    · exact hmap
    · exact Function.update_self ..
  | connector id call =>
    intro c hc hstarts hpossible
    by_contra hne
    obtain ⟨⟨n, ch⟩, hch⟩ := Option.ne_none_iff_exists'.mp hne
    simp only [Option.mem_def] at hc
    simp only [step, hc, hpossible, if_true] at he
    obtain ⟨⟨c', es⟩, hcall, he⟩ := bind_ok_inv he
    obtain rfl := Except.ok.inj he
    refine h.not_live_of_call hc hch hstarts hpossible hcall ?_
    split at hl <;> exact hl
  | callbackReturns =>
    intro id hid c hc
    by_contra hne
    obtain ⟨⟨n, ch⟩, hch⟩ := Option.ne_none_iff_exists'.mp hne
    simp only [Option.mem_def] at hid hc
    obtain ⟨rest, hreturning⟩ := List.head?_eq_some_iff.mp hid
    simp only [step, hreturning, hc] at he
    obtain rfl := Except.ok.inj he
    obtain ⟨hs, hfd, -⟩ := h.attempt id c n ch hc hch
    have hops : (destroySocket c.socket).flatMap (ofConnector id c.channels) = [.closeSocket ch.fd] := by
      rw [hs, Connector.destroySocket_valid hfd]
      rfl
    change Live (s.registry.steps ((destroySocket c.socket).flatMap (ofConnector id c.channels))) at hl
    rw [hops] at hl
    refine absurd hl (Registry.not_live_of_closed ch.fd (.connector id n) ?_ ?_)
    · exact h.attempt_mapped hc hch
    · exact Function.update_self ..
  | _ => trivial

/-- **The registry holds live channels only, exactly when no owner lets go of a registered one.** In
every run: in every state reached, each entry of `channel_map_` is a channel that exists on an open
descriptor of the epoll set and each channel that asked for events is in the set, if and only if no
acceptor and no connection was destroyed, no attempt started and no socket reset after
`new_connection_callback_` while the channel concerned was registered. -/
theorem registry_live_iff {ls : List Label} (hrun : run step init ls = .ok t) :
    (∀ before after s, ls = before ++ after → run step init before = .ok s → Live s.registry) ↔
      Along step Deregisters init ls := by
  constructor
  · exact along_of_prefixes step_kept deregisters_of_live init_kept hrun
  · rintro hd before after s rfl hs
    exact (run_invariant step_kept init_kept ((along_append hs).mp hd).1 hs).sound.toLive

/-- The callbacks of a connection whose owner only logs. -/
def loggedSetup : TcpConnection.Setup where
  messageCallback := true
  connectionCallback := true
  highWaterMark := 0
  highWaterCallback := false
  writeCompleteCallback := false
  closeCallback := some .clientGone

/-- An acceptor listens, a connection it accepted is closed and destroyed, and a connector gets its
descriptor number and hands it to a second connection. -/
def numberReused : List Label :=
  [.newAcceptor 5 true, .listen 0 true, .accept 0 6, .newConnection 6 loggedSetup,
    .connection 1 .connectionEstablished, .connection 1 (.handler .handleReadable (some []) 0),
    .connection 1 .connectionDestroyed, .destroyConnection 1,
    .newConnector true, .connector 2 (.start ⟨6, .einprogress, 0⟩), .connector 2 (.handleWritable 0),
    .newConnection 6 loggedSetup, .connection 3 .connectionEstablished, .callbackReturns]

theorem registry_live_numberReused :
    ∃ t, run step init numberReused = .ok t ∧ t.registry.poller.channelMap 5 = some (.acceptor 0) ∧
      t.registry.poller.channelMap 6 = some (.connection 3) ∧ Live t.registry := by
  have hd : Along step Deregisters init numberReused := by decide +kernel
  have hend : ∃ t, run step init numberReused = .ok t ∧
      t.registry.poller.channelMap 5 = some (.acceptor 0) ∧
      t.registry.poller.channelMap 6 = some (.connection 3) := by decide +kernel
  obtain ⟨t, hrun, h5, h6⟩ := hend
  exact ⟨t, hrun, h5, h6,
    (registry_live_iff hrun).mpr hd numberReused [] t (List.append_nil _).symm hrun⟩

/-- An acceptor is destroyed while it listens, and a second one gets its descriptor number. -/
def listenerDestroyed : List Label :=
  [.newAcceptor 5 true, .listen 0 true, .destroyAcceptor 0, .newAcceptor 5 true, .listen 1 true]

/-- `channel_map_` has the channel of the first acceptor still, and the second one, which listens, is
not in the epoll set. -/
theorem not_live_listenerDestroyed :
    ∃ t, run step init listenerDestroyed = .ok t ∧
      t.registry.poller.channelMap 5 = some (.acceptor 0) ∧ t.registry.chans (.acceptor 0) = none ∧
      t.registry.chans (.acceptor 1) = some 5 ∧ t.registry.holder 5 = some (.acceptor 1) ∧
      t.registry.listened (.acceptor 1) = true ∧ t.registry.poller.kernel 5 = none := by
  decide +kernel

end Host

end HyperMuduo.Net.Owners
