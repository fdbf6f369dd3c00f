import HyperMuduo.TcpClient.Steps

/-!
# What the connector owns

`Consistent` ties `state_`, `socket_`, `channel_` of the connector and the poller together: there is a
channel exactly while the connector is `Connecting`, it is on the descriptor of `socket_`, it is the one
the poller has registered, and none was destroyed, nor its socket closed, while it was registered.

Two places do not look before they reset. `handleWritable` resets `socket_` after `onConnection`, also
when the connection callback has begun a new attempt; and `restart` opens a new socket and channel, also
when an attempt is in progress. A connection that is destroyed with its channel still registered leaves
an entry in `channel_map_` that a new channel on the same descriptor does not get past.

* `Kept`: the invariant, with the descriptors of the connections.
* **`connector_consistent`**: `Consistent` holds in every run in which no attempt is in progress when
  `onConnection` returns or when a close restarts the connector, and no descriptor is opened that
  `channel_map_` still has.
-/

namespace HyperMuduo.Net.TcpClient

open HyperMuduo.Lib

namespace World

/-- `channel_` of the connector: its number and its descriptor. -/
def channel (s : World) : Option (Nat × Int) := s.connector.channel.map fun x => (x.1, x.2.fd)

/-- The connector and the poller agree. -/
structure Consistent (s : World) : Prop where
  attempt : s.channel.isSome ↔ s.connector.state = .connecting
  socket : ∀ id fd, s.channel = some (id, fd) → s.connector.socket = some fd
  registered : ∀ id fd, s.channel = some (id, fd) →
    s.poller.channelMap fd = some (.connector id) ∧
      ∃ asked, s.poller.kernel fd = some (.connector id, asked)
  only : ∀ id fd, s.poller.channelMap fd = some (.connector id) → s.channel = some (id, fd)
  intact : s.dangled = false

/-- What goes with it: who owns which descriptor. -/
structure Kept (s : World) : Prop extends Consistent s where
  /-- Without an attempt there is at most the socket `onConnection` moved from. -/
  spare : s.channel = none → ∀ fd, s.connector.socket = some fd →
    s.inCallback = true ∧ fd = Connector.invalidFd
  valid : ∀ id fd, s.channel = some (id, fd) → fd ∈ s.descriptors ∧ fd ≠ Connector.invalidFd
  synced : ∀ fd ∈ s.descriptors, s.poller.Synced fd
  /-- The kernel forgets a descriptor that is closed. -/
  unwatched : ∀ fd, fd ∉ s.descriptors → s.poller.kernel fd = none
  nodup : s.descriptors.Nodup
  made : ∀ id c, s.conns id = some c → id < s.created ∧ c.socket.fd = c.channel.fd
  opened : ∀ id c, s.conns id = some c → c.channel.fd ∈ s.descriptors ∧
    ∀ id', s.channel ≠ some (id', c.channel.fd)
  distinct : ∀ i j ci cj, s.conns i = some ci → s.conns j = some cj →
    ci.channel.fd = cj.channel.fd → i = j

/-- The step ends `onConnection`. -/
def returns (s : World) : Label → Bool
  | .callbackReturns => s.inCallback
  | _ => false

/-- No attempt is in progress when a close restarts the connector and none when `onConnection`
returns, and `::socket` gives no descriptor that is still in `channel_map_`. -/
def KeepsApart (s : World) (l : Label) : Prop :=
  (s.restarts l = true → s.channel = none) ∧ (s.returns l = true → s.channel = none) ∧
    l.kernel.all (fun k => s.poller.channelMap k.connector.socket = none) = true

instance (s : World) (l : Label) : Decidable (s.KeepsApart l) :=
  inferInstanceAs (Decidable (_ ∧ _ ∧ _))

variable {s s₀ s' : World} {l : Label} {kc : Connector.Kernel} {id : Nat}

theorem start_kept (cfg : Config) : (start cfg).Kept where
  attempt := by simp [start, channel, Connector.construct]
  socket id fd h := absurd h (by simp [start, channel, Connector.construct])
  registered id fd h := absurd h (by simp [start, channel, Connector.construct])
  only id fd h := absurd h (by simp [start, Epoller.empty])
  intact := rfl
  spare _ fd h := absurd h (by simp [start, Connector.construct])
  valid id fd h := absurd h (by simp [start, channel, Connector.construct])
  synced fd h := rfl
  unwatched fd h := rfl
  nodup := List.nodup_nil
  made id c h := absurd h (by simp [start])
  opened id c h := absurd h (by simp [start])
  distinct i j ci cj h := absurd h (by simp [start])

/-- Steps that leave the attempt, the poller and the connections alone. -/
theorem Kept.of_same (h : s.Kept) (hchannel : s'.channel = s.channel)
    (hstate : s'.connector.state = s.connector.state)
    (hsocket : s'.connector.socket = s.connector.socket) (hcallback : s'.inCallback = s.inCallback)
    (hpoller : s'.poller = s.poller) (hdescriptors : s'.descriptors = s.descriptors)
    (hdangled : s'.dangled = s.dangled) (hconns : s'.conns = s.conns)
    (hcreated : s'.created = s.created) : s'.Kept where
  attempt := by rw [hchannel, hstate]; exact h.attempt
  socket := by rw [hchannel, hsocket]; exact h.socket
  registered := by rw [hchannel, hpoller]; exact h.registered
  only := by rw [hchannel, hpoller]; exact h.only
  intact := by rw [hdangled]; exact h.intact
  spare := by rw [hchannel, hsocket, hcallback]; exact h.spare
  valid := by rw [hchannel, hdescriptors]; exact h.valid
  synced := by rw [hpoller, hdescriptors]; exact h.synced
  unwatched := by rw [hpoller, hdescriptors]; exact h.unwatched
  nodup := by rw [hdescriptors]; exact h.nodup
  made := by rw [hconns, hcreated]; exact h.made
  opened := by rw [hconns, hdescriptors, hchannel]; exact h.opened
  distinct := by rw [hconns]; exact h.distinct

theorem Kept.frame (h : s.Kept) (hf : Frame s s') : s'.Kept :=
  h.of_same hf.attempt.channel hf.attempt.state hf.attempt.socket hf.inCallback hf.poller
    hf.descriptors hf.dangled hf.conns hf.created

/-! ## The connector lets go -/

/-- No attempt before, and none after. -/
theorem Kept.idle (h : s.Kept) (hnone : s.channel = none) (hchannel : s'.channel = none)
    (hstate : s'.connector.state ≠ .connecting)
    (hsocket : ∀ fd, s'.connector.socket = some fd →
      s'.inCallback = true ∧ fd = Connector.invalidFd)
    (hpoller : s'.poller = s.poller) (hdescriptors : s'.descriptors = s.descriptors)
    (hdangled : s'.dangled = s.dangled) (hconns : s'.conns = s.conns)
    (hcreated : s'.created = s.created) : s'.Kept where
  attempt := by simp [hchannel, hstate]
  socket id fd hch := absurd hch (by simp [hchannel])
  registered id fd hch := absurd hch (by simp [hchannel])
  only id fd hmap := by
    rw [hpoller] at hmap
    have hch := h.only id fd hmap
    rw [hnone] at hch
    exact absurd hch (by simp)
  intact := by rw [hdangled]; exact h.intact
  spare _ := hsocket
  valid id fd hch := absurd hch (by simp [hchannel])
  synced := by rw [hpoller, hdescriptors]; exact h.synced
  unwatched := by rw [hpoller, hdescriptors]; exact h.unwatched
  nodup := by rw [hdescriptors]; exact h.nodup
  made := by rw [hconns, hcreated]; exact h.made
  opened j c hc := by
    rw [hconns] at hc
    rw [hdescriptors, hchannel]
    exact ⟨(h.opened j c hc).1, by simp⟩
  distinct := by rw [hconns]; exact h.distinct

/-- The attempt on `fd` ends: its channel is deregistered, and its descriptor closed or handed over. -/
theorem Kept.cleared (h : s.Kept) {fd : Int} (hch : s.channel = some (id, fd))
    (hchannel : s'.channel = none) (hstate : s'.connector.state ≠ .connecting)
    (hsocket : ∀ fd, s'.connector.socket = some fd →
      s'.inCallback = true ∧ fd = Connector.invalidFd)
    (hpoller : s'.poller = s.poller.clear fd)
    (hdescriptors : s'.descriptors = s.descriptors ∨ s'.descriptors = s.descriptors.erase fd)
    (hdangled : s'.dangled = s.dangled) (hconns : s'.conns = s.conns)
    (hcreated : s'.created = s.created) : s'.Kept := by
  have hmap : ∀ fd' ptr, s'.poller.channelMap fd' = some ptr →
      fd' ≠ fd ∧ s.poller.channelMap fd' = some ptr := by
    intro fd' ptr hfd'
    rw [hpoller] at hfd'
    exact update_none_inv hfd'
  have hopen : ∀ fd', fd' ≠ fd → fd' ∈ s.descriptors → fd' ∈ s'.descriptors := by
    intro fd' hne hmem
    rcases hdescriptors with hds | hds
    · rw [hds]
      exact hmem
    · rw [hds]
      exact (List.mem_erase_of_ne hne).mpr hmem
  have hstill : ∀ fd', fd' ∈ s'.descriptors → fd' ∈ s.descriptors := by
    intro fd' hmem
    rcases hdescriptors with hds | hds
    · rw [hds] at hmem
      exact hmem
    · rw [hds] at hmem
      exact List.mem_of_mem_erase hmem
  refine
    { attempt := by simp [hchannel, hstate]
      socket := fun id fd hch => absurd hch (by simp [hchannel])
      registered := fun id fd hch => absurd hch (by simp [hchannel])
      only := ?_
      intact := by rw [hdangled]; exact h.intact
      spare := fun _ => hsocket
      valid := fun id fd hch => absurd hch (by simp [hchannel])
      synced := ?_
      unwatched := ?_
      nodup := ?_
      made := by rw [hconns, hcreated]; exact h.made
      opened := ?_
      distinct := by rw [hconns]; exact h.distinct }
  · intro id' fd' hfd'
    obtain ⟨hne, hold⟩ := hmap fd' _ hfd'
    have hch' := h.only id' fd' hold
    rw [hch] at hch'
    exact absurd (Prod.mk.inj (Option.some.inj hch')).2.symm hne
  · intro fd' hmem
    have hold := h.synced fd' (hstill fd' hmem)
    unfold Epoller.Synced at hold ⊢
    rw [hpoller]
    by_cases hne : fd' = fd
    · subst hne
      simp [Epoller.clear]
    · simpa [Epoller.clear, Function.update_of_ne hne] using hold
  · intro fd' hnot
    rw [hpoller]
    by_cases hne : fd' = fd
    · subst hne
      simp [Epoller.clear]
    · have hold := h.unwatched fd' fun hmem => hnot (hopen fd' hne hmem)
      simpa [Epoller.clear, Function.update_of_ne hne] using hold
  · rcases hdescriptors with hds | hds
    · rw [hds]
      exact h.nodup
    · rw [hds]
      exact h.nodup.erase fd
  · intro j c hc
    rw [hconns] at hc
    obtain ⟨hmem, hapart⟩ := h.opened j c hc
    refine ⟨hopen _ ?_ hmem, by simp [hchannel]⟩
    intro heq
    exact hapart id (by rw [heq]; exact hch)

theorem channel_eq_none_iff : s.channel = none ↔ s.connector.channel = none := by simp [channel]

theorem Kept.destroySocket_spare (h : s.Kept) (hnone : s.channel = none) :
    Connector.destroySocket s.connector.socket = [] := by
  cases hsocket : s.connector.socket with
  | none => rfl
  | some fd =>
    obtain ⟨-, rfl⟩ := h.spare hnone fd hsocket
    rfl

/-- The effects that end an attempt: the channel is deregistered before it is destroyed. -/
theorem foldl_removal {n : Nat} {ch : Channel Connector.Handler}
    (hch : s.connector.channel = some (n, ch)) (hsynced : s.poller.Synced ch.fd) :
    ((Connector.removal s.connector.channel).foldl perform s).poller = s.poller.clear ch.fd ∧
      ((Connector.removal s.connector.channel).foldl perform s).descriptors = s.descriptors ∧
      ((Connector.removal s.connector.channel).foldl perform s).dangled = s.dangled := by
  rw [hch]
  have hremoved : (s.poller.updateChannel (.connector n) ch.fd .none).removeChannel ch.fd =
      s.poller.clear ch.fd := Epoller.removeChannel_updateChannel hsynced _
  simp only [Connector.removal, List.foldl_cons, List.foldl_nil, perform, record, registered, hch]
  rw [hremoved]
  refine ⟨rfl, trivial, ?_⟩
  simp [Epoller.clear]

/-- The socket of a deregistered channel is closed. -/
theorem perform_closeSocket (fd : Int) {s : World} (hsynced : s.poller.Synced fd)
    (hmap : s.poller.channelMap fd = none) :
    (s.perform (.closeSocket fd)).poller = s.poller ∧
      (s.perform (.closeSocket fd)).descriptors = s.descriptors.erase fd ∧
      (s.perform (.closeSocket fd)).dangled = s.dangled := by
  refine ⟨Epoller.closeFd_of_unmapped hsynced hmap, rfl, ?_⟩
  simp [perform, record, registeredAt, hmap]

theorem foldl_retryTimer (s : World) (c : Connector) :
    (c.retryTimer.foldl perform s).poller = s.poller ∧
      (c.retryTimer.foldl perform s).descriptors = s.descriptors ∧
      (c.retryTimer.foldl perform s).dangled = s.dangled := by
  unfold Connector.retryTimer
  split <;> exact ⟨rfl, rfl, rfl⟩

/-- The channel is removed and destroyed, then its socket closed. -/
theorem foldl_release {n : Nat} {ch : Channel Connector.Handler}
    (hch : s.connector.channel = some (n, ch)) (hsynced : s.poller.Synced ch.fd)
    (hvalid : ch.fd ≠ Connector.invalidFd) :
    ((Connector.removal s.connector.channel ++
        Connector.destroySocket (some ch.fd)).foldl perform s).poller = s.poller.clear ch.fd ∧
      ((Connector.removal s.connector.channel ++
        Connector.destroySocket (some ch.fd)).foldl perform s).descriptors =
          s.descriptors.erase ch.fd ∧
      ((Connector.removal s.connector.channel ++
        Connector.destroySocket (some ch.fd)).foldl perform s).dangled = s.dangled := by
  obtain ⟨hpoller, hdescriptors, hdangled⟩ := foldl_removal hch hsynced
  rw [List.foldl_append, Connector.destroySocket_valid hvalid]
  have hcleared : (s.poller.clear ch.fd).Synced ch.fd := by simp [Epoller.Synced, Epoller.clear]
  obtain ⟨hpoller', hdescriptors', hdangled'⟩ := perform_closeSocket ch.fd
    (s := (Connector.removal s.connector.channel).foldl perform s)
    (by rw [hpoller]; exact hcleared) (by rw [hpoller]; simp [Epoller.clear])
  refine ⟨hpoller'.trans hpoller, ?_, hdangled'.trans hdangled⟩
  rw [← hdescriptors]
  exact hdescriptors'

/-- An attempt in progress, taken apart. -/
theorem Kept.channel_some (h : s.Kept) {n : Nat} {ch : Channel Connector.Handler}
    (hch : s.connector.channel = some (n, ch)) :
    s.channel = some (n, ch.fd) ∧ s.connector.socket = some ch.fd ∧
      ch.fd ≠ Connector.invalidFd ∧ s.poller.Synced ch.fd := by
  have hchannel : s.channel = some (n, ch.fd) := by simp [channel, hch]
  obtain ⟨hopen, hvalid⟩ := h.valid n ch.fd hchannel
  exact ⟨hchannel, h.socket n ch.fd hchannel, hvalid, h.synced ch.fd hopen⟩

/-! ## The connector begins an attempt -/

theorem Kept.registers (h : s.Kept) {fd : Int} (n : Nat) (asked : EpollEvents)
    (hnone : s.channel = none) (hvalid : fd ≠ Connector.invalidFd) (hfresh : fd ∉ s.descriptors)
    (hchannel : s'.channel = some (n, fd)) (hstate : s'.connector.state = .connecting)
    (hsocket : s'.connector.socket = some fd)
    (hpoller : s'.poller =
      ⟨Function.update s.poller.channelMap fd (some (.connector n)),
        Function.update s.poller.kernel fd (some (.connector n, asked))⟩)
    (hdescriptors : s'.descriptors = fd :: s.descriptors) (hdangled : s'.dangled = s.dangled)
    (hconns : s'.conns = s.conns) (hcreated : s'.created = s.created) : s'.Kept := by
  have hmap : ∀ fd' ptr, s'.poller.channelMap fd' = some ptr →
      (fd' = fd ∧ ptr = .connector n) ∨ s.poller.channelMap fd' = some ptr := by
    intro fd' ptr hfd'
    rw [hpoller] at hfd'
    exact (update_some_inv hfd').imp_right And.right
  have hsome : ∀ id' fd', s'.channel = some (id', fd') → id' = n ∧ fd' = fd := by
    intro id' fd' hch
    rw [hchannel] at hch
    obtain ⟨rfl, rfl⟩ := Prod.mk.inj (Option.some.inj hch)
    exact ⟨rfl, rfl⟩
  refine
    { attempt := by simp [hchannel, hstate]
      socket := ?_
      registered := ?_
      only := ?_
      intact := by rw [hdangled]; exact h.intact
      spare := fun hch => absurd hch (by simp [hchannel])
      valid := ?_
      synced := ?_
      unwatched := ?_
      nodup := ?_
      made := by rw [hconns, hcreated]; exact h.made
      opened := ?_
      distinct := by rw [hconns]; exact h.distinct }
  · intro id' fd' hch
    obtain ⟨rfl, rfl⟩ := hsome id' fd' hch
    exact hsocket
  · intro id' fd' hch
    obtain ⟨rfl, rfl⟩ := hsome id' fd' hch
    rw [hpoller]
    exact ⟨Function.update_self _ _ _, asked, Function.update_self _ _ _⟩
  · intro id' fd' hfd'
    rcases hmap fd' _ hfd' with ⟨rfl, hptr⟩ | hold
    · obtain rfl := Pointer.connector.inj hptr
      exact hchannel
    · have hch := h.only id' fd' hold
      rw [hnone] at hch
      exact absurd hch (by simp)
  · intro id' fd' hch
    obtain ⟨rfl, rfl⟩ := hsome id' fd' hch
    rw [hdescriptors]
    exact ⟨by simp, hvalid⟩
  · intro fd' hmem
    rw [hdescriptors] at hmem
    unfold Epoller.Synced
    rw [hpoller]
    by_cases hne : fd' = fd
    · subst hne
      simp
    · have hold := h.synced fd' (List.mem_of_ne_of_mem hne hmem)
      unfold Epoller.Synced at hold
      simpa [Function.update_of_ne hne] using hold
  · intro fd' hnot
    rw [hdescriptors] at hnot
    have hne := List.ne_of_not_mem_cons hnot
    have hold := h.unwatched fd' (List.not_mem_of_not_mem_cons hnot)
    rw [hpoller]
    simpa [Function.update_of_ne hne] using hold
  · rw [hdescriptors]
    exact List.nodup_cons.mpr ⟨hfresh, h.nodup⟩
  · intro j c hc
    rw [hconns] at hc
    obtain ⟨hmem, -⟩ := h.opened j c hc
    rw [hdescriptors]
    refine ⟨List.mem_cons_of_mem _ hmem, ?_⟩
    intro id' hch
    obtain ⟨-, heq⟩ := hsome id' _ hch
    rw [heq] at hmem
    exact hfresh hmem

/-- **An attempt keeps the connector and the poller together**, however it ends. -/
theorem Kept.attempted (h : s.Kept) {c : Connector} {es : List Connector.Effect} {fd : Int}
    (hnone : s.channel = none) (hvalid : fd ≠ Connector.invalidFd) (hfresh : fd ∉ s.descriptors)
    (hunmapped : s.poller.channelMap fd = none)
    (hattempted : Connector.Attempted s.connector fd c es) : (s.absorb c es).Kept := by
  have hnoch := channel_eq_none_iff.mp hnone
  have hspare := h.destroySocket_spare hnone
  have hsynced : s.poller.Synced fd := by
    unfold Epoller.Synced
    rw [hunmapped, h.unwatched fd hfresh]
    rfl
  -- a socket that is closed again was never registered
  have hopened : ∀ rest, (((.openSocket fd :: Connector.destroySocket s.connector.socket ++
      [.connect fd]) ++ rest : List Connector.Effect).foldl perform s) =
        rest.foldl perform ((s.perform (.openSocket fd)).perform (.connect fd)) := by
    intro rest
    rw [hspare]
    simp only [List.cons_append, List.nil_append, List.foldl_cons]
  obtain ⟨hpoller, hdescriptors, hdangled⟩ := perform_closeSocket fd
    (s := (s.perform (.openSocket fd)).perform (.connect fd)) hsynced hunmapped
  have hback : (fd :: s.descriptors).erase fd = s.descriptors := List.erase_cons_head fd _
  cases hattempted with
  | inProgress =>
    have hempty : Connector.destroyChannel s.connector.channel = [] := by rw [hnoch]; rfl
    refine h.registers s.connector.channels (pollToEpollEvents (Connector.attemptChannel fd).events)
      hnone hvalid hfresh ?_ ?_ ?_ ?_ ?_ ?_ ?_ ?_
    all_goals rw [absorb_eq]
    · rfl
    · rw [hopened, hempty]
      simp only [List.nil_append, List.foldl_cons, List.foldl_nil, perform, record]
      exact Epoller.updateChannel_of_synced hsynced _
    · rw [hopened, hempty]
      simp only [List.nil_append, List.foldl_cons, List.foldl_nil, perform, record]
    · rw [hopened, hempty]
      simp only [List.nil_append, List.foldl_cons, List.foldl_nil, perform, record]
  | retried =>
    refine h.idle hnone ?_ ?_ ?_ ?_ ?_ ?_ ?_ ?_
    all_goals rw [absorb_eq]
    · exact hnone
    · simp
    · simp
    · rw [hopened, List.foldl_append, (foldl_retryTimer _ _).1]
      exact hpoller
    · rw [hopened, List.foldl_append, (foldl_retryTimer _ _).2.1]
      exact hdescriptors.trans hback
    · rw [hopened, List.foldl_append, (foldl_retryTimer _ _).2.2]
      exact hdangled
  | gaveUp =>
    refine h.idle hnone ?_ ?_ ?_ ?_ ?_ ?_ ?_ ?_
    all_goals rw [absorb_eq]
    · exact hnone
    · simp
    · simp
    · rw [hopened]
      exact hpoller
    · rw [hopened]
      exact hdescriptors.trans hback
    · rw [hopened]
      exact hdangled

/-! ## The calls of the connector -/

theorem Possible.fresh {k : Kernel} (h : s.Possible k) (hvalid : k.connector.socket ≠ Connector.invalidFd) :
    k.connector.socket ∉ s.descriptors := by
  rcases h with hinvalid | ⟨-, hfresh⟩
  · exact absurd hinvalid hvalid
  · exact hfresh

theorem Kept.runConnector_start (h : s.Kept) {k : Kernel} (hk : s.Possible k)
    (hunmapped : k.connector.socket ∉ s.descriptors →
      s.poller.channelMap k.connector.socket = none)
    (hrun : s.runConnector k.connector .startInLoop = .ok s') : s'.Kept := by
  obtain ⟨hstate, hvalid, c, es, hattempted, rfl⟩ := World.runConnector_start hrun
  have hnone : s.channel = none := by
    by_contra hsome
    have hconnecting := h.attempt.mp (Option.isSome_iff_ne_none.mpr hsome)
    rw [hstate] at hconnecting
    exact absurd hconnecting (by simp)
  exact h.attempted hnone hvalid (hk.fresh hvalid) (hunmapped (hk.fresh hvalid)) hattempted

theorem Kept.runConnector_stop (h : s.Kept) (hrun : s.runConnector kc .stopInLoop = .ok s') :
    s'.Kept := by
  obtain ⟨hstate, rfl⟩ | ⟨hstate, rfl⟩ := World.runConnector_stop hrun
  · obtain ⟨⟨n, ch⟩, hch⟩ : ∃ x, s.connector.channel = some x := by
      have hsome := h.attempt.mpr hstate
      simpa [channel, Option.isSome_iff_exists] using hsome
    obtain ⟨hchannel, hsocket, hvalid, hsynced⟩ := h.channel_some hch
    obtain ⟨hpoller, hdescriptors, hdangled⟩ := foldl_release hch hsynced hvalid
    rw [hsocket]
    refine h.cleared hchannel ?_ ?_ ?_ ?_ (Or.inr ?_) ?_ ?_ ?_
    all_goals rw [absorb_eq]
    · rfl
    · simp
    · simp
    · exact hpoller
    · exact hdescriptors
    · exact hdangled
  · have hnone : s.channel = none := by
      by_contra hsome
      exact hstate (h.attempt.mp (Option.isSome_iff_ne_none.mpr hsome))
    refine h.idle hnone ?_ ?_ ?_ ?_ ?_ ?_ ?_ ?_
    all_goals rw [absorb_eq]
    · exact hnone
    · simp
    · exact h.spare hnone
    · rfl
    · rfl
    · rfl

/-- An attempt that fails, or that nobody wants, is released. -/
theorem Kept.settled (h : s.Kept) {n : Nat} {ch : Channel Connector.Handler} {c : Connector}
    {es : List Connector.Effect} (hch : s.connector.channel = some (n, ch))
    (hsettled : Connector.Settled s.connector ch.fd c es) : (s.absorb c es).Kept := by
  obtain ⟨hchannel, hsocket, hvalid, hsynced⟩ := h.channel_some hch
  obtain ⟨hpoller, hdescriptors, hdangled⟩ := foldl_release hch hsynced hvalid
  cases hsettled with
  | failed =>
    refine h.cleared hchannel ?_ ?_ ?_ ?_ (Or.inr ?_) ?_ ?_ ?_
    all_goals rw [absorb_eq]
    · rfl
    · simp
    · simp
    · rw [List.foldl_append, (foldl_retryTimer _ _).1]
      exact hpoller
    · rw [List.foldl_append, (foldl_retryTimer _ _).2.1]
      exact hdescriptors
    · rw [List.foldl_append, (foldl_retryTimer _ _).2.2]
      exact hdangled
  | ignored =>
    refine h.cleared hchannel ?_ ?_ ?_ ?_ (Or.inr ?_) ?_ ?_ ?_
    all_goals rw [absorb_eq]
    · rfl
    · simp
    · simp
    · exact hpoller
    · exact hdescriptors
    · exact hdangled

/-- The socket of the attempt goes to `onConnection`. -/
theorem Kept.handOver (h : s.Kept) {n : Nat} {ch : Channel Connector.Handler}
    (hch : s.connector.channel = some (n, ch)) :
    (s.handOver ch.fd).Kept ∧ (s.handOver ch.fd).channel = none ∧
      (s.handOver ch.fd).poller = s.poller.clear ch.fd ∧
      (s.handOver ch.fd).descriptors = s.descriptors ∧ (s.handOver ch.fd).conns = s.conns := by
  obtain ⟨hchannel, hsocket, hvalid, hsynced⟩ := h.channel_some hch
  obtain ⟨hpoller, hdescriptors, hdangled⟩ := foldl_removal hch hsynced
  have hpoller' : (s.handOver ch.fd).poller = s.poller.clear ch.fd := by
    unfold World.handOver
    rw [absorb_eq, List.foldl_append]
    exact hpoller
  have hdescriptors' : (s.handOver ch.fd).descriptors = s.descriptors := by
    unfold World.handOver
    rw [absorb_eq, List.foldl_append]
    exact hdescriptors
  have hdangled' : (s.handOver ch.fd).dangled = s.dangled := by
    unfold World.handOver
    rw [absorb_eq, List.foldl_append]
    exact hdangled
  have hconns : (s.handOver ch.fd).conns = s.conns := by
    unfold World.handOver
    rw [absorb_eq]
  have hcreated : (s.handOver ch.fd).created = s.created := by
    unfold World.handOver
    rw [absorb_eq]
  refine ⟨h.cleared hchannel rfl ?_ ?_ hpoller' (Or.inl hdescriptors') hdangled' hconns hcreated, rfl,
    hpoller', hdescriptors', hconns⟩
  · exact fun hstate => absurd hstate (by simp [World.handOver, World.absorb])
  · intro fd hfd
    exact ⟨rfl, (Option.some.inj hfd).symm⟩

/-! ## The connections -/

theorem Kept.addConnection (h : s.Kept) {fd : Int} (hnone : s.channel = none)
    (hmem : fd ∈ s.descriptors) (hunused : ∀ j c, s.conns j = some c → c.channel.fd ≠ fd) :
    (s.addConnection fd).Kept := by
  refine
    { h with
      made := ?_
      opened := ?_
      distinct := ?_ }
  · intro j c hc
    change j < s.created + 1 ∧ _
    rcases addConnection_conns_inv hc with ⟨rfl, rfl⟩ | ⟨-, hold⟩
    · exact ⟨Nat.lt_succ_self _, rfl⟩
    · exact ⟨Nat.lt_succ_of_lt (h.made j c hold).1, (h.made j c hold).2⟩
  · intro j c hc
    rcases addConnection_conns_inv hc with ⟨rfl, rfl⟩ | ⟨-, hold⟩
    · refine ⟨hmem, fun id' hch => ?_⟩
      change s.channel = some _ at hch
      rw [hnone] at hch
      exact absurd hch (by simp)
    · exact h.opened j c hold
  · intro i j ci cj hci hcj heq
    rcases addConnection_conns_inv hci with ⟨rfl, rfl⟩ | ⟨-, hi⟩ <;>
      rcases addConnection_conns_inv hcj with ⟨rfl, rfl⟩ | ⟨-, hj⟩
    · rfl
    · exact absurd heq.symm (hunused j cj hj)
    · exact absurd heq (hunused i ci hi)
    · exact h.distinct i j ci cj hi hj heq

/-- The effects of a connection stay within its descriptor. -/
theorem foldl_performConn_within {fd : Int} {es : List TcpConnection.Effect} {s : World}
    (hsynced : s.poller.Synced fd) :
    Epoller.Within (.connection id) fd s.poller (es.foldl (performConn id fd) s).poller := by
  induction es generalizing s with
  | nil => exact .refl hsynced
  | cons e es ih =>
    have hfirst : Epoller.Within (.connection id) fd s.poller (performConn id fd s e).poller := by
      cases e with
      | updateChannel events => exact Epoller.updateChannel_within hsynced events
      | removeChannel => exact Epoller.removeChannel_within hsynced
      | _ => exact .refl hsynced
    exact hfirst.trans (ih hfirst.synced)

theorem Kept.absorbConn_within (h : s.Kept) {c c' : TcpConnection} (hc : s.conns id = some c)
    (hfd : c'.channel.fd = c.channel.fd) (es : List TcpConnection.Effect) :
    Epoller.Within (.connection id) c.channel.fd s.poller (s.absorbConn id c' es).poller := by
  have hsynced : (s.setConn id c').poller.Synced c.channel.fd := h.synced _ (h.opened id c hc).1
  unfold World.absorbConn
  rw [hfd]
  exact foldl_performConn_within hsynced

theorem Kept.absorbConn (h : s.Kept) {c c' : TcpConnection} (hc : s.conns id = some c)
    (hfd : c'.channel.fd = c.channel.fd) (hsocket : c'.socket.fd = c.socket.fd)
    (es : List TcpConnection.Effect) : (s.absorbConn id c' es).Kept := by
  obtain ⟨hopen, hapart⟩ := h.opened id c hc
  have hwithin := h.absorbConn_within hc hfd es
  have hconns : ∀ j d, (s.absorbConn id c' es).conns j = some d →
      ∃ d₀, s.conns j = some d₀ ∧ d.channel.fd = d₀.channel.fd ∧ d.socket.fd = d₀.socket.fd := by
    intro j d hd
    rcases absorbConn_conns_inv hd with ⟨rfl, rfl⟩ | ⟨-, hold⟩
    · exact ⟨c, hc, hfd, hsocket⟩
    · exact ⟨d, hold, rfl, rfl⟩
  have hchannel : (s.absorbConn id c' es).channel = s.channel := by
    unfold channel
    rw [absorbConn_eq]
  have hdescriptors : (s.absorbConn id c' es).descriptors = s.descriptors := by rw [absorbConn_eq]
  refine
    { attempt := ?_
      socket := ?_
      registered := ?_
      only := ?_
      intact := ?_
      spare := ?_
      valid := ?_
      synced := ?_
      unwatched := ?_
      nodup := ?_
      made := ?_
      opened := ?_
      distinct := ?_ }
  · rw [hchannel, absorbConn_eq]
    exact h.attempt
  · rw [hchannel, absorbConn_eq]
    exact h.socket
  · intro n fd hch
    rw [hchannel] at hch
    have hne : fd ≠ c.channel.fd := by
      rintro rfl
      exact hapart n hch
    rw [hwithin.channelMap fd hne, hwithin.kernel fd hne]
    exact h.registered n fd hch
  · intro n fd hmap
    rw [hchannel]
    by_cases hne : fd = c.channel.fd
    · subst hne
      rcases hwithin.mapped with heq | hnone | hself
      · rw [heq] at hmap
        exact h.only n _ hmap
      · rw [hnone] at hmap
        exact absurd hmap (by simp)
      · rw [hself] at hmap
        exact absurd hmap (by simp)
    · rw [hwithin.channelMap fd hne] at hmap
      exact h.only n fd hmap
  · rw [absorbConn_eq]
    exact h.intact
  · rw [hchannel, absorbConn_eq]
    exact h.spare
  · rw [hchannel, hdescriptors]
    exact h.valid
  · intro fd hmem
    rw [hdescriptors] at hmem
    by_cases hne : fd = c.channel.fd
    · subst hne
      exact hwithin.synced
    · have hold := h.synced fd hmem
      unfold Epoller.Synced at hold ⊢
      rw [hwithin.channelMap fd hne, hwithin.kernel fd hne]
      exact hold
  · intro fd hnot
    rw [hdescriptors] at hnot
    rw [hwithin.kernel fd]
    · exact h.unwatched fd hnot
    · rintro rfl
      exact hnot hopen
  · rw [hdescriptors]
    exact h.nodup
  · intro j d hd
    obtain ⟨d₀, hd₀, hdfd, hdsocket⟩ := hconns j d hd
    obtain ⟨hlt, heq⟩ := h.made j d₀ hd₀
    rw [hdfd, hdsocket, absorbConn_eq]
    exact ⟨hlt, heq⟩
  · intro j d hd
    obtain ⟨d₀, hd₀, hdfd, -⟩ := hconns j d hd
    rw [hdfd, hdescriptors, hchannel]
    exact h.opened j d₀ hd₀
  · intro i j ci cj hci hcj heq
    obtain ⟨di, hdi, hifd, -⟩ := hconns i ci hci
    obtain ⟨dj, hdj, hjfd, -⟩ := hconns j cj hcj
    rw [hifd, hjfd] at heq
    exact h.distinct i j di dj hdi hdj heq

/-- A call that keeps what a connection was set up with. -/
theorem Kept.absorbConn_wiring (h : s.Kept) {c c' : TcpConnection} (hc : s.conns id = some c)
    (hwiring : c'.wiring = c.wiring) (es : List TcpConnection.Effect) :
    (s.absorbConn id c' es).Kept :=
  h.absorbConn hc (TcpConnection.wiring_fd hwiring) (congrArg (fun c => c.socket.fd) hwiring) es

/-- A connection is destroyed, and its socket closed. -/
theorem Kept.dropConn (h : s.Kept) {c : TcpConnection} (hc : s.conns id = some c) :
    (s.dropConn id).Kept := by
  obtain ⟨-, hapart⟩ := h.opened id c hc
  have heq : s.dropConn id =
      { s with
        conns := Function.update s.conns id none
        descriptors := s.descriptors.erase c.channel.fd
        poller := s.poller.closeFd c.channel.fd } := by
    unfold World.dropConn
    rw [hc]
    dsimp only
    rw [(h.made id c hc).2]
  have hleft : ∀ fd, fd ≠ c.channel.fd → fd ∈ s.descriptors → fd ∈ s.descriptors.erase c.channel.fd :=
    fun fd hne hmem => (List.mem_erase_of_ne hne).mpr hmem
  have hkernel : ∀ fd, fd ≠ c.channel.fd →
      (s.poller.closeFd c.channel.fd).kernel fd = s.poller.kernel fd :=
    fun fd hne => Function.update_of_ne hne _ _
  rw [heq]
  refine
    { h with
      registered := ?_
      valid := ?_
      synced := ?_
      unwatched := ?_
      nodup := h.nodup.erase _
      made := fun j d hd => h.made j d (update_none_inv hd).2
      opened := ?_
      distinct := fun i j ci cj hci hcj =>
        h.distinct i j ci cj (update_none_inv hci).2 (update_none_inv hcj).2 }
  · intro n fd hch
    obtain ⟨hmap, hasked⟩ := h.registered n fd hch
    refine ⟨hmap, ?_⟩
    change ∃ asked, (s.poller.closeFd c.channel.fd).kernel fd = some (.connector n, asked)
    rw [hkernel]
    · exact hasked
    · rintro rfl
      exact hapart n hch
  · intro n fd hch
    refine ⟨hleft fd ?_ (h.valid n fd hch).1, (h.valid n fd hch).2⟩
    rintro rfl
    exact hapart n hch
  · intro fd hmem
    have hmem' := (h.nodup.mem_erase_iff).mp hmem
    have hold := h.synced fd hmem'.2
    unfold Epoller.Synced at hold ⊢
    rw [hkernel fd hmem'.1]
    exact hold
  · intro fd hnot
    change (s.poller.closeFd c.channel.fd).kernel fd = none
    by_cases hne : fd = c.channel.fd
    · subst hne
      exact Function.update_self _ _ _
    · rw [hkernel fd hne]
      exact h.unwatched fd fun hmem => hnot (hleft fd hne hmem)
  · intro j d hd
    obtain ⟨hj, hold⟩ := update_none_inv hd
    obtain ⟨hmem, happart'⟩ := h.opened j d hold
    refine ⟨hleft _ ?_ hmem, happart'⟩
    intro heq'
    exact hj (h.distinct j id d c hold hc heq')

/-! ## Steps and runs -/

theorem handleWritable_kept (h : s.Kept) (hsome : s.channel.isSome)
    (hrun : s.handleWritable kc = .ok s') : s'.Kept := by
  obtain ⟨⟨n, ch⟩, hch⟩ : ∃ x, s.connector.channel = some x := by
    simpa [channel, Option.isSome_iff_exists] using hsome
  obtain ⟨hchannel, hsocket, -, -⟩ := h.channel_some hch
  obtain ⟨fd, hfd, ⟨-, c, es, hsettled, rfl⟩ | ⟨-, hrun⟩⟩ := handleWritable_ok hrun
  · rw [hsocket] at hfd
    obtain rfl := Option.some.inj hfd
    exact h.settled hch hsettled
  · rw [hsocket] at hfd
    obtain rfl := Option.some.inj hfd
    obtain ⟨hover, hnone, hpoller, hdescriptors, hconns⟩ := h.handOver hch
    obtain ⟨-, c', es, hcall, rfl⟩ := onConnection_ok hrun
    have hadded : ((s.handOver ch.fd).addConnection ch.fd).Kept := by
      refine hover.addConnection hnone ?_ ?_
      · rw [hdescriptors]
        exact (h.valid n ch.fd hchannel).1
      · intro j c hc heq
        rw [hconns] at hc
        exact (h.opened j c hc).2 n (by rw [heq]; exact hchannel)
    exact hadded.absorbConn_wiring (Function.update_self _ _ _) hcall.wiring es

theorem closeCallback_kept (h : s.Kept) {k : Kernel} (hk : s.Possible k)
    (hunmapped : k.connector.socket ∉ s.descriptors →
      s.poller.channelMap k.connector.socket = none)
    (hnone : (s.client.retry && s.client.connectFlag) = true → s.channel = none)
    (hrun : s.closeCallback id k.connector = .ok s') : s'.Kept := by
  obtain ⟨-, ⟨-, rfl⟩ | ⟨hflags, hrun⟩⟩ := closeCallback_ok hrun
  · exact h.of_same rfl rfl rfl rfl rfl rfl rfl rfl rfl
  · have hrewound : (s.forget id).rewind.Kept :=
      h.idle (hnone hflags) (hnone hflags) (by simp [rewind]) (h.spare (hnone hflags)) rfl rfl rfl rfl rfl
    exact hrewound.runConnector_start hk hunmapped hrun

theorem step_kept (hI : s.Kept) (hl : s.KeepsApart l) (he : s.step l = .ok s') : s'.Kept := by
  obtain ⟨hrestarts, hreturns, hunmapped⟩ := hl
  cases step_stepped he with
  | steady h => exact hI.frame h.toFrame
  | timer s₀ k h harmed hdestroying hk hlk hrun =>
    rw [hlk, Option.all_some, decide_eq_true_eq, ← h.poller] at hunmapped
    exact (hI.frame h).runConnector_start hk (fun _ => hunmapped) hrun
  | closure s₀ k task h hk hlk hl hrun =>
    cases task with
    | startInLoop =>
      rw [hlk, Option.all_some, decide_eq_true_eq, ← h.poller] at hunmapped
      exact (hI.frame h.toFrame).runConnector_start hk (fun _ => hunmapped) hrun
    | stopInLoop => exact (hI.frame h.toFrame).runConnector_stop hrun
  | writable s₀ k h hfree hl hrun =>
    have hI₀ := hI.frame h.toFrame
    refine handleWritable_kept hI₀ ?_ hrun
    rw [Option.isSome_iff_ne_none]
    intro hnone
    -- without a channel there is no socket to ask for its error
    obtain ⟨fd, hfd, -⟩ := handleWritable_ok hrun
    have hcallback := (hI₀.spare hnone fd hfd).1
    rw [hfree] at hcallback
    exact absurd hcallback (by simp)
  | returned hl hcallback hrun =>
    subst hrun hl
    have hnone := hreturns hcallback
    refine hI.idle hnone ?_ ?_ ?_ ?_ ?_ ?_ ?_ ?_
    all_goals rw [absorb_eq]
    · exact hnone
    · intro hconnecting
      have hsome := hI.attempt.mpr hconnecting
      rw [hnone] at hsome
      exact absurd hsome (by simp)
    · simp
    all_goals rw [hI.destroySocket_spare hnone]; rfl
  | plain s₀ id c c' es h hc hcall hrun =>
    subst hrun
    exact (hI.frame h.toFrame).absorbConn_wiring hc hcall.wiring es
  | closes s₀ s₁ id c c' cb k h hk hlk hclient hl hc hstate hcb hwiring hclosed hs₁ hrun =>
    have hrecorded : (s₀.record (.handleClose id)).Kept :=
      (hI.frame h.toFrame).of_same rfl rfl rfl rfl rfl rfl rfl rfl rfl
    have hI₁ : s₁.Kept := by
      subst hs₁
      exact hrecorded.absorbConn_wiring hc hwiring _
    split at hrun
    · rename_i hreset
      have hchannel : s₁.channel = s.channel := by
        rw [hs₁]
        unfold channel
        rw [absorbConn_eq]
        exact h.attempt.channel
      have hk₁ : s₁.Possible k := by
        unfold Possible
        rw [hs₁, absorbConn_eq]
        exact hk
      -- the close of the connection stays off the descriptor of the new attempt
      have hunmapped₁ : k.connector.socket ∉ s₁.descriptors →
          s₁.poller.channelMap k.connector.socket = none := by
        intro hfresh
        rw [hlk, Option.all_some, decide_eq_true_eq, ← h.poller] at hunmapped
        have hwithin := hrecorded.absorbConn_within hc (TcpConnection.wiring_fd hwiring)
          [.updateChannel .none, .closeCallback cb]
        rw [hs₁, hwithin.channelMap]
        · exact hunmapped
        · intro heq
          rw [hs₁, absorbConn_eq, heq] at hfresh
          exact hfresh (hrecorded.opened id c hc).1
      refine closeCallback_kept hI₁ hk₁ hunmapped₁ ?_ hrun
      intro hflags
      rw [hs₁, absorbConn_eq] at hflags
      change (s₀.client.retry && s₀.client.connectFlag) = true at hflags
      rw [hclient] at hflags
      have hcs : s.conns id = some c := by rw [← h.conns]; exact hc
      rw [hchannel]
      exact hrestarts (restarts_eq_true hl hcs (by rw [hcb, hreset]) hflags)
    · subst hrun
      exact hI₁
  | destroyed s₀ id c c₁ task h harmed hdestroying hc htask hrun =>
    subst hrun
    refine (hI.frame h).absorbConn hc ?_ ?_ _
    · rcases htask with ⟨-, rfl⟩ | ⟨-, rfl⟩ <;> rfl
    · rcases htask with ⟨-, rfl⟩ | ⟨-, rfl⟩ <;> rfl
  | dropped id hl howned hrun =>
    subst hrun hl
    cases hc : s.conns id with
    | none =>
      unfold World.dropConn
      rw [hc]
      exact hI
    | some c => exact hI.dropConn hc
  | begins t hl hd hrun =>
    subst hrun
    exact hI.of_same rfl rfl rfl rfl rfl rfl rfl rfl rfl
  | reads t id hd hconnection hrun =>
    subst hrun
    exact hI.of_same rfl rfl rfl rfl rfl rfl rfl rfl rfl
  | finishes t hd hrun =>
    subst hrun
    exact hI.of_same rfl rfl rfl rfl rfl rfl rfl rfl rfl

/-- **The connector and the poller agree** in every run in which no attempt is in progress when a close
restarts the connector or when `onConnection` returns, and no stale descriptor is opened. -/
theorem connector_consistent {cfg : Config} {ls : List Label}
    (hapart : Along step KeepsApart (start cfg) ls) (hrun : run step (start cfg) ls = .ok s) :
    s.Consistent :=
  (run_invariant step_kept (start_kept cfg) hapart hrun).toConsistent

/-- A connection is established and closed by the peer, and the connector restarted. -/
def closedThenRestarted : List Label :=
  [.call (.loop 0) (.setRetry true)] ++ callConnect (attempted 5 .einprogress) ++ connected 5 ++
    [.loop (polled [.fd 5 ⟨true, false, false, false, false, false⟩]),
      .loop { attempted 6 .einprogress with read := some [] }]

theorem connector_consistent_closedThenRestarted :
    Along step KeepsApart (start testConfig) closedThenRestarted ∧
      ∃ s, run step (start testConfig) closedThenRestarted = .ok s ∧ s.channel = some (1, 6) ∧
        s.Consistent := by
  have hapart : Along step KeepsApart (start testConfig) closedThenRestarted := by decide +kernel
  have hrun : ∃ s, run step (start testConfig) closedThenRestarted = .ok s ∧
      s.channel = some (1, 6) := by decide +kernel
  obtain ⟨s, hs, hchannel⟩ := hrun
  exact ⟨hapart, s, hs, hchannel, connector_consistent hapart hs⟩

/-- The connection callback stops the client and connects it again. -/
def reconnectedInCallback : List Label :=
  callConnect (attempted 5 .einprogress) ++
    [.loop (polled [.fd 5 ⟨false, true, false, false, false, false⟩]), .loop (polled [])] ++
    callStop ++ callConnect (attempted 6 .einprogress) ++ [.callbackReturns]

/-- **`handleWritable` closes the socket of the new attempt** when `onConnection` returns, with its
channel registered. -/
theorem connector_not_consistent_reconnectedInCallback :
    ∃ s, run step (start testConfig) reconnectedInCallback = .ok s ∧
      s.channel = some (1, 6) ∧ s.connector.socket = none ∧ s.dangled = true ∧ ¬ s.Consistent := by
  have hrun : ∃ s, run step (start testConfig) reconnectedInCallback = .ok s ∧
      (s.channel = some (1, 6) ∧ s.connector.socket = none ∧ s.dangled = true) := by
    decide +kernel
  obtain ⟨s, hs, hchannel, hsocket, hdangled⟩ := hrun
  refine ⟨s, hs, hchannel, hsocket, hdangled, ?_⟩
  intro hconsistent
  have hintact := hconsistent.intact
  rw [hdangled] at hintact
  exact absurd hintact (by simp)

end World

end HyperMuduo.Net.TcpClient
