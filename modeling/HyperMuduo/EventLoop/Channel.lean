import HyperMuduo.Lib.Vector

/-!
# Threads, `Channel` and `Epoller`

Model of the parts of `net/EventLoop`, `net/Channel` and `net/Epoller` that a connection is built
on. Every loop has the thread that created it (`ThreadId.loop`); `assertInLoopThread` aborts on any
other.

* `PollEvents` is an `int` of `poll` condition bits, one field per bit the library names.
* A `Channel` keeps the interest set, the conditions the poller reported, and the callback slots.
  The callbacks are closures of the owner; here a slot holds the name `κ` of the function it calls,
  so that which callbacks an owner installs is data. `handleEvent` is the list of callbacks it calls,
  in order.
* An `Epoller` is the map `channel_map_` together with the kernel's epoll set. `EPOLL_CTL_ADD` of a
  descriptor in the set and `EPOLL_CTL_MOD` of one outside it fail and change nothing.
-/

namespace HyperMuduo.Net

open HyperMuduo.Lib

/-! ## Threads -/

/-- An `EventLoop`. -/
abbrev LoopId := Nat

/-- A thread: the one a loop was created in, or any other. -/
inductive ThreadId where
  | loop (l : LoopId)
  | user (n : Nat)
  deriving DecidableEq, Repr

def isInLoopThread (l : LoopId) (t : ThreadId) : Bool := t = .loop l

def assertInLoopThread (l : LoopId) (t : ThreadId) : Except Fault Unit :=
  if isInLoopThread l t then .ok () else .error .abort

@[simp] theorem isInLoopThread_self (l : LoopId) : isInLoopThread l (.loop l) = true := by
  simp [isInLoopThread]

@[simp] theorem assertInLoopThread_self (l : LoopId) : assertInLoopThread l (.loop l) = .ok () := by
  simp [assertInLoopThread]

theorem assert_inv {l : LoopId} {t : ThreadId} (h : assertInLoopThread l t = .ok ()) :
    isInLoopThread l t = true := by
  unfold assertInLoopThread at h
  split at h
  · assumption
  · exact absurd h (by simp)

/-! ## Condition bits -/

/-- A set of `poll` condition bits. -/
structure PollEvents where
  pollin : Bool
  pollpri : Bool
  pollout : Bool
  pollerr : Bool
  pollhup : Bool
  pollnval : Bool
  pollrdhup : Bool
  deriving DecidableEq, Repr

namespace PollEvents

/-- `kNoneEvent`. -/
def none : PollEvents := ⟨false, false, false, false, false, false, false⟩

/-- `kReadEvent = POLLIN | POLLPRI`. -/
def read : PollEvents := { none with pollin := true, pollpri := true }

/-- `kWriteEvent = POLLOUT`. -/
def write : PollEvents := { none with pollout := true }

/-- `a | b`. -/
def union (a b : PollEvents) : PollEvents :=
  ⟨a.pollin || b.pollin, a.pollpri || b.pollpri, a.pollout || b.pollout, a.pollerr || b.pollerr,
    a.pollhup || b.pollhup, a.pollnval || b.pollnval, a.pollrdhup || b.pollrdhup⟩

/-- `a & ~b`. -/
def diff (a b : PollEvents) : PollEvents :=
  ⟨a.pollin && !b.pollin, a.pollpri && !b.pollpri, a.pollout && !b.pollout,
    a.pollerr && !b.pollerr, a.pollhup && !b.pollhup, a.pollnval && !b.pollnval,
    a.pollrdhup && !b.pollrdhup⟩

end PollEvents

/-! ## `Channel` -/

structure Channel (κ : Type) where
  fd : Int
  events : PollEvents
  returnEvents : PollEvents
  readCallback : Option κ
  writeCallback : Option κ
  errorCallback : Option κ
  deriving DecidableEq, Repr

namespace Channel

variable {κ : Type}

/-- `Channel(loop, fd)`: no interest, no callback. -/
def construct (fd : Int) : Channel κ :=
  ⟨fd, .none, .none, .none, .none, .none⟩

def setReadCallback (ch : Channel κ) (cb : κ) : Channel κ := { ch with readCallback := some cb }

def setWriteCallback (ch : Channel κ) (cb : κ) : Channel κ := { ch with writeCallback := some cb }

def setReturnEvents (ch : Channel κ) (revents : PollEvents) : Channel κ :=
  { ch with returnEvents := revents }

def listenTillReadable (ch : Channel κ) : Channel κ :=
  { ch with events := ch.events.union .read }

def listenTillWritable (ch : Channel κ) : Channel κ :=
  { ch with events := ch.events.union .write }

def ignoreReadable (ch : Channel κ) : Channel κ := { ch with events := ch.events.diff .read }

def ignoreWritable (ch : Channel κ) : Channel κ := { ch with events := ch.events.diff .write }

def ignoreAll (ch : Channel κ) : Channel κ := { ch with events := .none }

def isWriting (ch : Channel κ) : Bool := ch.events.pollout

def isNoneEvent (ch : Channel κ) : Bool := ch.events = .none

/-- The callbacks `handleEvent` calls, in order: error, read, write. -/
def handleEvent (ch : Channel κ) : List κ :=
  (if ch.returnEvents.pollnval || ch.returnEvents.pollerr then ch.errorCallback.toList else []) ++
  (if ch.returnEvents.pollin || ch.returnEvents.pollpri || ch.returnEvents.pollrdhup then
    ch.readCallback.toList else []) ++
  (if ch.returnEvents.pollout then ch.writeCallback.toList else [])

end Channel

/-! ## `Epoller` -/

/-- A set of `epoll` condition bits. -/
structure EpollEvents where
  epollin : Bool
  epollout : Bool
  epollhup : Bool
  epollerr : Bool
  epollpri : Bool
  epollrdhup : Bool
  deriving DecidableEq, Repr

/-- `pollToEpollEvents`: the interest registered with the kernel, `EPOLLRDHUP` always included. -/
def pollToEpollEvents (e : PollEvents) : EpollEvents where
  epollin := e.pollin
  epollout := e.pollout
  epollhup := e.pollhup
  epollerr := e.pollerr
  epollpri := e.pollpri
  epollrdhup := true

/-- `setPollEvents`: what the kernel reported, as `poll` bits. `EPOLLRDHUP` becomes `POLLHUP`. -/
def setPollEvents (e : EpollEvents) : PollEvents where
  pollin := e.epollin
  pollpri := e.epollpri
  pollout := e.epollout
  pollerr := e.epollerr
  pollhup := e.epollhup || e.epollrdhup
  pollnval := false
  pollrdhup := false

/-- The kernel reports requested conditions, and `EPOLLERR` and `EPOLLHUP` unasked. -/
def EpollEvents.MayReport (asked got : EpollEvents) : Prop :=
  (got.epollin → asked.epollin) ∧ (got.epollpri → asked.epollpri) ∧
    (got.epollout → asked.epollout) ∧ (got.epollrdhup → asked.epollrdhup)

instance (asked got : EpollEvents) : Decidable (asked.MayReport got) :=
  inferInstanceAs (Decidable (_ ∧ _ ∧ _ ∧ _))

/-- `channel_map_` and the kernel's epoll set; `ρ` is what a `Channel*` refers to. -/
structure Epoller (ρ : Type) where
  channelMap : Int → Option ρ
  kernel : Int → Option (ρ × EpollEvents)

namespace Epoller

variable {ρ : Type}

def empty : Epoller ρ := ⟨fun _ => none, fun _ => none⟩

def updateChannel (ep : Epoller ρ) (ptr : ρ) (fd : Int) (events : PollEvents) : Epoller ρ :=
  if (ep.channelMap fd).isSome then
    -- EPOLL_CTL_MOD
    if (ep.kernel fd).isSome then
      ⟨Function.update ep.channelMap fd (some ptr),
        Function.update ep.kernel fd (some (ptr, pollToEpollEvents events))⟩
    else ep
  else
    -- EPOLL_CTL_ADD
    if (ep.kernel fd).isSome then ep
    else
      ⟨Function.update ep.channelMap fd (some ptr),
        Function.update ep.kernel fd (some (ptr, pollToEpollEvents events))⟩

def removeChannel (ep : Epoller ρ) (fd : Int) : Epoller ρ :=
  if (ep.channelMap fd).isSome then
    ⟨Function.update ep.channelMap fd none, Function.update ep.kernel fd none⟩
  else ep

/-- The descriptor is closed: the kernel forgets it, `channel_map_` does not. -/
def closeFd (ep : Epoller ρ) (fd : Int) : Epoller ρ :=
  { ep with kernel := Function.update ep.kernel fd none }

/-- `channel_map_` and the kernel agree on `fd`: the descriptor is open and was only ever registered
through this poller. -/
def Synced (ep : Epoller ρ) (fd : Int) : Prop :=
  (ep.channelMap fd).isSome = (ep.kernel fd).isSome

variable {ep : Epoller ρ} {ptr : ρ} {fd : Int}

/-- On an agreed descriptor `updateChannel` registers the interest it is given. -/
theorem updateChannel_of_synced (h : ep.Synced fd) (events : PollEvents) :
    ep.updateChannel ptr fd events =
      ⟨Function.update ep.channelMap fd (some ptr),
        Function.update ep.kernel fd (some (ptr, pollToEpollEvents events))⟩ := by
  unfold updateChannel
  unfold Synced at h
  cases hm : (ep.channelMap fd).isSome
  · rw [hm] at h
    rw [← h]
    simp
  · rw [hm] at h
    rw [← h]
    simp

theorem updateChannel_synced (h : ep.Synced fd) (events : PollEvents) :
    (ep.updateChannel ptr fd events).Synced fd := by
  rw [updateChannel_of_synced h]
  simp [Synced]

/-- The entries of other descriptors stay as they are. -/
theorem updateChannel_channelMap_of_ne {fd' : Int} (hne : fd' ≠ fd) (events : PollEvents) :
    (ep.updateChannel ptr fd events).channelMap fd' = ep.channelMap fd' := by
  unfold updateChannel
  split
  · split
    · exact Function.update_of_ne hne _ _
    · rfl
  · split
    · rfl
    · exact Function.update_of_ne hne _ _

theorem removeChannel_kernel (h : ep.Synced fd) : (ep.removeChannel fd).kernel fd = none := by
  unfold removeChannel
  unfold Synced at h
  split
  · simp
  · rename_i hm
    rw [h] at hm
    simpa using hm

theorem removeChannel_channelMap (ep : Epoller ρ) (fd : Int) :
    (ep.removeChannel fd).channelMap fd = none := by
  unfold removeChannel
  split
  · simp
  · rename_i hm
    simpa using hm

theorem removeChannel_synced (h : ep.Synced fd) : (ep.removeChannel fd).Synced fd := by
  unfold Synced
  rw [removeChannel_kernel h, removeChannel_channelMap]
  rfl

/-! ### One descriptor at a time -/

/-- The poller without a descriptor. -/
def clear (ep : Epoller ρ) (fd : Int) : Epoller ρ :=
  ⟨Function.update ep.channelMap fd none, Function.update ep.kernel fd none⟩

/-- Interest is set, and the channel removed. -/
theorem removeChannel_updateChannel (h : ep.Synced fd) (events : PollEvents) :
    (ep.updateChannel ptr fd events).removeChannel fd = ep.clear fd := by
  rw [updateChannel_of_synced h]
  simp [removeChannel, clear]

/-- On an agreed descriptor `removeChannel` clears it, registered or not. -/
theorem removeChannel_eq_clear (h : ep.Synced fd) : ep.removeChannel fd = ep.clear fd := by
  unfold removeChannel
  split
  · rfl
  · rename_i hm
    have hmap : ep.channelMap fd = none := by simpa using hm
    have hkernel : ep.kernel fd = none := by
      unfold Synced at h
      rw [hmap] at h
      simpa using h.symm
    unfold clear
    rw [Function.update_eq_self_iff.mpr hmap.symm, Function.update_eq_self_iff.mpr hkernel.symm]

theorem closeFd_of_unmapped (h : ep.Synced fd) (hmap : ep.channelMap fd = none) :
    ep.closeFd fd = ep := by
  have hkernel : ep.kernel fd = none := by
    unfold Synced at h
    rw [hmap] at h
    simpa using h.symm
  unfold closeFd
  rw [← hkernel, Function.update_eq_self]

/-- What happens to a poller on behalf of one pointer and its descriptor. -/
structure Within (ptr : ρ) (fd : Int) (ep ep' : Epoller ρ) : Prop where
  channelMap : ∀ fd', fd' ≠ fd → ep'.channelMap fd' = ep.channelMap fd'
  kernel : ∀ fd', fd' ≠ fd → ep'.kernel fd' = ep.kernel fd'
  synced : ep'.Synced fd
  mapped : ep'.channelMap fd = ep.channelMap fd ∨ ep'.channelMap fd = none ∨
    ep'.channelMap fd = some ptr

theorem Within.refl (h : ep.Synced fd) : Within ptr fd ep ep :=
  ⟨fun _ _ => rfl, fun _ _ => rfl, h, Or.inl rfl⟩

theorem Within.trans {ep' ep'' : Epoller ρ} (h : Within ptr fd ep ep') (h' : Within ptr fd ep' ep'') :
    Within ptr fd ep ep'' where
  channelMap fd' hne := (h'.channelMap fd' hne).trans (h.channelMap fd' hne)
  kernel fd' hne := (h'.kernel fd' hne).trans (h.kernel fd' hne)
  synced := h'.synced
  mapped := by
    rcases h'.mapped with heq | hrest
    · rw [heq]
      exact h.mapped
    · exact Or.inr hrest

theorem updateChannel_within (h : ep.Synced fd) (events : PollEvents) :
    Within ptr fd ep (ep.updateChannel ptr fd events) := by
  have hsynced : (ep.updateChannel ptr fd events).Synced fd := updateChannel_synced h events
  rw [updateChannel_of_synced h] at hsynced ⊢
  refine ⟨fun fd' hne => Function.update_of_ne hne _ _, fun fd' hne => Function.update_of_ne hne _ _,
    hsynced, Or.inr (Or.inr ?_)⟩
  exact Function.update_self _ _ _

theorem removeChannel_within (h : ep.Synced fd) : Within ptr fd ep (ep.removeChannel fd) := by
  have hsynced := removeChannel_synced h
  refine ⟨?_, ?_, hsynced, Or.inr (Or.inl (removeChannel_channelMap ep fd))⟩
  · intro fd' hne
    unfold removeChannel
    split
    · exact Function.update_of_ne hne _ _
    · rfl
  · intro fd' hne
    unfold removeChannel
    split
    · exact Function.update_of_ne hne _ _
    · rfl

end Epoller

end HyperMuduo.Net
