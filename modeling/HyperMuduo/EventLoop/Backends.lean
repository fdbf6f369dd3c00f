import HyperMuduo.EventLoop.Poller
import Mathlib.Data.List.Nodup

/-!
# `poll` and `epoll` side by side

`HYPERMUDUO_USE_POLL` chooses the back end of a loop, and the rest of the library does not look which
one it is. The two are driven here by the same calls: `PollLoop.step` and `EpollLoop.step` take the
same sequence of interest changes and removals on the same channels, then each polls once under the
same readiness of the descriptors, and `handleEvent` runs on every channel reported.

`Same` holds after every sequence: the same channels are registered, with the same interest. What
differs is the entry of a channel that lost all its interest while registered (`Silent`). `Poller`
complements its descriptor and hears nothing more; `Epoller` leaves it in the epoll set, where
`EPOLLERR` is reported unasked, and the error callback runs. And `epoll_wait` returns no more than
`events_.size()` channels, `poll` all of them.

**`backends_agree_iff`**: the callbacks are the same exactly when every channel that is due one is
among those `epoll_wait` returned, the silent ones apart, which must not be.
-/

namespace HyperMuduo.Net

open HyperMuduo.Lib

/-! ## The kernel -/

/-- What is the case on an open descriptor. -/
structure Readiness where
  readable : Bool
  priority : Bool
  writable : Bool
  error : Bool
  hangUp : Bool
  peerHalfClose : Bool
  deriving DecidableEq, Repr

/-- `poll` on an entry with a non-negative descriptor: the requested conditions, and `POLLERR` and
`POLLHUP` unasked. The descriptor is open, so there is no `POLLNVAL`. -/
def Readiness.toPoll (r : Readiness) (asked : PollEvents) : PollEvents where
  pollin := asked.pollin && r.readable
  pollpri := asked.pollpri && r.priority
  pollout := asked.pollout && r.writable
  pollerr := r.error
  pollhup := r.hangUp
  pollnval := false
  pollrdhup := asked.pollrdhup && r.peerHalfClose

/-- `epoll`, level-triggered: the requested conditions, and `EPOLLERR` and `EPOLLHUP` unasked. -/
def Readiness.toEpoll (r : Readiness) (asked : EpollEvents) : EpollEvents where
  epollin := asked.epollin && r.readable
  epollout := asked.epollout && r.writable
  epollhup := r.hangUp
  epollerr := r.error
  epollpri := asked.epollpri && r.priority
  epollrdhup := asked.epollrdhup && r.peerHalfClose

def EpollEvents.none : EpollEvents := ⟨false, false, false, false, false, false⟩

/-! ## A loop on `Epoller` -/

/-- A call that changes a registration. -/
inductive RegCall (ρ : Type) where
  | interest (c : ρ) (op : Interest)
  | removeChannel (c : ρ)
  deriving DecidableEq, Repr

/-- The poller, the channel objects and `events_.size()`. -/
structure EpollLoop (ρ κ : Type) where
  epoller : Epoller ρ
  objs : ρ → Channel κ
  eventsSize : Nat

variable {ρ κ : Type} [DecidableEq ρ]

namespace EpollLoop

def step (v : EpollLoop ρ κ) : RegCall ρ → EpollLoop ρ κ
  | .interest c op =>
    let ch := op.apply (v.objs c)
    { v with
      epoller := v.epoller.updateChannel c ch.fd ch.events
      objs := Function.update v.objs c ch }
  | .removeChannel c => { v with epoller := v.epoller.removeChannel (v.objs c).fd }

/-- `fillActiveChannels`, over the rest of what `epoll_wait` stored in `events_`. -/
def fillActiveChannels : List (ρ × EpollEvents) → (ρ → Channel κ) → List ρ →
    (ρ → Channel κ) × List ρ
  | [], objs, active => (objs, active)
  | (c, events) :: es, objs, active =>
    fillActiveChannels es
      (Function.update objs c ((objs c).setReturnEvents (setPollEvents events))) (active ++ [c])

/-- What `epoll_wait` stores for the descriptors of `batch`. -/
def stored (v : EpollLoop ρ κ) (ready : Int → Readiness) (batch : List Int) :
    List (ρ × EpollEvents) :=
  batch.filterMap fun fd => (v.epoller.kernel fd).map fun reg => (reg.1, (ready fd).toEpoll reg.2)

/-- `poll`, when `epoll_wait` returns the descriptors of `batch`. -/
def poll (v : EpollLoop ρ κ) (ready : Int → Readiness) (batch : List Int) (active : List ρ) :
    EpollLoop ρ κ × List ρ :=
  let eventsSize := if batch.length = v.eventsSize then v.eventsSize * 2 else v.eventsSize
  let (objs, active) := fillActiveChannels (v.stored ready batch) v.objs active
  ({ v with objs := objs, eventsSize := eventsSize }, active)

/-- `epoll_wait` returns ready descriptors of the set, no more than asked for, and all of them when
that leaves room. -/
structure EpollWait (v : EpollLoop ρ κ) (ready : Int → Readiness) (batch : List Int) : Prop where
  nodup : batch.Nodup
  length : batch.length ≤ v.eventsSize
  sound : ∀ fd ∈ batch, ∃ reg, v.epoller.kernel fd = some reg ∧ (ready fd).toEpoll reg.2 ≠ .none
  complete : batch.length < v.eventsSize → ∀ fd reg, v.epoller.kernel fd = some reg →
    (ready fd).toEpoll reg.2 ≠ .none → fd ∈ batch

end EpollLoop

namespace PollLoop

/-- The same call on `Poller`. -/
def ofRegCall : RegCall ρ → Label ρ
  | .interest c op => .interest c op
  | .removeChannel c => .removeChannel c

/-- What `poll` stores in the entries. -/
def stored (w : PollLoop ρ κ) (ready : Int → Readiness) (i : Nat) : PollEvents :=
  match w.poller.pollFdList[i]? with
  | some e => (ready e.fd).toPoll e.events
  | none => .none

end PollLoop

/-! ## The callbacks of one poll step -/

/-- The callbacks of `c` that `handleEvent` invokes on the channels of `active`. -/
def callsOf (active : List ρ) (objs : ρ → Channel κ) (c : ρ) : List κ :=
  (active.filter (· = c)).flatMap fun d => (objs d).handleEvent

def PollLoop.calls (w : PollLoop ρ κ) (ready : Int → Readiness) (c : ρ) : List κ :=
  callsOf (w.poll (w.stored ready) []).2
    (fun d => ((w.poll (w.stored ready) []).1.objs d).toChannel) c

def EpollLoop.calls (v : EpollLoop ρ κ) (ready : Int → Readiness) (batch : List Int) (c : ρ) :
    List κ :=
  callsOf (v.poll ready batch []).2 (v.poll ready batch []).1.objs c

/-- Some callback of the channel answers to what is the case. -/
def Channel.Due (ch : Channel κ) (r : Readiness) : Prop :=
  (r.error ∧ ch.errorCallback.isSome) ∨
  ((ch.events.pollin ∧ r.readable ∨ ch.events.pollpri ∧ r.priority) ∧ ch.readCallback.isSome) ∨
  ((ch.events.pollout ∧ r.writable) ∧ ch.writeCallback.isSome)

/-- The entry of `c` is complemented: it lost its interest while registered. -/
def PollLoop.Silent (w : PollLoop ρ κ) (c : ρ) : Prop :=
  ∃ (i : Nat) (e : PollFd), (w.objs c).index = i ∧ w.poller.pollFdList[i]? = some e ∧ e.fd < 0

instance (ch : Channel κ) (r : Readiness) : Decidable (ch.Due r) :=
  inferInstanceAs (Decidable (_ ∨ _ ∨ _))

instance (w : PollLoop ρ κ) (c : ρ) : Decidable (w.Silent c) :=
  decidable_of_iff (0 ≤ (w.objs c).index ∧
    ∃ e ∈ w.poller.pollFdList[(w.objs c).index.toNat]?, e.fd < 0) (by
      unfold PollLoop.Silent
      constructor
      · rintro ⟨hpos, e, he, hneg⟩
        exact ⟨_, e, (Int.toNat_of_nonneg hpos).symm, he, hneg⟩
      · rintro ⟨i, e, hi, he, hneg⟩
        have hnat : (w.objs c).index.toNat = i := by omega
        exact ⟨by omega, e, by rw [hnat]; exact he, hneg⟩)

theorem callsOf_eq {active : List ρ} (h : active.Nodup) (objs : ρ → Channel κ) (c : ρ) :
    callsOf active objs c = if c ∈ active then (objs c).handleEvent else [] := by
  unfold callsOf
  by_cases hc : c ∈ active
  · have hone : active.filter (· = c) = [c] := by
      rw [List.filter_eq, List.count_eq_one_of_mem h hc, List.replicate_one]
    rw [hone, if_pos hc, List.flatMap_singleton]
  · have hno : active.filter (· = c) = [] := by
      rw [List.filter_eq, List.count_eq_zero_of_not_mem hc, List.replicate_zero]
    rw [hno, if_neg hc, List.flatMap_nil]

/-- What `handleEvent` invokes for the conditions of a channel's interest. -/
def Channel.answer (ch : Channel κ) (r : Readiness) : List κ :=
  (ch.setReturnEvents (r.toPoll ch.events)).handleEvent

/-- The two translations of the conditions come to the same callbacks. -/
theorem Channel.answer_eq_epoll {ch : Channel κ} (hrdhup : ch.events.pollrdhup = false)
    (r : Readiness) :
    (ch.setReturnEvents (setPollEvents (r.toEpoll (pollToEpollEvents ch.events)))).handleEvent =
      ch.answer r := by
  simp [Channel.answer, handleEvent, setReturnEvents, setPollEvents, pollToEpollEvents,
    Readiness.toPoll, Readiness.toEpoll, hrdhup]

theorem slot_ne_nil (b : Bool) (cb : Option κ) :
    (if b then cb.toList else []) ≠ [] ↔ b ∧ cb.isSome := by
  cases b <;> cases cb <;> simp

theorem Channel.answer_ne_nil {ch : Channel κ} (hrdhup : ch.events.pollrdhup = false)
    (r : Readiness) : ch.answer r ≠ [] ↔ ch.Due r := by
  unfold Channel.answer Channel.Due handleEvent
  simp only [setReturnEvents, Readiness.toPoll, hrdhup, Bool.false_and, Bool.or_false,
    Bool.false_or]
  rw [ne_eq, List.append_eq_nil_iff, List.append_eq_nil_iff, not_and_or, not_and_or]
  rw [← ne_eq, ← ne_eq, ← ne_eq, slot_ne_nil, slot_ne_nil, slot_ne_nil]
  simp only [Bool.or_eq_true, Bool.and_eq_true, or_assoc]

/-- No conditions, no callbacks. -/
theorem Channel.answer_of_none {ch : Channel κ} {r : Readiness} (h : r.toPoll ch.events = .none) :
    ch.answer r = [] := by
  unfold Channel.answer
  rw [h]
  rfl

/-! ## The two registries -/

/-- The same channels are registered, with the same interest. -/
structure Same (w : PollLoop ρ κ) (v : EpollLoop ρ κ) : Prop where
  registry : w.Registry
  channel : ∀ c, (w.objs c).toChannel = v.objs c
  channelMap : v.epoller.channelMap = w.poller.channels
  kernel : ∀ fd, v.epoller.kernel fd =
    (w.poller.channels fd).map fun c => (c, pollToEpollEvents (v.objs c).events)
  rdhup : ∀ c, (v.objs c).events.pollrdhup = false

variable {w w' : PollLoop ρ κ} {v : EpollLoop ρ κ} {c : ρ}

omit [DecidableEq ρ] in
theorem Same.synced (h : Same w v) (fd : Int) : v.epoller.Synced fd := by
  unfold Epoller.Synced
  rw [h.kernel fd, h.channelMap, Option.isSome_map]

theorem Interest.apply_rdhup {ch : Channel κ} (h : ch.events.pollrdhup = false) (op : Interest) :
    (op.apply ch).events.pollrdhup = false := by
  cases op <;> simp [Interest.apply, Channel.listenTillReadable, Channel.listenTillWritable,
    Channel.ignoreReadable, Channel.ignoreWritable, Channel.ignoreAll, PollEvents.union,
    PollEvents.diff, PollEvents.read, PollEvents.write, PollEvents.none, h]

/-- A change of interest. -/
theorem Same.interest (h : Same w v) (c : ρ) (op : Interest) :
    ∃ w', w.step (.interest c op) = .ok w' ∧ Same w' (v.step (.interest c op)) := by
  obtain ⟨hlayout, hcur⟩ := PollLoop.setInterest_layout h.registry c op
  obtain ⟨w', hok, hreg⟩ := PollLoop.updateChannel_registry hlayout hcur
  obtain ⟨hmap, hobjs⟩ := PollLoop.updateChannel_channels hlayout hok
  have hself : ((w.setInterest c op).objs c).toChannel = op.apply (v.objs c) := by
    rw [← h.channel c]
    simp [PollLoop.setInterest]
  have hother : ∀ d, d ≠ c → (w.setInterest c op).objs d = w.objs d :=
    fun d hd => Function.update_of_ne hd _ _
  have hnew : ∀ d, (w'.objs d).toChannel = Function.update v.objs c (op.apply (v.objs c)) d := by
    intro d
    rw [hobjs d]
    by_cases hd : d = c
    · rw [hd, hself, Function.update_self]
    · rw [hother d hd, Function.update_of_ne hd, h.channel d]
  have hfd : ((w.setInterest c op).objs c).fd = (op.apply (v.objs c)).fd := by rw [hself]
  refine ⟨w', hok, hreg, hnew, ?_, ?_, ?_⟩
  · simp only [EpollLoop.step]
    rw [Epoller.updateChannel_of_synced (h.synced _), hmap, hfd, h.channelMap]
    rfl
  · intro fd
    simp only [EpollLoop.step]
    rw [Epoller.updateChannel_of_synced (h.synced _), hmap, hfd]
    by_cases hx : fd = (op.apply (v.objs c)).fd
    · subst hx
      simp only [Function.update_self, Option.map_some]
    · simp only [Function.update_of_ne hx]
      rw [h.kernel fd]
      change Option.map _ (w.poller.channels fd) = Option.map _ (w.poller.channels fd)
      cases hd : w.poller.channels fd with
      | none => rfl
      | some d =>
        have hdc : d ≠ c := by
          rintro rfl
          obtain ⟨hdfd, -⟩ := (h.registry.mapped fd d).mp hd
          rw [h.channel d] at hdfd
          exact hx (by rw [Interest.apply_fd]; exact hdfd.symm)
        simp only [Option.map_some, Function.update_of_ne hdc]
  · intro d
    simp only [EpollLoop.step]
    by_cases hd : d = c
    · rw [hd, Function.update_self]
      exact Interest.apply_rdhup (h.rdhup c) op
    · rw [Function.update_of_ne hd]
      exact h.rdhup d

/-- A removal, of a registered channel or not. -/
theorem Same.removeChannel (h : Same w v) (c : ρ) :
    Same (w.removeChannel c) (v.step (.removeChannel c)) := by
  obtain ⟨hmap, hobjs⟩ := PollLoop.removeChannel_channels h.registry.toLayout c
  have hfd : (w.objs c).fd = (v.objs c).fd := by rw [← h.channel c]
  have hep := Epoller.removeChannel_eq_clear (h.synced (v.objs c).fd)
  refine ⟨PollLoop.removeChannel_registry h.registry c, fun d => ?_, ?_, ?_, h.rdhup⟩
  · rw [hobjs d]
    exact h.channel d
  · simp only [EpollLoop.step, hep, Epoller.clear, hmap, hfd, h.channelMap]
  · intro fd
    simp only [EpollLoop.step, hep, Epoller.clear, hmap, hfd]
    by_cases hx : fd = (v.objs c).fd
    · subst hx
      simp
    · simp only [Function.update_of_ne hx]
      exact h.kernel fd

/-! ## The poll step of `Poller` -/

/-- A registered channel that is not silent answers to its readiness. -/
theorem PollLoop.calls_of_heard (h : Same w v) (ready : Int → Readiness) {i : Nat} {e : PollFd}
    (hi : (w.objs c).index = i) (he : w.poller.pollFdList[i]? = some e) (hpos : 0 ≤ e.fd) :
    w.calls ready c = (v.objs c).answer (ready (v.objs c).fd) := by
  obtain ⟨reported, hrep⟩ := h.registry.reportsExactly (w.stored ready) []
  have hfd : e.fd = (v.objs c).fd := by
    have hentry := h.registry.entry_at hi he
    have hnonneg := h.registry.fd_nonneg c
    unfold complement at hentry
    rw [← h.channel c]
    omega
  have hstored : w.stored ready i = (ready (v.objs c).fd).toPoll (v.objs c).events := by
    unfold PollLoop.stored
    rw [he]
    simp only
    rw [h.registry.current c i e hi he, hfd, ← h.channel c]
  have hmarked : w.Marked (w.stored ready) c ↔
      (ready (v.objs c).fd).toPoll (v.objs c).events ≠ .none := by
    rw [← hstored]
    constructor
    · rintro ⟨j, -, hj, -, -, hne⟩
      obtain rfl : i = j := by omega
      exact hne
    · intro hne
      exact ⟨i, e, hi, he, hpos, hne⟩
  unfold PollLoop.calls
  rw [hrep.appended, List.nil_append, callsOf_eq hrep.nodup]
  by_cases hc : c ∈ reported
  · rw [if_pos hc, hrep.returnEvents c i hc hi, hstored]
    unfold Channel.answer Channel.setReturnEvents
    rw [← h.channel c]
  · rw [if_neg hc, Channel.answer_of_none]
    by_contra hne
    exact hc ((hrep.mem c).mpr (hmarked.mpr hne))

/-- Any other channel is not called. -/
theorem PollLoop.calls_of_unheard (h : Same w v) (ready : Int → Readiness)
    (hno : ¬ ∃ (i : Nat) (e : PollFd), (w.objs c).index = i ∧ w.poller.pollFdList[i]? = some e ∧
      0 ≤ e.fd) : w.calls ready c = [] := by
  obtain ⟨reported, hrep⟩ := h.registry.reportsExactly (w.stored ready) []
  unfold PollLoop.calls
  rw [hrep.appended, List.nil_append, callsOf_eq hrep.nodup, if_neg]
  intro hc
  obtain ⟨i, e, hi, he, hpos, -⟩ := (hrep.mem c).mp hc
  exact hno ⟨i, e, hi, he, hpos⟩

/-! ## The poll step of `Epoller` -/

theorem EpollLoop.fillActiveChannels_active (es : List (ρ × EpollEvents)) :
    ∀ (objs : ρ → Channel κ) (active : List ρ),
      (fillActiveChannels es objs active).2 = active ++ es.map Prod.fst := by
  induction es with
  | nil =>
    intro objs active
    simp [fillActiveChannels]
  | cons e es ih =>
    intro objs active
    rw [fillActiveChannels, ih, List.map_cons, List.append_assoc, List.singleton_append]

theorem EpollLoop.fillActiveChannels_other {es : List (ρ × EpollEvents)}
    (hc : c ∉ es.map Prod.fst) : ∀ (objs : ρ → Channel κ) (active : List ρ),
      (fillActiveChannels es objs active).1 c = objs c := by
  induction es with
  | nil =>
    intro objs active
    rfl
  | cons e es ih =>
    intro objs active
    rw [List.map_cons, List.mem_cons, not_or] at hc
    rw [fillActiveChannels, ih hc.2, Function.update_of_ne hc.1]

theorem EpollLoop.fillActiveChannels_mem {es : List (ρ × EpollEvents)} {events : EpollEvents}
    (hnodup : (es.map Prod.fst).Nodup) (hc : (c, events) ∈ es) :
    ∀ (objs : ρ → Channel κ) (active : List ρ),
      (fillActiveChannels es objs active).1 c =
        (objs c).setReturnEvents (setPollEvents events) := by
  induction es with
  | nil => exact absurd hc List.not_mem_nil
  | cons e es ih =>
    intro objs active
    rw [List.map_cons, List.nodup_cons] at hnodup
    rw [fillActiveChannels]
    rcases List.mem_cons.mp hc with rfl | hrest
    · rw [fillActiveChannels_other hnodup.1, Function.update_self]
    · have hne : c ≠ e.1 := by
        rintro rfl
        exact hnodup.1 (List.mem_map.mpr ⟨_, hrest, rfl⟩)
      rw [ih hnodup.2 hrest, Function.update_of_ne hne]

omit [DecidableEq ρ] in
/-- The channels `epoll_wait` speaks of: those registered on a descriptor of the batch. -/
theorem Same.mem_stored (h : Same w v) (ready : Int → Readiness) (batch : List Int)
    (events : EpollEvents) :
    (c, events) ∈ v.stored ready batch ↔ (v.objs c).fd ∈ batch ∧ (w.objs c).index ≠ notFill ∧
      events = (ready (v.objs c).fd).toEpoll (pollToEpollEvents (v.objs c).events) := by
  unfold EpollLoop.stored
  rw [List.mem_filterMap]
  constructor
  · rintro ⟨fd, hfd, hx⟩
    rw [h.kernel fd, Option.map_map, Option.map_eq_some_iff] at hx
    obtain ⟨d, hd, heq⟩ := hx
    simp only [Function.comp_apply, Prod.mk.injEq] at heq
    obtain ⟨rfl, rfl⟩ := heq
    obtain ⟨hdfd, hreg⟩ := (h.registry.mapped fd d).mp hd
    rw [h.channel d] at hdfd
    subst hdfd
    exact ⟨hfd, hreg, rfl⟩
  · rintro ⟨hfd, hreg, rfl⟩
    refine ⟨_, hfd, ?_⟩
    have hmap : w.poller.channels (v.objs c).fd = some c :=
      (h.registry.mapped _ c).mpr ⟨by rw [← h.channel c], hreg⟩
    rw [h.kernel, hmap]
    rfl

omit [DecidableEq ρ] in
theorem Same.stored_nodup (h : Same w v) (ready : Int → Readiness) {batch : List Int}
    (hbatch : batch.Nodup) : ((v.stored ready batch).map Prod.fst).Nodup := by
  unfold EpollLoop.stored
  rw [List.map_filterMap, List.Nodup, List.pairwise_filterMap]
  refine hbatch.imp ?_
  intro fd fd' hne x hx y hy hxy
  subst hxy
  simp only [h.kernel, Option.map_map, Option.map_eq_some_iff, Function.comp_apply] at hx hy
  obtain ⟨c, hc, rfl⟩ := hx
  obtain ⟨d, hd, rfl⟩ := hy
  exact hne (((h.registry.mapped fd d).mp hc).1.symm.trans ((h.registry.mapped fd' d).mp hd).1)

/-- A registered channel in the batch answers to its readiness. -/
theorem EpollLoop.calls_of_mem (h : Same w v) (ready : Int → Readiness) {batch : List Int}
    (hbatch : batch.Nodup) (hreg : (w.objs c).index ≠ notFill) (hmem : (v.objs c).fd ∈ batch) :
    v.calls ready batch c = (v.objs c).answer (ready (v.objs c).fd) := by
  have hnodup := h.stored_nodup ready hbatch
  have hc := (h.mem_stored ready batch _).mpr ⟨hmem, hreg, rfl⟩
  unfold EpollLoop.calls EpollLoop.poll
  simp only
  rw [fillActiveChannels_active, List.nil_append, callsOf_eq hnodup,
    if_pos (List.mem_map.mpr ⟨_, hc, rfl⟩), fillActiveChannels_mem hnodup hc,
    Channel.answer_eq_epoll (h.rdhup c)]

/-- Any other channel is not called. -/
theorem EpollLoop.calls_of_not_mem (h : Same w v) (ready : Int → Readiness) {batch : List Int}
    (hbatch : batch.Nodup) (hno : ¬ ((v.objs c).fd ∈ batch ∧ (w.objs c).index ≠ notFill)) :
    v.calls ready batch c = [] := by
  unfold EpollLoop.calls EpollLoop.poll
  simp only
  rw [fillActiveChannels_active, List.nil_append, callsOf_eq (h.stored_nodup ready hbatch), if_neg]
  intro hc
  obtain ⟨⟨d, events⟩, hd, rfl⟩ := List.mem_map.mp hc
  obtain ⟨hmem, hreg, -⟩ := (h.mem_stored ready batch events).mp hd
  exact hno ⟨hmem, hreg⟩

/-! ## One channel -/

/-- `Poller` does not know a channel that is not registered. -/
theorem PollLoop.calls_of_unregistered (h : Same w v) (ready : Int → Readiness)
    (hreg : (w.objs c).index = notFill) : w.calls ready c = [] := by
  apply PollLoop.calls_of_unheard h
  rintro ⟨i, -, hi, -⟩
  exact PollLoop.natCast_ne_notFill i (hi.symm.trans hreg)

/-- `Poller` hears every registered channel but the silent ones. -/
theorem PollLoop.calls_of_registered (h : Same w v) (ready : Int → Readiness)
    (hreg : (w.objs c).index ≠ notFill) :
    w.calls ready c = if w.Silent c then [] else (v.objs c).answer (ready (v.objs c).fd) := by
  obtain ⟨i, e, hi, he, -⟩ := h.registry.entry c hreg
  by_cases hs : w.Silent c
  · rw [if_pos hs]
    obtain ⟨j, e', hj, he', hneg⟩ := hs
    obtain rfl : i = j := by omega
    obtain rfl := Option.some.inj (he.symm.trans he')
    apply PollLoop.calls_of_unheard h
    rintro ⟨k, e', hk, he', hpos⟩
    obtain rfl : i = k := by omega
    obtain rfl := Option.some.inj (he.symm.trans he')
    omega
  · rw [if_neg hs]
    refine PollLoop.calls_of_heard h ready hi he ?_
    by_contra hneg
    exact hs ⟨i, e, hi, he, by omega⟩

/-- `Epoller` hears every registered channel that `epoll_wait` returned. -/
theorem EpollLoop.calls_of_registered (h : Same w v) (ready : Int → Readiness) {batch : List Int}
    (hbatch : batch.Nodup) (hreg : (w.objs c).index ≠ notFill) :
    v.calls ready batch c =
      if (v.objs c).fd ∈ batch then (v.objs c).answer (ready (v.objs c).fd) else [] := by
  by_cases hmem : (v.objs c).fd ∈ batch
  · rw [if_pos hmem]
    exact EpollLoop.calls_of_mem h ready hbatch hreg hmem
  · rw [if_neg hmem]
    exact EpollLoop.calls_of_not_mem h ready hbatch fun hin => hmem hin.1

/-- When one channel is called alike. -/
theorem Same.calls_eq_iff (h : Same w v) (ready : Int → Readiness) {batch : List Int}
    (hbatch : batch.Nodup) (c : ρ) :
    w.calls ready c = v.calls ready batch c ↔
      ((w.objs c).index ≠ notFill → (v.objs c).Due (ready (v.objs c).fd) →
        ((v.objs c).fd ∈ batch ↔ ¬ w.Silent c)) := by
  by_cases hreg : (w.objs c).index = notFill
  · rw [PollLoop.calls_of_unregistered h ready hreg,
      EpollLoop.calls_of_not_mem h ready hbatch fun hno => hno.2 hreg]
    exact ⟨fun _ hne => absurd hreg hne, fun _ => rfl⟩
  · rw [PollLoop.calls_of_registered h ready hreg, EpollLoop.calls_of_registered h ready hbatch hreg,
      ← Channel.answer_ne_nil (h.rdhup c)]
    by_cases hs : w.Silent c
    · by_cases hmem : (v.objs c).fd ∈ batch
      · simp [hs, hmem, hreg]
      · simp [hs, hmem]
    · by_cases hmem : (v.objs c).fd ∈ batch
      · simp [hs, hmem]
      · simp [hs, hmem, hreg]

/-! ## Whole sequences -/

theorem Same.step (h : Same w v) (a : RegCall ρ) :
    ∃ w', w.step (PollLoop.ofRegCall a) = .ok w' ∧ Same w' (v.step a) := by
  cases a with
  | interest c op => exact h.interest c op
  | removeChannel c => exact ⟨_, rfl, h.removeChannel c⟩

theorem Same.run (h : Same w v) (calls : List (RegCall ρ)) :
    ∃ w', Lib.run PollLoop.step w (calls.map PollLoop.ofRegCall) = .ok w' ∧
      Same w' (calls.foldl EpollLoop.step v) := by
  induction calls generalizing w v with
  | nil => exact ⟨w, rfl, h⟩
  | cons a calls ih =>
    obtain ⟨w', hw', h'⟩ := h.step a
    obtain ⟨w'', hw'', h''⟩ := ih h'
    exact ⟨w'', (run_cons_ok hw').mpr hw'', h''⟩

/-- A fresh loop on `Epoller` with the channels of a fresh one on `Poller`. -/
def PollLoop.toEpollLoop (w : PollLoop ρ κ) (eventsSize : Nat) : EpollLoop ρ κ where
  epoller := .empty
  objs c := (w.objs c).toChannel
  eventsSize := eventsSize

omit [DecidableEq ρ] in
theorem PollLoop.Initial.same (h : Initial w) (hevents : ∀ c, (w.objs c).events = .none)
    (eventsSize : Nat) : Same w (w.toEpollLoop eventsSize) where
  registry := h.registry
  channel _ := rfl
  channelMap := by
    rw [h.empty]
    rfl
  kernel fd := by
    rw [h.empty]
    rfl
  rdhup c := by
    change (w.objs c).events.pollrdhup = false
    rw [hevents c]
    rfl

/-- **The back ends agree, exactly when.** After every sequence of interest changes and removals, and
under every readiness of the descriptors, one poll step invokes the same callbacks of every channel
with either back end if and only if the channels due a callback are in what `epoll_wait` returned,
the silent ones being the exception. -/
theorem backends_agree_iff {w₀ : PollLoop ρ κ} (h₀ : w₀.Initial)
    (hevents : ∀ c, (w₀.objs c).events = .none) (eventsSize : Nat) (calls : List (RegCall ρ))
    (ready : Int → Readiness) (batch : List Int)
    (hwait : (calls.foldl EpollLoop.step (w₀.toEpollLoop eventsSize)).EpollWait ready batch) :
    ∃ w, run PollLoop.step w₀ (calls.map PollLoop.ofRegCall) = .ok w ∧
      ((∀ c, w.calls ready c =
          (calls.foldl EpollLoop.step (w₀.toEpollLoop eventsSize)).calls ready batch c) ↔
        ∀ c, (w.objs c).index ≠ notFill → (w.objs c).Due (ready (w.objs c).fd) →
          ((w.objs c).fd ∈ batch ↔ ¬ w.Silent c)) := by
  obtain ⟨w, hrun, h⟩ := (h₀.same hevents eventsSize).run calls
  refine ⟨w, hrun, forall_congr' fun c => ?_⟩
  rw [h.channel c]
  exact h.calls_eq_iff ready hwait.nodup c

omit [DecidableEq ρ] in
/-- What is in the epoll set belongs to a channel. -/
theorem Same.kernel_fd (h : Same w v) {fd : Int} {reg : ρ × EpollEvents}
    (hk : v.epoller.kernel fd = some reg) : fd = (v.objs reg.1).fd := by
  rw [h.kernel fd, Option.map_eq_some_iff] at hk
  obtain ⟨c, hc, rfl⟩ := hk
  rw [← h.channel c]
  exact ((h.registry.mapped fd c).mp hc).1.symm

/-- Two channels on the descriptors 3 and 4, with the callbacks 0 (error), 1 (read), 2 (write). -/
def twoChannels : PollLoop Bool Nat where
  poller := ⟨fun _ => none, []⟩
  objs c := ⟨⟨if c then 4 else 3, .none, .none, some 1, some 2, some 0⟩, notFill⟩

theorem twoChannels_initial : twoChannels.Initial := ⟨rfl, by decide, by decide, by decide⟩

/-- One channel is read from, the other one was written to and is not any more. -/
def readerAndIdleWriter : List (RegCall Bool) :=
  [.interest false .listenTillReadable, .interest true .listenTillWritable,
    .interest true .ignoreWritable]

/-- Bytes arrived on one descriptor, and its peer closed the other one. -/
def bytesAndHangUp (fd : Int) : Readiness :=
  if fd = 3 then ⟨true, false, true, false, false, false⟩
  else ⟨false, false, false, false, true, true⟩

/-- There is a pending error on one descriptor. -/
def pendingError (fd : Int) : Readiness :=
  if fd = 4 then ⟨false, false, false, true, false, false⟩
  else ⟨false, false, false, false, false, false⟩

theorem epollWait_twoChannels {ready : Int → Readiness} {batch : List Int}
    (hnodup : batch.Nodup) (hlength : batch.length ≤ 16)
    (hsound : ∀ fd ∈ batch, ∃ reg,
      (readerAndIdleWriter.foldl EpollLoop.step (twoChannels.toEpollLoop 16)).epoller.kernel fd =
        some reg ∧ (ready fd).toEpoll reg.2 ≠ .none)
    (hcomplete : ∀ c reg,
      (readerAndIdleWriter.foldl EpollLoop.step (twoChannels.toEpollLoop 16)).epoller.kernel
        (twoChannels.objs c).fd = some reg →
      (ready (twoChannels.objs c).fd).toEpoll reg.2 ≠ .none → (twoChannels.objs c).fd ∈ batch) :
    (readerAndIdleWriter.foldl EpollLoop.step (twoChannels.toEpollLoop 16)).EpollWait ready batch where
  nodup := hnodup
  length := hlength
  sound := hsound
  complete _ fd reg hk hne := by
    obtain ⟨w, -, h⟩ := (twoChannels_initial.same (by decide) 16).run readerAndIdleWriter
    have hfd : fd = (twoChannels.objs reg.1).fd := by
      rw [h.kernel_fd hk]
      obtain ⟨c, events⟩ := reg
      cases c <;> rfl
    subst hfd
    exact hcomplete reg.1 reg hk hne

theorem backends_agree_bytesAndHangUp :
    ∃ w, run PollLoop.step twoChannels (readerAndIdleWriter.map PollLoop.ofRegCall) = .ok w ∧
      ∀ c, w.calls bytesAndHangUp c =
        (readerAndIdleWriter.foldl EpollLoop.step (twoChannels.toEpollLoop 16)).calls bytesAndHangUp
          [4, 3] c := by
  have hwait : (readerAndIdleWriter.foldl EpollLoop.step (twoChannels.toEpollLoop 16)).EpollWait
      bytesAndHangUp [4, 3] := by
    apply epollWait_twoChannels
    · decide
    · decide
    · intro fd hfd
      rcases List.mem_cons.mp hfd with rfl | hfd
      · exact ⟨_, rfl, by decide⟩
      · obtain rfl := List.mem_singleton.mp hfd
        exact ⟨_, rfl, by decide⟩
    · intro c _ _ _
      cases c <;> decide
  obtain ⟨w, hrun, hiff⟩ := backends_agree_iff twoChannels_initial (by decide) 16 readerAndIdleWriter
    bytesAndHangUp [4, 3] hwait
  refine ⟨w, hrun, hiff.mpr ?_⟩
  have hend : ∃ w, run PollLoop.step twoChannels (readerAndIdleWriter.map PollLoop.ofRegCall) = .ok w ∧
      ∀ c, (w.objs c).index ≠ notFill → (w.objs c).Due (bytesAndHangUp (w.objs c).fd) →
        ((w.objs c).fd ∈ ([4, 3] : List Int) ↔ ¬ w.Silent c) := by
    decide +kernel
  obtain ⟨w', hrun', hcond⟩ := hend
  obtain rfl : w = w' := Except.ok.inj (hrun.symm.trans hrun')
  exact hcond

/-- The channel that lost its interest has an error pending: `Epoller` invokes its error callback,
`Poller` does not. -/
theorem backends_disagree_pendingError :
    ∃ w, run PollLoop.step twoChannels (readerAndIdleWriter.map PollLoop.ofRegCall) = .ok w ∧
      (readerAndIdleWriter.foldl EpollLoop.step (twoChannels.toEpollLoop 16)).EpollWait
        pendingError [4] ∧
      w.calls pendingError true = [] ∧
      (readerAndIdleWriter.foldl EpollLoop.step (twoChannels.toEpollLoop 16)).calls pendingError [4]
        true = [0] := by
  have hwait : (readerAndIdleWriter.foldl EpollLoop.step (twoChannels.toEpollLoop 16)).EpollWait
      pendingError [4] := by
    apply epollWait_twoChannels
    · decide
    · decide
    · intro fd hfd
      obtain rfl := List.mem_singleton.mp hfd
      exact ⟨_, rfl, by decide⟩
    · intro c reg _ hne
      cases c with
      | false => exact absurd (by simp [Readiness.toEpoll, pendingError, twoChannels, EpollEvents.none]) hne
      | true => decide
  have hend : ∃ w, run PollLoop.step twoChannels (readerAndIdleWriter.map PollLoop.ofRegCall) = .ok w ∧
      w.calls pendingError true = [] := by decide +kernel
  obtain ⟨w, hrun, hpoll⟩ := hend
  exact ⟨w, hrun, hwait, hpoll, by decide +kernel⟩

end HyperMuduo.Net
