import HyperMuduo.EventLoop.Channel
import HyperMuduo.Lib.Run
import Mathlib.Data.Set.Function

/-!
# The `poll` back end

Model of `net/Poller`: the vector `pollFdList_` handed to `poll(2)` and the map `channels_` from
descriptors to channels. A channel remembers its position in the vector in `index_`, so the poller
and the channel objects change together: a `PollLoop` is both, `ρ` being what a `Channel*` refers
to. The calls are made on the loop's thread.

`removeChannel` fills the hole with the last entry and has to find the channel of that entry through
its descriptor, which is complemented when the channel has no interest.

`Registry` is the invariant: positions and registered channels are in bijection, and every entry
holds the interest and the descriptor of its channel. **`registry_exact`**: it holds after every run,
and `fillActiveChannels` then reports exactly the channels whose entries the kernel marked.
-/

namespace HyperMuduo.Net

open HyperMuduo.Lib

/-- `pollfd`. -/
structure PollFd where
  fd : Int
  events : PollEvents
  revents : PollEvents
  deriving DecidableEq, Repr

/-- `Channel::NOT_FILL`. -/
def notFill : Int := -1

/-- `~fd`. -/
def complement (fd : Int) : Int := -fd - 1

/-- A `Channel` with its `index_`. -/
structure PolledChannel (κ : Type) extends Channel κ where
  index : Int
  deriving DecidableEq, Repr

/-- The operations of `Channel` that change the interest and notify the loop. -/
inductive Interest where
  | listenTillReadable
  | listenTillWritable
  | ignoreReadable
  | ignoreWritable
  | ignoreAll
  deriving DecidableEq, Repr

def Interest.apply {κ : Type} (ch : Channel κ) : Interest → Channel κ
  | listenTillReadable => ch.listenTillReadable
  | listenTillWritable => ch.listenTillWritable
  | ignoreReadable => ch.ignoreReadable
  | ignoreWritable => ch.ignoreWritable
  | ignoreAll => ch.ignoreAll

@[simp] theorem Interest.apply_fd {κ : Type} (ch : Channel κ) (op : Interest) :
    (op.apply ch).fd = ch.fd := by
  cases op <;> rfl

structure Poller (ρ : Type) where
  channels : Int → Option ρ
  pollFdList : List PollFd

/-- The poller and the channel objects of one loop. -/
structure PollLoop (ρ κ : Type) where
  poller : Poller ρ
  objs : ρ → PolledChannel κ

namespace PollLoop

variable {ρ κ : Type} [DecidableEq ρ]

def setIndex (objs : ρ → PolledChannel κ) (c : ρ) (index : Int) : ρ → PolledChannel κ :=
  Function.update objs c { objs c with index := index }

def setReturnEvents (objs : ρ → PolledChannel κ) (c : ρ) (revents : PollEvents) :
    ρ → PolledChannel κ :=
  Function.update objs c { objs c with returnEvents := revents }

def updateChannel (w : PollLoop ρ κ) (c : ρ) : Except Fault (PollLoop ρ κ) :=
  let ch := w.objs c
  let list := w.poller.pollFdList
  if ch.index = notFill then
    .ok ⟨⟨Function.update w.poller.channels ch.fd (some c), list ++ [⟨ch.fd, ch.events, .none⟩]⟩,
      setIndex w.objs c list.length⟩
  else if 0 ≤ ch.index ∧ ch.index < list.length then
    let fd := if ch.isNoneEvent then complement ch.fd else ch.fd
    .ok { w with poller :=
      { w.poller with pollFdList := list.set ch.index.toNat ⟨fd, ch.events, .none⟩ } }
  else .error .outOfBounds

/-- The last entry is swapped into position `index`, and its channel told so. -/
def moveLast (w : PollLoop ρ κ) (index : Nat) : PollLoop ρ κ :=
  let list := vecSwap w.poller.pollFdList index (w.poller.pollFdList.length - 1)
  match list[index]? with
  | none => w
  | some e =>
    let fd := if e.fd < 0 then complement e.fd else e.fd
    match w.poller.channels fd with
    | some d => ⟨{ w.poller with pollFdList := list }, setIndex w.objs d index⟩
    | none => { w with poller := { w.poller with pollFdList := list } }

def removeChannel (w : PollLoop ρ κ) (c : ρ) : PollLoop ρ κ :=
  let index := (w.objs c).index
  if index < 0 ∨ w.poller.pollFdList.length ≤ index then w
  else
    let w := if index < w.poller.pollFdList.length - 1 then w.moveLast index.toNat else w
    ⟨⟨Function.update w.poller.channels (w.objs c).fd none, w.poller.pollFdList.dropLast⟩,
      setIndex w.objs c notFill⟩

/-- `fillActiveChannels`, over the entries still to be looked at. -/
def fillActiveChannels (channels : Int → Option ρ) :
    List PollFd → Nat → (ρ → PolledChannel κ) → List ρ → (ρ → PolledChannel κ) × List ρ
  | [], _, objs, active => (objs, active)
  | _ :: _, 0, objs, active => (objs, active)
  | e :: es, n + 1, objs, active =>
    if e.revents ≠ .none then
      match channels e.fd with
      | some c =>
        if (objs c).fd = e.fd then
          fillActiveChannels channels es n (setReturnEvents objs c e.revents) (active ++ [c])
        else fillActiveChannels channels es n objs active
      | none => fillActiveChannels channels es n objs active
    else fillActiveChannels channels es (n + 1) objs active

/-- What the kernel stores in `revents`: `stored i` at position `i`, nothing in an entry with a
negative descriptor. -/
def storeRevents (list : List PollFd) (stored : Nat → PollEvents) : List PollFd :=
  list.mapIdx fun i e => { e with revents := if e.fd < 0 then .none else stored i }

/-- `poll`: the channels reported are added to `active`. -/
def poll (w : PollLoop ρ κ) (stored : Nat → PollEvents) (active : List ρ) :
    PollLoop ρ κ × List ρ :=
  let list := storeRevents w.poller.pollFdList stored
  let numEvents := list.countP fun e => e.revents ≠ .none
  let (objs, active) := fillActiveChannels w.poller.channels list numEvents w.objs active
  (⟨{ w.poller with pollFdList := list }, objs⟩, active)

/-- A call on the poller. -/
inductive Label (ρ : Type) where
  /-- A channel changes its interest, and `notifyLoop` passes it on. -/
  | interest (c : ρ) (op : Interest)
  | updateChannel (c : ρ)
  | removeChannel (c : ρ)
  | poll (stored : Nat → PollEvents)

def setInterest (w : PollLoop ρ κ) (c : ρ) (op : Interest) : PollLoop ρ κ :=
  { w with objs := Function.update w.objs c { w.objs c with toChannel := op.apply (w.objs c).toChannel } }

def step (w : PollLoop ρ κ) : Label ρ → Except Fault (PollLoop ρ κ)
  | .interest c op => (w.setInterest c op).updateChannel c
  | .updateChannel c => w.updateChannel c
  | .removeChannel c => .ok (w.removeChannel c)
  | .poll stored => .ok (w.poll stored []).1

/-- No channel is registered yet, and their descriptors are distinct. -/
structure Initial (w : PollLoop ρ κ) : Prop where
  empty : w.poller = ⟨fun _ => none, []⟩
  index : ∀ c, (w.objs c).index = notFill
  fd_nonneg : ∀ c, 0 ≤ (w.objs c).fd
  fd_inj : ∀ c d, (w.objs c).fd = (w.objs d).fd → c = d

/-! ## The invariant -/

/-- Registered channels, positions of the vector and entries of the map correspond. -/
structure Layout (w : PollLoop ρ κ) : Prop where
  fd_nonneg : ∀ c, 0 ≤ (w.objs c).fd
  fd_inj : ∀ c d, (w.objs c).fd = (w.objs d).fd → c = d
  mapped : ∀ fd c, w.poller.channels fd = some c ↔ (w.objs c).fd = fd ∧ (w.objs c).index ≠ notFill
  owner : ∀ i, i < w.poller.pollFdList.length → ∃ c, (w.objs c).index = (i : Int)
  index_inj : ∀ c d, (w.objs c).index = (w.objs d).index → (w.objs c).index ≠ notFill → c = d
  entry : ∀ c, (w.objs c).index ≠ notFill → ∃ (i : Nat) (e : PollFd), (w.objs c).index = i ∧
    w.poller.pollFdList[i]? = some e ∧ (e.fd = (w.objs c).fd ∨ e.fd = complement (w.objs c).fd)

/-- The entry of `c` holds its interest. -/
def Current (w : PollLoop ρ κ) (c : ρ) : Prop :=
  ∀ (i : Nat) (e : PollFd), (w.objs c).index = i → w.poller.pollFdList[i]? = some e →
    e.events = (w.objs c).events

structure Registry (w : PollLoop ρ κ) : Prop extends Layout w where
  current : ∀ c, w.Current c

variable {w w' : PollLoop ρ κ} {c : ρ}

theorem natCast_ne_notFill (i : Nat) : (i : Int) ≠ notFill := by
  unfold notFill
  omega

omit [DecidableEq ρ] in
theorem Layout.index_lt (h : Layout w) {i : Nat} (hi : (w.objs c).index = i) :
    i < w.poller.pollFdList.length := by
  obtain ⟨j, e, hj, he, -⟩ := h.entry c (by rw [hi]; exact natCast_ne_notFill i)
  obtain rfl : i = j := by omega
  exact (List.getElem?_eq_some_iff.mp he).1

omit [DecidableEq ρ] in
/-- The entry at the position of a channel is its own. -/
theorem Layout.entry_at (h : Layout w) {i : Nat} {e : PollFd} (hi : (w.objs c).index = i)
    (he : w.poller.pollFdList[i]? = some e) :
    e.fd = (w.objs c).fd ∨ e.fd = complement (w.objs c).fd := by
  obtain ⟨j, e', hj, he', hfd⟩ := h.entry c (by rw [hi]; exact natCast_ne_notFill i)
  obtain rfl : i = j := by omega
  obtain rfl : e = e' := by rw [he] at he'; exact Option.some.inj he'
  exact hfd

omit [DecidableEq ρ] in
theorem Initial.registry (h : Initial w) : Registry w where
  fd_nonneg := h.fd_nonneg
  fd_inj := h.fd_inj
  mapped fd c := by
    rw [h.empty]
    simp [h.index c]
  owner i hi := by
    rw [h.empty] at hi
    exact absurd hi (Nat.not_lt_zero i)
  index_inj c d _ hne := absurd (h.index c) hne
  entry c hne := absurd (h.index c) hne
  current c i e hi _ := by
    rw [h.index c] at hi
    exact absurd hi.symm (natCast_ne_notFill i)

/-! ## `updateChannel` -/

@[simp] theorem setIndex_self (objs : ρ → PolledChannel κ) (c : ρ) (i : Int) :
    setIndex objs c i c = { objs c with index := i } := by
  simp [setIndex]

theorem setIndex_of_ne (objs : ρ → PolledChannel κ) {c d : ρ} (h : d ≠ c) (i : Int) :
    setIndex objs c i d = objs d := by
  simp [setIndex, h]

@[simp] theorem setIndex_toChannel (objs : ρ → PolledChannel κ) (c d : ρ) (i : Int) :
    (setIndex objs c i d).toChannel = (objs d).toChannel := by
  by_cases hd : d = c
  · subst hd
    simp
  · rw [setIndex_of_ne _ hd]

/-- What the first `updateChannel` of a channel does: it gets the entry at the end of the vector. -/
structure Appended (w : PollLoop ρ κ) (c : ρ) (w' : PollLoop ρ κ) : Prop where
  channels : w'.poller.channels = Function.update w.poller.channels (w.objs c).fd (some c)
  list : w'.poller.pollFdList = w.poller.pollFdList ++ [⟨(w.objs c).fd, (w.objs c).events, .none⟩]
  self : w'.objs c = { w.objs c with index := w.poller.pollFdList.length }
  other : ∀ d, d ≠ c → w'.objs d = w.objs d

theorem updateChannel_appended (hc : (w.objs c).index = notFill) :
    ∃ w', w.updateChannel c = .ok w' ∧ Appended w c w' :=
  ⟨_, if_pos hc, rfl, rfl, setIndex_self _ _ _, fun _ hd => setIndex_of_ne _ hd _⟩

theorem Appended.fd (ha : Appended w c w') (d : ρ) : (w'.objs d).fd = (w.objs d).fd := by
  by_cases hd : d = c
  · rw [hd, ha.self]
  · rw [ha.other d hd]

theorem Appended.mapped (h : Layout w) (hc : (w.objs c).index = notFill) (ha : Appended w c w')
    (fd : Int) (d : ρ) :
    w'.poller.channels fd = some d ↔ (w'.objs d).fd = fd ∧ (w'.objs d).index ≠ notFill := by
  rw [ha.fd, ha.channels]
  by_cases hd : d = c
  · subst hd
    have hreg : (w'.objs d).index ≠ notFill := by
      rw [ha.self]
      exact natCast_ne_notFill _
    have hunmapped : w.poller.channels fd ≠ some d := fun hm => ((h.mapped fd d).mp hm).2 hc
    by_cases hx : fd = (w.objs d).fd
    · subst hx
      simp [hreg]
    · rw [Function.update_of_ne hx]
      exact ⟨fun hm => absurd hm hunmapped, fun hm => absurd hm.1.symm hx⟩
  · rw [ha.other d hd]
    by_cases hx : fd = (w.objs c).fd
    · subst hx
      rw [Function.update_self, Option.some.injEq]
      exact ⟨fun hm => absurd hm.symm hd, fun hm => absurd (h.fd_inj d c hm.1) hd⟩
    · rw [Function.update_of_ne hx]
      exact h.mapped fd d

/-- No channel had the position that was added. -/
theorem Appended.index_inj (h : Layout w) (ha : Appended w c w') {d d' : ρ}
    (hdd : (w'.objs d).index = (w'.objs d').index) (hreg : (w'.objs d).index ≠ notFill) :
    d = d' := by
  by_cases hd : d = c
  · subst hd
    by_contra hne
    rw [ha.self, ha.other d' (Ne.symm hne)] at hdd
    exact absurd (h.index_lt hdd.symm) (Nat.lt_irrefl _)
  · rw [ha.other d hd] at hdd hreg
    by_cases hd' : d' = c
    · subst hd'
      rw [ha.self] at hdd
      exact absurd (h.index_lt hdd) (Nat.lt_irrefl _)
    · rw [ha.other d' hd'] at hdd
      exact h.index_inj d d' hdd hreg

/-- A channel that is not in the vector gets the entry at its end. -/
theorem updateChannel_fresh (h : Layout w) (hc : (w.objs c).index = notFill)
    (hcur : ∀ d, d ≠ c → w.Current d) :
    ∃ w', w.updateChannel c = .ok w' ∧ Registry w' := by
  obtain ⟨w', hok, ha⟩ := updateChannel_appended hc
  refine ⟨w', hok, ⟨?_, ?_, ha.mapped h hc, ?_, ?_, ?_⟩, ?_⟩
  · intro d
    rw [ha.fd]
    exact h.fd_nonneg d
  · intro d d' hdd
    rw [ha.fd, ha.fd] at hdd
    exact h.fd_inj d d' hdd
  · intro i hi
    rw [ha.list, List.length_append, List.length_singleton] at hi
    by_cases hlast : i = w.poller.pollFdList.length
    · exact ⟨c, by rw [ha.self, hlast]⟩
    · obtain ⟨d, hd⟩ := h.owner i (by omega)
      have hdc : d ≠ c := by
        rintro rfl
        exact natCast_ne_notFill i (hd.symm.trans hc)
      exact ⟨d, by rw [ha.other d hdc]; exact hd⟩
  · intro d d' hdd hreg
    exact ha.index_inj h hdd hreg
  · intro d hreg
    by_cases hd : d = c
    · subst hd
      have hget : w'.poller.pollFdList[w.poller.pollFdList.length]? =
          some ⟨(w.objs d).fd, (w.objs d).events, .none⟩ := by
        rw [ha.list]
        exact List.getElem?_concat_length
      exact ⟨w.poller.pollFdList.length, _, by rw [ha.self], hget, Or.inl (ha.fd d).symm⟩
    · rw [ha.other d hd] at hreg ⊢
      obtain ⟨i, e, hi, he, hefd⟩ := h.entry d hreg
      exact ⟨i, e, hi, by rw [ha.list, List.getElem?_append_left (h.index_lt hi)]; exact he, hefd⟩
  · intro d i e hi he
    rw [ha.list] at he
    by_cases hd : d = c
    · subst hd
      rw [ha.self] at hi ⊢
      obtain rfl : w.poller.pollFdList.length = i := Int.ofNat.inj hi
      rw [List.getElem?_concat_length] at he
      obtain rfl := Option.some.inj he
      rfl
    · rw [ha.other d hd] at hi ⊢
      rw [List.getElem?_append_left (h.index_lt hi)] at he
      exact hcur d hd i e hi he

/-- A channel in the vector has its entry overwritten. -/
theorem updateChannel_again (h : Layout w) (hc : (w.objs c).index ≠ notFill)
    (hcur : ∀ d, d ≠ c → w.Current d) :
    ∃ w', w.updateChannel c = .ok w' ∧ Registry w' := by
  obtain ⟨i, e, hi, he, -⟩ := h.entry c hc
  have hlt := h.index_lt hi
  have hrange : 0 ≤ (w.objs c).index ∧ (w.objs c).index < w.poller.pollFdList.length := by omega
  have hnat : (w.objs c).index.toNat = i := by omega
  obtain ⟨w', hok, hmap, hlist, hobjs⟩ : ∃ w', w.updateChannel c = .ok w' ∧
      w'.poller.channels = w.poller.channels ∧
      w'.poller.pollFdList = w.poller.pollFdList.set i
        ⟨if (w.objs c).isNoneEvent then complement (w.objs c).fd else (w.objs c).fd,
          (w.objs c).events, .none⟩ ∧
      w'.objs = w.objs := by
    rw [← hnat]
    exact ⟨_, (if_neg hc).trans (if_pos hrange), rfl, rfl, rfl⟩
  have hother : ∀ d (j : Nat), d ≠ c → (w.objs d).index = j → i ≠ j := by
    rintro d j hd hj rfl
    exact hd (h.index_inj c d (hi.trans hj.symm) hc).symm
  refine ⟨w', hok, ⟨?_, ?_, ?_, ?_, ?_, ?_⟩, ?_⟩
  · rw [hobjs]
    exact h.fd_nonneg
  · rw [hobjs]
    exact h.fd_inj
  · rw [hobjs, hmap]
    exact h.mapped
  · rw [hobjs, hlist, List.length_set]
    exact h.owner
  · rw [hobjs]
    exact h.index_inj
  · rw [hobjs, hlist]
    intro d hreg
    by_cases hd : d = c
    · subst hd
      refine ⟨i, _, hi, List.getElem?_set_self hlt, ?_⟩
      by_cases hnone : (w.objs d).isNoneEvent = true
      · exact Or.inr (if_pos hnone)
      · exact Or.inl (if_neg hnone)
    · obtain ⟨j, e', hj, he', hfd⟩ := h.entry d hreg
      refine ⟨j, e', hj, ?_, hfd⟩
      rw [List.getElem?_set_ne (hother d j hd hj)]
      exact he'
  · intro d j e' hj he'
    rw [hobjs] at hj ⊢
    rw [hlist] at he'
    by_cases hd : d = c
    · subst hd
      obtain rfl : i = j := by omega
      rw [List.getElem?_set_self hlt] at he'
      obtain rfl := Option.some.inj he'
      rfl
    · rw [List.getElem?_set_ne (hother d j hd hj)] at he'
      exact hcur d hd j e' hj he'

/-- **`updateChannel`** registers the channel with its present interest. -/
theorem updateChannel_registry (h : Layout w) (hcur : ∀ d, d ≠ c → w.Current d) :
    ∃ w', w.updateChannel c = .ok w' ∧ Registry w' := by
  by_cases hc : (w.objs c).index = notFill
  · exact updateChannel_fresh h hc hcur
  · exact updateChannel_again h hc hcur

/-- Either way the map leads from the descriptor to the channel. -/
theorem updateChannel_channels (h : Layout w) (he : w.updateChannel c = .ok w') :
    w'.poller.channels = Function.update w.poller.channels (w.objs c).fd (some c) ∧
      ∀ d, (w'.objs d).toChannel = (w.objs d).toChannel := by
  unfold updateChannel at he
  simp only at he
  split at he
  · obtain rfl := Except.ok.inj he
    exact ⟨rfl, fun d => setIndex_toChannel _ _ _ _⟩
  · rename_i hc
    split at he
    · obtain rfl := Except.ok.inj he
      refine ⟨?_, fun d => rfl⟩
      rw [← (h.mapped (w.objs c).fd c).mpr ⟨rfl, hc⟩, Function.update_eq_self]
    · exact absurd he (by simp)

/-! ## `removeChannel` -/

/-- What the removal of a registered channel `c` at position `i` leaves. -/
structure Removed (w : PollLoop ρ κ) (c : ρ) (i : Nat) (w' : PollLoop ρ κ) : Prop where
  channels : w'.poller.channels = Function.update w.poller.channels (w.objs c).fd none
  length : w'.poller.pollFdList.length = w.poller.pollFdList.length - 1
  list : ∀ j, j < w.poller.pollFdList.length - 1 → w'.poller.pollFdList[j]? =
    if j = i then w.poller.pollFdList[w.poller.pollFdList.length - 1]? else w.poller.pollFdList[j]?
  toChannel : ∀ d, (w'.objs d).toChannel = (w.objs d).toChannel
  index_self : (w'.objs c).index = notFill
  index_last : ∀ d, d ≠ c → (w.objs d).index = (w.poller.pollFdList.length : Int) - 1 →
    (w'.objs d).index = i
  index_other : ∀ d, d ≠ c → (w.objs d).index ≠ (w.poller.pollFdList.length : Int) - 1 →
    (w'.objs d).index = (w.objs d).index

/-- The last entry leads to its channel, complemented or not. -/
theorem moveLast_eq (h : Layout w) {i : Nat} (hi : i < w.poller.pollFdList.length - 1) {d : ρ}
    (hd : (w.objs d).index = (w.poller.pollFdList.length : Int) - 1) :
    w.moveLast i = ⟨{ w.poller with
      pollFdList := vecSwap w.poller.pollFdList i (w.poller.pollFdList.length - 1) },
      setIndex w.objs d i⟩ := by
  have hpos : (w.objs d).index = ((w.poller.pollFdList.length - 1 : Nat) : Int) := by omega
  have hreg : (w.objs d).index ≠ notFill := by
    rw [hpos]
    exact natCast_ne_notFill _
  obtain ⟨j, e, hj, he, hfd⟩ := h.entry d hreg
  obtain rfl : w.poller.pollFdList.length - 1 = j := by omega
  have hnonneg := h.fd_nonneg d
  have hback : (if e.fd < 0 then complement e.fd else e.fd) = (w.objs d).fd := by
    rcases hfd with hfd | hfd
    · rw [if_neg (by omega), hfd]
    · unfold complement at hfd ⊢
      rw [if_pos (by omega)]
      omega
  have hmap := (h.mapped (w.objs d).fd d).mpr ⟨rfl, hreg⟩
  unfold moveLast
  simp only [getElem?_swap_self hi, he, hback, hmap]

theorem removeChannel_removed (h : Layout w) {i : Nat} (hc : (w.objs c).index = i) :
    Removed w c i (w.removeChannel c) := by
  have hlt := h.index_lt hc
  have hin : ¬ ((w.objs c).index < 0 ∨ (w.poller.pollFdList.length : Int) ≤ (w.objs c).index) := by
    omega
  unfold removeChannel
  simp only [if_neg hin]
  by_cases hlast : (w.objs c).index < (w.poller.pollFdList.length : Int) - 1
  · -- the last entry belongs to another channel, which takes the free position
    have hi : i < w.poller.pollFdList.length - 1 := by omega
    obtain ⟨d, hd⟩ := h.owner (w.poller.pollFdList.length - 1) (by omega)
    have hd' : (w.objs d).index = (w.poller.pollFdList.length : Int) - 1 := by omega
    have hdc : d ≠ c := by
      rintro rfl
      omega
    have hnat : (w.objs c).index.toNat = i := by omega
    rw [if_pos hlast, hnat, moveLast_eq h hi hd']
    refine ⟨?_, ?_, ?_, ?_, ?_, ?_, ?_⟩
    · simp only [setIndex_toChannel]
    · simp only [List.length_dropLast, length_vecSwap]
    · intro j hj
      simp only
      rw [getElem?_swap_dropLast hlt j, if_pos hj]
    · intro x
      simp only [setIndex_toChannel]
    · simp only [setIndex_self]
    · intro x hx hxi
      obtain rfl : x = d :=
        h.index_inj x d (hxi.trans hd'.symm) (by rw [hxi, ← hd', hd]; exact natCast_ne_notFill _)
      simp only [setIndex_of_ne _ hx, setIndex_self]
    · intro x hx hxi
      have hxd : x ≠ d := by
        rintro rfl
        exact hxi hd'
      simp only [setIndex_of_ne _ hx, setIndex_of_ne _ hxd]
  · rw [if_neg hlast]
    have hi : i = w.poller.pollFdList.length - 1 := by omega
    refine ⟨rfl, List.length_dropLast, ?_, ?_, ?_, ?_, ?_⟩
    · intro j hj
      rw [List.getElem?_dropLast, if_pos hj, if_neg (by omega)]
    · intro x
      simp only [setIndex_toChannel]
    · simp only [setIndex_self]
    · intro x hx hxi
      have hxc : (w.objs x).index = (w.objs c).index := by omega
      exact absurd (h.index_inj x c hxc (by rw [hxc, hc]; exact natCast_ne_notFill i)) hx
    · intro x hx hxi
      simp only [setIndex_of_ne _ hx]

omit [DecidableEq ρ] in
/-- The position of another channel after the removal, in terms of the one before. -/
theorem Removed.index_cases {i : Nat} (hr : Removed w c i w') {d : ρ} (hd : d ≠ c) :
    ((w.objs d).index = (w.poller.pollFdList.length : Int) - 1 ∧ (w'.objs d).index = i) ∨
    ((w.objs d).index ≠ (w.poller.pollFdList.length : Int) - 1 ∧
      (w'.objs d).index = (w.objs d).index) := by
  by_cases hlast : (w.objs d).index = (w.poller.pollFdList.length : Int) - 1
  · exact Or.inl ⟨hlast, hr.index_last d hd hlast⟩
  · exact Or.inr ⟨hlast, hr.index_other d hd hlast⟩

omit [DecidableEq ρ] in
/-- The entry of another channel is where the channel says, and is the one it had. -/
theorem Removed.entry_moved {i : Nat} (h : Layout w) (hc : (w.objs c).index = i)
    (hr : Removed w c i w') {d : ρ} (hd : d ≠ c) {k : Nat} (hk : (w.objs d).index = k) :
    ∃ j : Nat, (w'.objs d).index = j ∧ w'.poller.pollFdList[j]? = w.poller.pollFdList[k]? := by
  have hklt := h.index_lt hk
  have hki : k ≠ i := by
    rintro rfl
    exact hd (h.index_inj d c (hk.trans hc.symm) (by rw [hk]; exact natCast_ne_notFill k))
  have hilt := h.index_lt hc
  rcases hr.index_cases hd with ⟨hlast, hnew⟩ | ⟨hlast, hnew⟩
  · refine ⟨i, hnew, ?_⟩
    have hk' : k = w.poller.pollFdList.length - 1 := by omega
    rw [hr.list i (by omega), if_pos rfl, hk']
  · refine ⟨k, hnew.trans hk, ?_⟩
    rw [hr.list k (by omega), if_neg hki]

omit [DecidableEq ρ] in
theorem Removed.fd {i : Nat} (hr : Removed w c i w') (d : ρ) : (w'.objs d).fd = (w.objs d).fd := by
  rw [hr.toChannel d]

omit [DecidableEq ρ] in
/-- The other channels are registered or not as before. -/
theorem Removed.registered_iff {i : Nat} (hr : Removed w c i w') (hi : i < w.poller.pollFdList.length)
    {d : ρ} (hd : d ≠ c) : (w'.objs d).index ≠ notFill ↔ (w.objs d).index ≠ notFill := by
  rcases hr.index_cases hd with ⟨hlast, hnew⟩ | ⟨-, hnew⟩
  · rw [hnew, hlast]
    unfold notFill
    omega
  · rw [hnew]

omit [DecidableEq ρ] in
/-- A channel that is registered afterwards is not the removed one. -/
theorem Removed.ne_of_registered {i : Nat} (hr : Removed w c i w') {d : ρ}
    (hne : (w'.objs d).index ≠ notFill) : d ≠ c := by
  rintro rfl
  exact hne hr.index_self

/-- The map has the channels that are still registered. -/
theorem Removed.mapped {i : Nat} (h : Layout w) (hc : (w.objs c).index = i) (hr : Removed w c i w')
    (fd : Int) (d : ρ) :
    w'.poller.channels fd = some d ↔ (w'.objs d).fd = fd ∧ (w'.objs d).index ≠ notFill := by
  rw [hr.channels, hr.fd]
  by_cases hd : d = c
  · subst hd
    rw [hr.index_self]
    refine ⟨fun hm => ?_, fun hm => absurd rfl hm.2⟩
    by_cases hx : fd = (w.objs d).fd
    · subst hx
      simp at hm
    · rw [Function.update_of_ne hx] at hm
      exact absurd ((h.mapped fd d).mp hm).1.symm hx
  · rw [hr.registered_iff (h.index_lt hc) hd]
    by_cases hx : fd = (w.objs c).fd
    · subst hx
      rw [Function.update_self]
      exact ⟨fun hm => absurd hm (by simp), fun hm => absurd (h.fd_inj d c hm.1) hd⟩
    · rw [Function.update_of_ne hx]
      exact h.mapped fd d

omit [DecidableEq ρ] in
/-- Position `i` went to the channel of the last entry, the others are where they were. -/
theorem Removed.owner {i : Nat} (h : Layout w) (hc : (w.objs c).index = i) (hr : Removed w c i w')
    {j : Nat} (hj : j < w'.poller.pollFdList.length) : ∃ d, (w'.objs d).index = j := by
  have hilt := h.index_lt hc
  rw [hr.length] at hj
  by_cases hji : j = i
  · obtain ⟨d, hd⟩ := h.owner (w.poller.pollFdList.length - 1) (by omega)
    have hdc : d ≠ c := by
      rintro rfl
      omega
    exact ⟨d, by rw [hr.index_last d hdc (by omega), hji]⟩
  · obtain ⟨d, hd⟩ := h.owner j (by omega)
    have hdc : d ≠ c := by
      rintro rfl
      omega
    exact ⟨d, (hr.index_other d hdc (by omega)).trans hd⟩

omit [DecidableEq ρ] in
/-- No two channels share a position: only the removed one had position `i`. -/
theorem Removed.index_inj {i : Nat} (h : Layout w) (hc : (w.objs c).index = i)
    (hr : Removed w c i w') {d d' : ρ} (hdd : (w'.objs d).index = (w'.objs d').index)
    (hne : (w'.objs d).index ≠ notFill) : d = d' := by
  have hd := hr.ne_of_registered hne
  have hd' := hr.ne_of_registered (hdd ▸ hne)
  have hold := (hr.registered_iff (h.index_lt hc) hd).mp hne
  have hnotc : ∀ x, x ≠ c → (w.objs x).index ≠ i := by
    intro x hx hxi
    exact hx (h.index_inj x c (hxi.trans hc.symm) (by rw [hxi]; exact natCast_ne_notFill i))
  rcases hr.index_cases hd with ⟨hl, hn⟩ | ⟨hl, hn⟩ <;>
    rcases hr.index_cases hd' with ⟨hl', hn'⟩ | ⟨hl', hn'⟩
  · exact h.index_inj d d' (hl.trans hl'.symm) hold
  · exact absurd (hn'.symm.trans (hdd.symm.trans hn)) (hnotc d' hd')
  · exact absurd (hn.symm.trans (hdd.trans hn')) (hnotc d hd)
  · exact h.index_inj d d' (hn.symm.trans (hdd.trans hn')) hold

/-- **`removeChannel`** keeps the correspondence. -/
theorem Removed.registry {i : Nat} (h : Registry w) (hc : (w.objs c).index = i)
    (hr : Removed w c i w') : Registry w' := by
  have hilt := h.index_lt hc
  refine ⟨⟨?_, ?_, hr.mapped h.toLayout hc, ?_, ?_, ?_⟩, ?_⟩
  · intro d
    rw [hr.fd]
    exact h.fd_nonneg d
  · intro d d' hdd
    rw [hr.fd, hr.fd] at hdd
    exact h.fd_inj d d' hdd
  · intro j hj
    exact hr.owner h.toLayout hc hj
  · intro d d' hdd hne
    exact hr.index_inj h.toLayout hc hdd hne
  · intro d hne
    have hd := hr.ne_of_registered hne
    obtain ⟨k, e, hk, he, hefd⟩ := h.entry d ((hr.registered_iff hilt hd).mp hne)
    obtain ⟨j, hj, hlist⟩ := hr.entry_moved h.toLayout hc hd hk
    exact ⟨j, e, hj, hlist.trans he, by rw [hr.fd]; exact hefd⟩
  · intro d j e hj he
    have hne : (w'.objs d).index ≠ notFill := by
      rw [hj]
      exact natCast_ne_notFill j
    have hd := hr.ne_of_registered hne
    obtain ⟨k, -, hk, -, -⟩ := h.entry d ((hr.registered_iff hilt hd).mp hne)
    obtain ⟨j', hj', hlist⟩ := hr.entry_moved h.toLayout hc hd hk
    obtain rfl : j = j' := by omega
    rw [hr.toChannel d]
    exact h.current d k e hk (hlist ▸ he)

/-- The removal of a channel that is not registered does nothing. -/
theorem removeChannel_absent (hc : (w.objs c).index = notFill) : w.removeChannel c = w := by
  have hneg : (w.objs c).index < 0 ∨ (w.poller.pollFdList.length : Int) ≤ (w.objs c).index := by
    left
    rw [hc]
    decide
  exact if_pos hneg

theorem removeChannel_registry (h : Registry w) (c : ρ) : Registry (w.removeChannel c) := by
  by_cases hc : (w.objs c).index = notFill
  · rw [removeChannel_absent hc]
    exact h
  · obtain ⟨i, -, hi, -⟩ := h.entry c hc
    exact (removeChannel_removed h.toLayout hi).registry h hi

/-- Registered or not, the map leads nowhere from the descriptor afterwards. -/
theorem removeChannel_channels (h : Layout w) (c : ρ) :
    (w.removeChannel c).poller.channels = Function.update w.poller.channels (w.objs c).fd none ∧
      ∀ d, ((w.removeChannel c).objs d).toChannel = (w.objs d).toChannel := by
  by_cases hc : (w.objs c).index = notFill
  · rw [removeChannel_absent hc]
    refine ⟨?_, fun d => rfl⟩
    have hnone : w.poller.channels (w.objs c).fd = none := by
      by_contra hsome
      obtain ⟨d, hd⟩ := Option.ne_none_iff_exists'.mp hsome
      obtain ⟨hfd, hreg⟩ := (h.mapped _ d).mp hd
      rw [h.fd_inj d c hfd] at hreg
      exact hreg hc
    rw [← hnone, Function.update_eq_self]
  · obtain ⟨i, -, hi, -⟩ := h.entry c hc
    have hr := removeChannel_removed h hi
    exact ⟨hr.channels, hr.toChannel⟩

/-! ## Reporting -/

/-- The channel an entry with `revents` leads to. -/
def marked (channels : Int → Option ρ) (e : PollFd) : Option ρ :=
  if e.revents ≠ .none then channels e.fd else none

/-- One round of the loop on the channel objects. -/
def report (channels : Int → Option ρ) (objs : ρ → PolledChannel κ) (e : PollFd) :
    ρ → PolledChannel κ :=
  match marked channels e with
  | some c => setReturnEvents objs c e.revents
  | none => objs

omit [DecidableEq ρ] in
theorem marked_of_none (channels : Int → Option ρ) {e : PollFd} (h : e.revents = .none) :
    marked channels e = none := if_neg (by simpa using h)

omit [DecidableEq ρ] in
theorem marked_of_some (channels : Int → Option ρ) {e : PollFd} (h : e.revents ≠ .none) :
    marked channels e = channels e.fd := if_pos h

theorem report_eq (channels : Int → Option ρ) (objs : ρ → PolledChannel κ) (e : PollFd) (c : ρ) :
    report channels objs e c =
      if marked channels e = some c then { objs c with returnEvents := e.revents } else objs c := by
  unfold report
  cases hm : marked channels e with
  | none => simp
  | some d =>
    by_cases hd : d = c
    · subst hd
      simp [setReturnEvents]
    · simp [setReturnEvents, hd, Ne.symm hd]

theorem report_index (channels : Int → Option ρ) (objs : ρ → PolledChannel κ) (e : PollFd) (c : ρ) :
    (report channels objs e c).index = (objs c).index ∧
      (report channels objs e c).fd = (objs c).fd ∧
      (report channels objs e c).events = (objs c).events := by
  rw [report_eq]
  split <;> exact ⟨rfl, rfl, rfl⟩

theorem fillActiveChannels_zero (channels : Int → Option ρ) (es : List PollFd)
    (objs : ρ → PolledChannel κ) (active : List ρ) :
    fillActiveChannels channels es 0 objs active = (objs, active) := by
  cases es <;> rfl

/-- An entry without `revents` is passed over. -/
theorem fillActiveChannels_skip (channels : Int → Option ρ) {e : PollFd} (h : e.revents = .none)
    (es : List PollFd) (n : Nat) (objs : ρ → PolledChannel κ) (active : List ρ) :
    fillActiveChannels channels (e :: es) n objs active =
      fillActiveChannels channels es n objs active := by
  cases n with
  | zero => rw [fillActiveChannels_zero, fillActiveChannels_zero]
  | succ n => simp [fillActiveChannels, h]

/-- `fillActiveChannels` looks at every entry with `revents`, when told how many there are. -/
theorem fillActiveChannels_eq (channels : Int → Option ρ) (es : List PollFd) :
    ∀ (objs : ρ → PolledChannel κ) (active : List ρ),
      (∀ e ∈ es, ∀ c, channels e.fd = some c → (objs c).fd = e.fd) →
      fillActiveChannels channels es (es.countP fun e => e.revents ≠ .none) objs active =
        (es.foldl (report channels) objs, active ++ es.filterMap (marked channels)) := by
  induction es with
  | nil =>
    intro objs active _
    simp [fillActiveChannels]
  | cons e es ih =>
    intro objs active hfd
    have hrest : ∀ e' ∈ es, ∀ c, channels e'.fd = some c → (report channels objs e c).fd = e'.fd := by
      intro e' he' c hc
      rw [(report_index channels objs e c).2.1]
      exact hfd e' (List.mem_cons_of_mem _ he') c hc
    rw [List.foldl_cons, List.filterMap_cons]
    by_cases hnone : e.revents = .none
    · have hsame : report channels objs e = objs := by
        unfold report
        rw [marked_of_none channels hnone]
      rw [hsame] at hrest ⊢
      rw [List.countP_cons_of_neg (by simpa using hnone), fillActiveChannels_skip channels hnone,
        marked_of_none channels hnone]
      exact ih objs active hrest
    · rw [List.countP_cons_of_pos (by simpa using hnone)]
      simp only [fillActiveChannels, marked_of_some channels hnone]
      rw [if_pos hnone]
      cases hc : channels e.fd with
      | none =>
        have hsame : report channels objs e = objs := by
          unfold report
          rw [marked_of_some channels hnone, hc]
        rw [hsame] at hrest ⊢
        exact ih objs active hrest
      | some c =>
        have hset : report channels objs e = setReturnEvents objs c e.revents := by
          unfold report
          rw [marked_of_some channels hnone, hc]
        rw [hset] at hrest ⊢
        simp only [if_pos (hfd e List.mem_cons_self c hc)]
        rw [ih _ _ hrest, List.append_assoc]
        rfl

/-- What the whole loop does to a channel: nothing, unless an entry leads to it. -/
theorem foldl_report_of_not {channels : Int → Option ρ} {es : List PollFd} {c : ρ} :
    ∀ {objs : ρ → PolledChannel κ}, (∀ e ∈ es, marked channels e ≠ some c) →
      es.foldl (report channels) objs c = objs c := by
  induction es with
  | nil =>
    intro objs _
    rfl
  | cons e es ih =>
    intro objs h
    rw [List.foldl_cons, ih fun e' he' => h e' (List.mem_cons_of_mem _ he'), report_eq,
      if_neg (h e List.mem_cons_self)]

theorem foldl_report_of_mem {channels : Int → Option ρ} {es : List PollFd} {c : ρ} {r : PollEvents} :
    ∀ {objs : ρ → PolledChannel κ}, (∃ e ∈ es, marked channels e = some c) →
      (∀ e ∈ es, marked channels e = some c → e.revents = r) →
      es.foldl (report channels) objs c = { objs c with returnEvents := r } := by
  induction es with
  | nil =>
    rintro objs ⟨e, he, -⟩ _
    exact absurd he List.not_mem_nil
  | cons e es ih =>
    intro objs hex hall
    rw [List.foldl_cons]
    by_cases hrest : ∃ e' ∈ es, marked channels e' = some c
    · rw [ih hrest fun e' he' => hall e' (List.mem_cons_of_mem _ he'), report_eq]
      split <;> rfl
    · have hno : ∀ e' ∈ es, marked channels e' ≠ some c := fun e' he' hm => hrest ⟨e', he', hm⟩
      have he : marked channels e = some c := by
        obtain ⟨e', he', hm⟩ := hex
        rcases List.mem_cons.mp he' with rfl | hin
        · exact hm
        · exact absurd hm (hno e' hin)
      rw [foldl_report_of_not hno, report_eq, if_pos he, hall e List.mem_cons_self he]

theorem foldl_report_index (channels : Int → Option ρ) (es : List PollFd) (c : ρ) :
    ∀ objs : ρ → PolledChannel κ, (es.foldl (report channels) objs c).index = (objs c).index ∧
      (es.foldl (report channels) objs c).fd = (objs c).fd ∧
      (es.foldl (report channels) objs c).events = (objs c).events := by
  induction es with
  | nil =>
    intro objs
    exact ⟨rfl, rfl, rfl⟩
  | cons e es ih =>
    intro objs
    obtain ⟨h1, h2, h3⟩ := ih (report channels objs e)
    obtain ⟨r1, r2, r3⟩ := report_index channels objs e c
    exact ⟨h1.trans r1, h2.trans r2, h3.trans r3⟩

/-- The kernel marked the entry of `c`, and may: its descriptor is not complemented. -/
def Marked (w : PollLoop ρ κ) (stored : Nat → PollEvents) (c : ρ) : Prop :=
  ∃ (i : Nat) (e : PollFd), (w.objs c).index = i ∧ w.poller.pollFdList[i]? = some e ∧ 0 ≤ e.fd ∧
    stored i ≠ .none

omit [DecidableEq ρ] in
theorem mem_storeRevents {list : List PollFd} {stored : Nat → PollEvents} {e' : PollFd} :
    e' ∈ storeRevents list stored ↔ ∃ (i : Nat) (e : PollFd), list[i]? = some e ∧
      e' = { e with revents := if e.fd < 0 then .none else stored i } := by
  unfold storeRevents
  rw [List.mem_iff_getElem?]
  simp only [List.getElem?_mapIdx, Option.map_eq_some_iff]
  constructor
  · rintro ⟨i, e, he, rfl⟩
    exact ⟨i, e, he, rfl⟩
  · rintro ⟨i, e, he, rfl⟩
    exact ⟨i, e, he, rfl⟩

omit [DecidableEq ρ] in
/-- An entry the kernel marked leads to the channel whose position it is. -/
theorem Layout.marked_iff (h : Layout w) {i : Nat} {e : PollFd}
    (he : w.poller.pollFdList[i]? = some e) (r : PollEvents) (c : ρ) :
    marked w.poller.channels { e with revents := if e.fd < 0 then .none else r } = some c ↔
      (w.objs c).index = i ∧ 0 ≤ e.fd ∧ r ≠ .none := by
  have hlt : i < w.poller.pollFdList.length := (List.getElem?_eq_some_iff.mp he).1
  by_cases hneg : e.fd < 0
  · rw [marked_of_none _ (if_pos hneg)]
    refine ⟨fun hm => absurd hm (by simp), fun hm => absurd hm.2.1 (by omega)⟩
  · by_cases hr : r = .none
    · rw [marked_of_none _ (by simp [hr])]
      exact ⟨fun hm => absurd hm (by simp), fun hm => absurd hr hm.2.2⟩
    · rw [marked_of_some _ (by simpa [hneg] using hr)]
      rw [h.mapped e.fd c]
      constructor
      · rintro ⟨hfd, -⟩
        obtain ⟨d, hd⟩ := h.owner i hlt
        have hentry := h.entry_at hd he
        have hpos := h.fd_nonneg d
        unfold complement at hentry
        obtain rfl : d = c := h.fd_inj d c (by omega)
        exact ⟨hd, by omega, hr⟩
      · rintro ⟨hi, -, -⟩
        have hentry := h.entry_at hi he
        have hpos := h.fd_nonneg c
        unfold complement at hentry
        exact ⟨by omega, by rw [hi]; exact natCast_ne_notFill i⟩

/-- `poll` in one equation. -/
theorem poll_eq (h : Layout w) (stored : Nat → PollEvents) (active : List ρ) :
    w.poll stored active =
      (⟨{ w.poller with pollFdList := storeRevents w.poller.pollFdList stored },
        (storeRevents w.poller.pollFdList stored).foldl (report w.poller.channels) w.objs⟩,
        active ++ (storeRevents w.poller.pollFdList stored).filterMap (marked w.poller.channels)) := by
  unfold poll
  simp only
  rw [fillActiveChannels_eq]
  intro e _ c hc
  exact ((h.mapped e.fd c).mp hc).1

/-- **Exact reporting.** The channels whose entries the kernel marked are reported, each once, with
the conditions stored in its entry, and no other channel is touched. -/
structure ReportsExactly (w : PollLoop ρ κ) (stored : Nat → PollEvents) (active : List ρ)
    (reported : List ρ) : Prop where
  appended : (w.poll stored active).2 = active ++ reported
  nodup : reported.Nodup
  mem : ∀ c, c ∈ reported ↔ w.Marked stored c
  returnEvents : ∀ c i, c ∈ reported → (w.objs c).index = (i : Nat) →
    (w.poll stored active).1.objs c = { w.objs c with returnEvents := stored i }
  other : ∀ c, c ∉ reported → (w.poll stored active).1.objs c = w.objs c

theorem Layout.reportsExactly (h : Layout w) (stored : Nat → PollEvents) (active : List ρ) :
    ∃ reported, ReportsExactly w stored active reported := by
  let list := storeRevents w.poller.pollFdList stored
  have hmem : ∀ c, c ∈ list.filterMap (marked w.poller.channels) ↔ w.Marked stored c := by
    intro c
    simp only [list, List.mem_filterMap, mem_storeRevents]
    constructor
    · rintro ⟨-, ⟨i, e, he, rfl⟩, hm⟩
      obtain ⟨hi, hpos, hr⟩ := (h.marked_iff he (stored i) c).mp hm
      exact ⟨i, e, hi, he, hpos, hr⟩
    · rintro ⟨i, e, hi, he, hpos, hr⟩
      exact ⟨_, ⟨i, e, he, rfl⟩, (h.marked_iff he (stored i) c).mpr ⟨hi, hpos, hr⟩⟩
  refine ⟨list.filterMap (marked w.poller.channels), ?_, ?_, hmem, ?_, ?_⟩
  · rw [poll_eq h]
  · rw [List.Nodup, List.pairwise_filterMap, List.pairwise_iff_getElem]
    intro i j hi hj hij c hc d hd hcd
    subst hcd
    simp only [list, storeRevents, List.getElem_mapIdx] at hc hd
    have hi' : i < w.poller.pollFdList.length := by simpa [list, storeRevents] using hi
    have hj' : j < w.poller.pollFdList.length := by simpa [list, storeRevents] using hj
    have h1 := (h.marked_iff (List.getElem?_eq_getElem hi') (stored i) c).mp hc
    have h2 := (h.marked_iff (List.getElem?_eq_getElem hj') (stored j) c).mp hd
    omega
  · intro c i hc hi
    rw [poll_eq h]
    apply foldl_report_of_mem
    · obtain ⟨e, he, hm⟩ := List.mem_filterMap.mp hc
      exact ⟨e, he, hm⟩
    · intro e' he' hm
      obtain ⟨j, e, he, rfl⟩ := mem_storeRevents.mp he'
      obtain ⟨hj, hpos, -⟩ := (h.marked_iff he (stored j) c).mp hm
      obtain rfl : i = j := by omega
      exact if_neg (by omega)
  · intro c hc
    rw [poll_eq h]
    apply foldl_report_of_not
    intro e he hm
    exact hc (List.mem_filterMap.mpr ⟨e, he, hm⟩)

theorem poll_registry (h : Registry w) (stored : Nat → PollEvents) (active : List ρ) :
    Registry (w.poll stored active).1 := by
  obtain ⟨w', hw', hmap, hlist, hobjs⟩ : ∃ w', (w.poll stored active).1 = w' ∧
      w'.poller.channels = w.poller.channels ∧
      (∀ i : Nat, w'.poller.pollFdList[i]? = (w.poller.pollFdList[i]?).map
        fun e => { e with revents := if e.fd < 0 then .none else stored i }) ∧
      ∀ c, (w'.objs c).index = (w.objs c).index ∧ (w'.objs c).fd = (w.objs c).fd ∧
        (w'.objs c).events = (w.objs c).events := by
    refine ⟨_, congrArg Prod.fst (poll_eq h.toLayout stored active), rfl, fun i => ?_, fun c => ?_⟩
    · exact List.getElem?_mapIdx
    · exact foldl_report_index _ _ c w.objs
  have hlen : w'.poller.pollFdList.length = w.poller.pollFdList.length := by
    rw [← hw', poll_eq h.toLayout]
    simp [storeRevents]
  rw [hw']
  refine ⟨⟨?_, ?_, ?_, ?_, ?_, ?_⟩, ?_⟩
  · intro c
    rw [(hobjs c).2.1]
    exact h.fd_nonneg c
  · intro c d hcd
    rw [(hobjs c).2.1, (hobjs d).2.1] at hcd
    exact h.fd_inj c d hcd
  · intro fd c
    rw [hmap, (hobjs c).1, (hobjs c).2.1]
    exact h.mapped fd c
  · intro i hi
    rw [hlen] at hi
    obtain ⟨c, hc⟩ := h.owner i hi
    exact ⟨c, (hobjs c).1.trans hc⟩
  · intro c d hcd hne
    rw [(hobjs c).1, (hobjs d).1] at hcd
    rw [(hobjs c).1] at hne
    exact h.index_inj c d hcd hne
  · intro c hne
    rw [(hobjs c).1] at hne ⊢
    rw [(hobjs c).2.1]
    obtain ⟨i, e, hi, he, hfd⟩ := h.entry c hne
    have he' := hlist i
    rw [he, Option.map_some] at he'
    exact ⟨i, _, hi, he', hfd⟩
  · intro c i e' hi he'
    rw [(hobjs c).1] at hi
    rw [hlist] at he'
    obtain ⟨e, he, rfl⟩ := Option.map_eq_some_iff.mp he'
    rw [(hobjs c).2.2]
    exact h.current c i e hi he

/-! ## Whole runs -/

theorem setInterest_layout (h : Registry w) (c : ρ) (op : Interest) :
    Layout (w.setInterest c op) ∧ ∀ d, d ≠ c → (w.setInterest c op).Current d := by
  have hother : ∀ d, d ≠ c → (w.setInterest c op).objs d = w.objs d :=
    fun d hd => Function.update_of_ne hd _ _
  have hobjs : ∀ d, ((w.setInterest c op).objs d).index = (w.objs d).index ∧
      ((w.setInterest c op).objs d).fd = (w.objs d).fd := by
    intro d
    by_cases hd : d = c
    · subst hd
      simp only [setInterest, Function.update_self, Interest.apply_fd, and_self]
    · rw [hother d hd]
      exact ⟨rfl, rfl⟩
  refine ⟨⟨?_, ?_, ?_, ?_, ?_, ?_⟩, ?_⟩
  · intro d
    rw [(hobjs d).2]
    exact h.fd_nonneg d
  · intro d d' hdd
    rw [(hobjs d).2, (hobjs d').2] at hdd
    exact h.fd_inj d d' hdd
  · intro fd d
    rw [(hobjs d).1, (hobjs d).2]
    exact h.mapped fd d
  · intro i hi
    obtain ⟨d, hd⟩ := h.owner i hi
    exact ⟨d, (hobjs d).1.trans hd⟩
  · intro d d' hdd hne
    rw [(hobjs d).1, (hobjs d').1] at hdd
    rw [(hobjs d).1] at hne
    exact h.index_inj d d' hdd hne
  · intro d hne
    rw [(hobjs d).1] at hne ⊢
    rw [(hobjs d).2]
    exact h.entry d hne
  · intro d hd i e hi he
    rw [hother d hd] at hi ⊢
    exact h.current d i e hi he

theorem step_registry (h : Registry w) (a : Label ρ) : ∃ w', w.step a = .ok w' ∧ Registry w' := by
  cases a with
  | interest c op =>
    obtain ⟨hlayout, hcur⟩ := setInterest_layout h c op
    exact updateChannel_registry hlayout hcur
  | updateChannel c => exact updateChannel_registry h.toLayout fun d _ => h.current d
  | removeChannel c => exact ⟨_, rfl, removeChannel_registry h c⟩
  | poll stored => exact ⟨_, rfl, poll_registry h stored []⟩

/-- **The registry and its reports.** After every sequence of calls on channels with distinct
descriptors, `channels_` has the channels that have an index, the indices are a bijection onto the
positions of the vector, each entry holds the interest and the descriptor of its channel, and
`fillActiveChannels` reports exactly what the kernel marked. -/
theorem registry_exact {w₀ : PollLoop ρ κ} (h₀ : Initial w₀) (labels : List (Label ρ)) :
    ∃ w, run step w₀ labels = .ok w ∧
      (∀ fd c, w.poller.channels fd = some c ↔
        (w.objs c).fd = fd ∧ (w.objs c).index ≠ notFill) ∧
      Set.BijOn (fun c => (w.objs c).index) {c | (w.objs c).index ≠ notFill}
        {i | 0 ≤ i ∧ i < w.poller.pollFdList.length} ∧
      (∀ c, (w.objs c).index ≠ notFill →
        ∃ e, w.poller.pollFdList[(w.objs c).index.toNat]? = some e ∧
          e.events = (w.objs c).events ∧
          (e.fd = (w.objs c).fd ∨ e.fd = complement (w.objs c).fd)) ∧
      ∀ stored active, ∃ reported, ReportsExactly w stored active reported := by
  obtain ⟨w, hrun, h⟩ := run_total (fun a hw => step_registry hw a) h₀.registry labels
  refine ⟨w, hrun, h.mapped, ⟨?_, ?_, ?_⟩, ?_, fun stored active => h.reportsExactly stored active⟩
  · intro c hc
    obtain ⟨i, -, hi, -⟩ := h.entry c hc
    have hlt := h.index_lt hi
    exact ⟨by simp only [hi]; omega, by simp only [hi]; omega⟩
  · intro c hc d _ hcd
    exact h.index_inj c d hcd hc
  · rintro i ⟨hpos, hlt⟩
    obtain ⟨c, hc⟩ := h.owner i.toNat (by omega)
    refine ⟨c, ?_, by simp only [hc]; omega⟩
    change (w.objs c).index ≠ notFill
    rw [hc]
    exact natCast_ne_notFill _
  · intro c hc
    obtain ⟨i, e, hi, he, hfd⟩ := h.entry c hc
    have hnat : (w.objs c).index.toNat = i := by omega
    exact ⟨e, by rw [hnat]; exact he, h.current c i e hi he, hfd⟩

/-- Channels `0, 1, 2, …` on the descriptors `3, 4, 5, …`, none of them registered. -/
def unregistered : PollLoop Nat Unit where
  poller := ⟨fun _ => none, []⟩
  objs c := { Channel.construct (c + 3) with index := notFill }

theorem unregistered_initial : Initial unregistered where
  empty := rfl
  index _ := rfl
  fd_nonneg c := by
    simp only [unregistered, Channel.construct]
    omega
  fd_inj c d h := by
    simp only [unregistered, Channel.construct] at h
    omega

/-- Three channels are registered, the last one loses its interest, and the first one is removed. -/
def removeBeforeSilent : List (Label Nat) :=
  [.removeChannel 1, .interest 0 .listenTillReadable, .interest 1 .listenTillReadable,
    .interest 2 .listenTillWritable, .interest 2 .ignoreWritable, .removeChannel 0]

theorem registry_exact_removeBeforeSilent :
    ∃ w, run step unregistered removeBeforeSilent = .ok w ∧ (w.objs 2).index = 0 ∧
      Set.BijOn (fun c => (w.objs c).index) {c | (w.objs c).index ≠ notFill} {i | 0 ≤ i ∧ i < 2} := by
  obtain ⟨w, hrun, -, hbij, -⟩ := registry_exact unregistered_initial removeBeforeSilent
  have hend : ∃ w, run step unregistered removeBeforeSilent = .ok w ∧
      (w.objs 2).index = 0 ∧ w.poller.pollFdList.length = 2 := by
    decide +kernel
  obtain ⟨w', hrun', hindex, hlen⟩ := hend
  obtain rfl : w = w' := Except.ok.inj (hrun.symm.trans hrun')
  rw [hlen] at hbij
  exact ⟨w, hrun, hindex, hbij⟩

end PollLoop

end HyperMuduo.Net
