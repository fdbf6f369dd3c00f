import HyperMuduo.EventLoop.Channel
import HyperMuduo.Lib.PartialMap

/-!
# Channels, descriptors and the registry of a loop

The registry of a loop on `Epoller` as its owners change it: descriptors are opened and closed,
channels are made on them, update their interest, are removed and destroyed. `ρ` is what a `Channel*`
refers to, `η` who can have a `Socket`.

`channel_map_` shrinks in `removeChannel` only, and the kernel forgets a descriptor when it is closed,
so the two agree only if the owners keep an order: a channel is removed before it is destroyed
(`Sound.destroy`), a channel is destroyed before its descriptor is closed (`Sound.close`), and a
descriptor has at most one channel (`Sound.construct`). `Live` is what it is for: every entry of
`channel_map_` is a channel that exists, on an open descriptor of the epoll set, and a channel that
asked for events is in the set. `Sound` is the invariant.
-/

namespace HyperMuduo.Net

open HyperMuduo.Lib

/-- The poller of a loop, with the channels and the descriptors that exist. -/
structure Registry (ρ η : Type) where
  poller : Epoller ρ
  /-- The channels that exist, with their descriptors. -/
  chans : ρ → Option Int
  /-- The open descriptors, and who has the `Socket`. -/
  holder : Int → Option η
  /-- Ghost: the channel updated its interest and was not removed since. -/
  listened : ρ → Bool

namespace Registry

/-- An operation of an owner. -/
inductive Op (ρ η : Type) where
  | openSocket (fd : Int) (h : η)
  /-- `~Socket`. -/
  | closeSocket (fd : Int)
  /-- The `Socket` is moved. -/
  | handOver (fd : Int) (h : η)
  | construct (c : ρ) (fd : Int)
  /-- The channel's interest becomes `events`, and `notifyLoop` passes it on. -/
  | updateChannel (c : ρ) (events : PollEvents)
  | removeChannel (c : ρ)
  /-- `~Channel`. -/
  | destroy (c : ρ)
  deriving DecidableEq, Repr

variable {ρ η : Type} [DecidableEq ρ]

def empty : Registry ρ η where
  poller := .empty
  chans := fun _ => none
  holder := fun _ => none
  listened := fun _ => false

def step (r : Registry ρ η) : Op ρ η → Registry ρ η
  | .openSocket fd h | .handOver fd h => { r with holder := Function.update r.holder fd (some h) }
  | .closeSocket fd =>
    { r with holder := Function.update r.holder fd none, poller := r.poller.closeFd fd }
  | .construct c fd =>
    { r with
      chans := Function.update r.chans c (some fd)
      listened := Function.update r.listened c false }
  | .updateChannel c events =>
    match r.chans c with
    | none => r
    | some fd =>
      { r with
        poller := r.poller.updateChannel c fd events
        listened := Function.update r.listened c true }
  | .removeChannel c =>
    match r.chans c with
    | none => r
    | some fd =>
      { r with
        poller := r.poller.removeChannel fd
        listened := Function.update r.listened c false }
  | .destroy c => { r with chans := Function.update r.chans c none }

def steps (r : Registry ρ η) (ops : List (Op ρ η)) : Registry ρ η := ops.foldl step r

/-- Every entry of `channel_map_` is a channel that exists on an open descriptor of the epoll set, and
a channel that asked for events is in the set. -/
structure Live (r : Registry ρ η) : Prop where
  entries : ∀ fd c, r.poller.channelMap fd = some c →
    r.chans c = some fd ∧ (r.holder fd).isSome ∧ ∃ asked, r.poller.kernel fd = some (c, asked)
  listening : ∀ c fd, r.chans c = some fd → (r.holder fd).isSome → r.listened c = true →
    ∃ asked, r.poller.kernel fd = some (c, asked)

/-- What goes with it. -/
structure Sound (r : Registry ρ η) : Prop extends Live r where
  agrees : ∀ fd, (r.poller.kernel fd).map Prod.fst = r.poller.channelMap fd
  opened : ∀ c fd, r.chans c = some fd → (r.holder fd).isSome
  single : ∀ c d fd, r.chans c = some fd → r.chans d = some fd → c = d

variable {r : Registry ρ η} {c : ρ} {fd : Int}

omit [DecidableEq ρ] in
theorem Sound.synced (h : Sound r) (fd : Int) : r.poller.Synced fd := by
  unfold Epoller.Synced
  rw [← h.agrees fd, Option.isSome_map]

omit [DecidableEq ρ] in
/-- A channel that asked for events is the one in `channel_map_`. -/
theorem Sound.mapped (h : Sound r) (hc : r.chans c = some fd) (hl : r.listened c = true) :
    r.poller.channelMap fd = some c := by
  obtain ⟨asked, hkernel⟩ := h.listening c fd hc (h.opened c fd hc) hl
  rw [← h.agrees fd, hkernel]
  rfl

omit [DecidableEq ρ] in
theorem empty_sound : Sound (empty : Registry ρ η) where
  entries fd c h := absurd h (by simp [empty, Epoller.empty])
  listening c fd h := absurd h (by simp [empty])
  agrees fd := rfl
  opened c fd h := absurd h (by simp [empty])
  single c d fd h := absurd h (by simp [empty])

/-! ## Descriptors -/

omit [DecidableEq ρ] in
/-- A descriptor is opened, or changes hands. -/
theorem Sound.hold (h : Sound r) (fd : Int) (k : η) :
    Sound { r with holder := Function.update r.holder fd (some k) } := by
  have hsome : ∀ fd', (r.holder fd').isSome → (Function.update r.holder fd (some k) fd').isSome := by
    intro fd' hfd'
    by_cases heq : fd' = fd
    · rw [heq, Function.update_self]
      rfl
    · rw [Function.update_of_ne heq]
      exact hfd'
  refine ⟨⟨fun fd' c hmap => ?_, fun c fd' hc _ hl => ?_⟩, h.agrees, fun c fd' hc => ?_, h.single⟩
  · obtain ⟨hc, hopen, hkernel⟩ := h.entries fd' c hmap
    exact ⟨hc, hsome fd' hopen, hkernel⟩
  · exact h.listening c fd' hc (h.opened c fd' hc) hl
  · exact hsome fd' (h.opened c fd' hc)

theorem Sound.close (h : Sound r) (hnone : ∀ c, r.chans c ≠ some fd) :
    Sound (r.step (.closeSocket fd)) := by
  -- no channel, no entry
  have hmap : r.poller.channelMap fd = none := by
    cases hm : r.poller.channelMap fd with
    | none => rfl
    | some c => exact absurd (h.entries fd c hm).1 (hnone c)
  have hpoller : r.poller.closeFd fd = r.poller := Epoller.closeFd_of_unmapped (h.synced fd) hmap
  have hholder : ∀ c fd', r.chans c = some fd' → Function.update r.holder fd none fd' = r.holder fd' := by
    intro c fd' hc
    refine Function.update_of_ne ?_ _ _
    rintro rfl
    exact hnone c hc
  simp only [step, hpoller]
  refine ⟨⟨fun fd' c hm => ?_, fun c fd' hc _ hl => ?_⟩, h.agrees, fun c fd' hc => ?_, h.single⟩
  · obtain ⟨hc, hopen, hkernel⟩ := h.entries fd' c hm
    refine ⟨hc, ?_, hkernel⟩
    simp only [hholder c fd' hc]
    exact hopen
  · exact h.listening c fd' hc (h.opened c fd' hc) hl
  · simp only [hholder c fd' hc]
    exact h.opened c fd' hc

/-! ## Channels -/

theorem Sound.construct (h : Sound r) (hc : r.chans c = none) (hopen : (r.holder fd).isSome)
    (hnone : ∀ d, r.chans d ≠ some fd) : Sound (r.step (.construct c fd)) := by
  refine ⟨⟨fun fd' d hm => ?_, fun d fd' hd hopen' hl => ?_⟩, h.agrees, fun d fd' hd => ?_, ?_⟩
  · obtain ⟨hd, hrest⟩ := h.entries fd' d hm
    have hne : d ≠ c := by
      rintro rfl
      rw [hc] at hd
      exact absurd hd (by simp)
    refine ⟨?_, hrest⟩
    simp only [step, Function.update_of_ne hne]
    exact hd
  · simp only [step] at hd hl
    rcases update_some_inv hd with ⟨rfl, -⟩ | ⟨hne, hd'⟩
    · rw [Function.update_self] at hl
      exact absurd hl (by simp)
    · rw [Function.update_of_ne hne] at hl
      exact h.listening d fd' hd' hopen' hl
  · rcases update_some_inv hd with ⟨-, rfl⟩ | ⟨-, hd'⟩
    · exact hopen
    · exact h.opened d fd' hd'
  · intro d e fd' hd he
    rcases update_some_inv hd with ⟨rfl, rfl⟩ | ⟨-, hd'⟩ <;>
      rcases update_some_inv he with ⟨rfl, heq⟩ | ⟨-, he'⟩
    · rfl
    · exact absurd he' (hnone e)
    · subst heq
      exact absurd hd' (hnone d)
    · exact h.single d e fd' hd' he'

theorem Sound.update (h : Sound r) (c : ρ) (events : PollEvents) :
    Sound (r.step (.updateChannel c events)) := by
  cases hc : r.chans c with
  | none =>
    simp only [step, hc]
    exact h
  | some fd =>
    have hne : ∀ d fd', d ≠ c → r.chans d = some fd' → fd' ≠ fd := by
      rintro d fd' hd hchan rfl
      exact hd (h.single d c fd' hchan hc)
    simp only [step, hc, Epoller.updateChannel_of_synced (h.synced fd)]
    refine ⟨⟨fun fd' d hm => ?_, fun d fd' hd hopen hl => ?_⟩, fun fd' => ?_, h.opened, h.single⟩
    · by_cases heq : fd' = fd
      · subst heq
        simp only [Function.update_self] at hm ⊢
        obtain rfl := Option.some.inj hm
        exact ⟨hc, h.opened c fd' hc, _, rfl⟩
      · simp only [Function.update_of_ne heq] at hm ⊢
        exact h.entries fd' d hm
    · by_cases heq : d = c
      · subst heq
        obtain rfl := Option.some.inj (hc.symm.trans hd)
        exact ⟨_, Function.update_self ..⟩
      · simp only [Function.update_of_ne heq] at hl
        simp only [Function.update_of_ne (hne d fd' heq hd)]
        exact h.listening d fd' hd hopen hl
    · by_cases heq : fd' = fd
      · subst heq
        simp only [Function.update_self]
        rfl
      · simp only [Function.update_of_ne heq]
        exact h.agrees fd'

theorem Sound.remove (h : Sound r) (c : ρ) : Sound (r.step (.removeChannel c)) := by
  cases hc : r.chans c with
  | none =>
    simp only [step, hc]
    exact h
  | some fd =>
    have hne : ∀ d fd', d ≠ c → r.chans d = some fd' → fd' ≠ fd := by
      rintro d fd' hd hchan rfl
      exact hd (h.single d c fd' hchan hc)
    simp only [step, hc, Epoller.removeChannel_eq_clear (h.synced fd), Epoller.clear]
    refine ⟨⟨fun fd' d hm => ?_, fun d fd' hd hopen hl => ?_⟩, fun fd' => ?_, h.opened, h.single⟩
    · by_cases heq : fd' = fd
      · subst heq
        simp only [Function.update_self] at hm
        exact absurd hm (by simp)
      · simp only [Function.update_of_ne heq] at hm ⊢
        exact h.entries fd' d hm
    · by_cases heq : d = c
      · subst heq
        simp only [Function.update_self] at hl
        exact absurd hl (by simp)
      · simp only [Function.update_of_ne heq] at hl
        simp only [Function.update_of_ne (hne d fd' heq hd)]
        exact h.listening d fd' hd hopen hl
    · by_cases heq : fd' = fd
      · subst heq
        simp only [Function.update_self]
        rfl
      · simp only [Function.update_of_ne heq]
        exact h.agrees fd'

theorem Sound.destroy (h : Sound r)
    (hout : ∀ fd, r.chans c = some fd → r.poller.channelMap fd ≠ some c) :
    Sound (r.step (.destroy c)) := by
  refine ⟨⟨fun fd' d hm => ?_, fun d fd' hd => h.listening d fd' (update_none_inv hd).2⟩,
    h.agrees, fun d fd' hd => h.opened d fd' (update_none_inv hd).2,
    fun d e fd' hd he => h.single d e fd' (update_none_inv hd).2 (update_none_inv he).2⟩
  obtain ⟨hd, hrest⟩ := h.entries fd' d hm
  have hne : d ≠ c := by
    rintro rfl
    exact hout fd' hd hm
  refine ⟨?_, hrest⟩
  simp only [step, Function.update_of_ne hne]
  exact hd

/-! ## Registering and letting go -/

theorem steps_append (r : Registry ρ η) (ops ops' : List (Op ρ η)) :
    r.steps (ops ++ ops') = (r.steps ops).steps ops' := List.foldl_append

theorem removed_unmapped (hc : r.chans c = some fd) :
    (r.step (.removeChannel c)).poller.channelMap fd = none := by
  simp only [step, hc]
  exact Epoller.removeChannel_channelMap r.poller fd

/-- A channel is made on a descriptor that has none, and asks for events. -/
theorem Sound.register (h : Sound r) (hc : r.chans c = none) (hopen : (r.holder fd).isSome)
    (hnone : ∀ d, r.chans d ≠ some fd) (events : PollEvents) :
    ∃ r', r.steps [.construct c fd, .updateChannel c events] = r' ∧ Sound r' ∧
      r'.chans = Function.update r.chans c (some fd) ∧ r'.holder = r.holder ∧
      r'.listened c = true ∧ ∀ d, d ≠ c → r'.listened d = r.listened d := by
  have hmade := h.construct hc hopen hnone
  have hchan : (r.step (.construct c fd)).chans c = some fd := Function.update_self ..
  refine ⟨_, rfl, hmade.update c events, ?_⟩
  simp only [steps, List.foldl, step, Function.update_self]
  refine ⟨trivial, trivial, trivial, fun d hd => ?_⟩
  rw [Function.update_of_ne hd, Function.update_of_ne hd]

/-- A channel is silenced, removed and destroyed. -/
theorem Sound.release (h : Sound r) (hc : r.chans c = some fd) :
    ∃ r', r.steps [.updateChannel c .none, .removeChannel c, .destroy c] = r' ∧ Sound r' ∧
      r'.chans = Function.update r.chans c none ∧ r'.holder = r.holder ∧
      ∀ d, d ≠ c → r'.listened d = r.listened d := by
  have hsilent := h.update c .none
  have hc' : (r.step (.updateChannel c .none)).chans c = some fd := by
    simp only [step, hc]
  have hremoved := hsilent.remove c
  have hc'' : ((r.step (.updateChannel c .none)).step (.removeChannel c)).chans c = some fd := by
    simp only [step, hc]
  have hdestroyed := hremoved.destroy (c := c) (fun fd' hfd' => by
    obtain rfl := Option.some.inj (hc''.symm.trans hfd')
    rw [removed_unmapped hc']
    simp)
  refine ⟨_, rfl, hdestroyed, ?_⟩
  simp only [steps, List.foldl, step, hc]
  refine ⟨trivial, trivial, fun d hd => ?_⟩
  rw [Function.update_of_ne hd, Function.update_of_ne hd]

/-! ## Out of order -/

omit [DecidableEq ρ] in
/-- A descriptor is closed that is still in `channel_map_`. -/
theorem not_live_of_closed (fd : Int) (c : ρ) (hmap : r.poller.channelMap fd = some c)
    (hclosed : r.holder fd = none) : ¬ Live r := by
  intro h
  obtain ⟨-, hopen, -⟩ := h.entries fd c hmap
  rw [hclosed] at hopen
  exact absurd hopen (by simp)

omit [DecidableEq ρ] in
/-- A channel is destroyed that is still in `channel_map_`. -/
theorem not_live_of_destroyed (fd : Int) (c : ρ) (hmap : r.poller.channelMap fd = some c)
    (hgone : r.chans c = none) : ¬ Live r := by
  intro h
  obtain ⟨hc, -⟩ := h.entries fd c hmap
  rw [hgone] at hc
  exact absurd hc (by simp)

end Registry

end HyperMuduo.Net
