import Mathlib.Data.List.Perm.Subperm
import HyperMuduo.Lib.PartialMap
import HyperMuduo.EventLoop.Backends

/-!
# How long `events_` is too short

`Epoller::poll` asks `epoll_wait` for at most `events_.size()` channels, and doubles the array after a
poll that filled it. Until it is long enough a poll can leave out a channel that is ready.

A `Life` is a loop on `Epoller` from its construction on: interest changes, removals, and polls under
any readiness. It counts the polls that filled the array (`full`) and, as a ghost, those after which a
ready channel is not in the list of active ones (`missed`).

* A poll that leaves a channel out filled the array, so the array doubles (`missed_fills`).
* What fills the array is registered, so the array never gets longer than twice what was ever
  registered at a time.

**`events_growth`**: over the whole life, with at most `N` channels registered at a time, the array
holds at most `max 16 (2 * N)` events, and fewer than `log₂ (N / 8)` polls leave out a ready channel.
-/

namespace HyperMuduo.Net.EpollLoop

open HyperMuduo.Lib

variable {ρ κ : Type} [DecidableEq ρ]

/-- A loop on `Epoller` with the polls it made. -/
structure Life (ρ κ : Type) where
  loop : EpollLoop ρ κ
  full : Nat
  missed : Nat

inductive Act (ρ : Type) where
  | call (a : RegCall ρ)
  /-- `epoll_wait` returns the descriptors of `batch`. -/
  | poll (ready : Int → Readiness) (batch : List Int)

/-- Some descriptor of `fds` is ready, and the channel registered on it is not reported. -/
def leavesOut (fds : List Int) (v : EpollLoop ρ κ) (ready : Int → Readiness) (batch : List Int) :
    Bool :=
  fds.any fun fd =>
    match v.epoller.kernel fd with
    | none => false
    | some (c, asked) =>
      (ready fd).toEpoll asked ≠ .none && c ∉ (v.poll ready batch []).2

/-- The descriptors of `fds` in the epoll set. -/
def registered (fds : List Int) (v : EpollLoop ρ κ) : Nat :=
  fds.countP fun fd => (v.epoller.kernel fd).isSome

namespace Life

def start (objs : ρ → Channel κ) : Life ρ κ where
  loop := { epoller := .empty, objs := objs, eventsSize := 16 }
  full := 0
  missed := 0

def step (fds : List Int) (s : Life ρ κ) : Act ρ → Except Fault (Life ρ κ)
  | .call a => .ok { s with loop := s.loop.step a }
  | .poll ready batch => .ok {
      loop := (s.loop.poll ready batch []).1
      full := if batch.length = s.loop.eventsSize then s.full + 1 else s.full
      missed := if leavesOut fds s.loop ready batch then s.missed + 1 else s.missed }

/-- The channels are on descriptors of the process, and at most `N` are registered at a poll. -/
def Admissible (fds : List Int) (N : Nat) (s : Life ρ κ) : Act ρ → Prop
  | .call (.interest c _) => (s.loop.objs c).fd ∈ fds
  | .call (.removeChannel _) => True
  | .poll ready batch => s.loop.EpollWait ready batch ∧ registered fds s.loop ≤ N

/-- The epoll set is on descriptors of the process. -/
def Inside (fds : List Int) (s : Life ρ κ) : Prop :=
  ∀ fd reg, s.loop.epoller.kernel fd = some reg → fd ∈ fds

structure Grown (fds : List Int) (N : Nat) (s : Life ρ κ) : Prop where
  inside : s.Inside fds
  size : s.loop.eventsSize = 16 * 2 ^ s.full
  filled : s.full = 0 ∨ 16 * 2 ^ s.full ≤ 2 * N
  fewer : s.missed ≤ s.full
  starved : s.missed = 0 ∨ 16 * 2 ^ s.missed < 2 * N

variable {fds : List Int} {N : Nat} {s s' : Life ρ κ} {v : EpollLoop ρ κ}
  {ready : Int → Readiness} {batch : List Int}

/-! ## One poll -/

omit [DecidableEq ρ] in
/-- Distinct descriptors of the epoll set are no more than are registered. -/
theorem length_le_registered {l : List Int} (hnodup : l.Nodup)
    (hin : ∀ fd ∈ l, fd ∈ fds ∧ (v.epoller.kernel fd).isSome) : l.length ≤ registered fds v := by
  unfold registered
  rw [List.countP_eq_length_filter]
  refine (List.subperm_of_subset hnodup ?_).length_le
  intro fd hfd
  exact List.mem_filter.mpr (hin fd hfd)

/-- What `epoll_wait` returned is reported. -/
theorem mem_active {fd : Int} {c : ρ} {asked : EpollEvents} (hfd : fd ∈ batch)
    (hkernel : v.epoller.kernel fd = some (c, asked)) : c ∈ (v.poll ready batch []).2 := by
  unfold EpollLoop.poll
  dsimp only
  rw [fillActiveChannels_active, List.nil_append]
  refine List.mem_map.mpr ⟨(c, (ready fd).toEpoll asked), ?_, rfl⟩
  exact List.mem_filterMap.mpr ⟨fd, hfd, by rw [hkernel]; rfl⟩

/-- **A poll that leaves a channel out fills the array**, and more is registered than it holds. -/
theorem missed_fills (hwait : v.EpollWait ready batch)
    (hinside : ∀ fd reg, v.epoller.kernel fd = some reg → fd ∈ fds)
    (hmiss : leavesOut fds v ready batch = true) :
    batch.length = v.eventsSize ∧ v.eventsSize < registered fds v := by
  unfold leavesOut at hmiss
  obtain ⟨fd, hfd, hout⟩ := List.any_eq_true.mp hmiss
  split at hout
  · exact absurd hout (by simp)
  · rename_i c asked hkernel
    obtain ⟨hready, hc⟩ : (ready fd).toEpoll asked ≠ .none ∧ c ∉ (v.poll ready batch []).2 := by
      simpa using hout
    have hnot : fd ∉ batch := fun hmem => hc (mem_active hmem hkernel)
    have hfull : batch.length = v.eventsSize := by
      refine le_antisymm hwait.length (not_lt.mp ?_)
      intro hroom
      exact hnot (hwait.complete hroom fd _ hkernel hready)
    refine ⟨hfull, ?_⟩
    have hall : (fd :: batch).length ≤ registered fds v := by
      refine length_le_registered (List.nodup_cons.mpr ⟨hnot, hwait.nodup⟩) ?_
      intro fd' hfd'
      rcases List.mem_cons.mp hfd' with rfl | hmem
      · exact ⟨hfd, by rw [hkernel]; rfl⟩
      · obtain ⟨reg, hreg, -⟩ := hwait.sound fd' hmem
        exact ⟨hinside fd' reg hreg, by rw [hreg]; rfl⟩
    rw [List.length_cons, hfull] at hall
    exact hall

omit [DecidableEq ρ] in
/-- What `epoll_wait` returned is registered. -/
theorem batch_le_registered (hwait : v.EpollWait ready batch)
    (hinside : ∀ fd reg, v.epoller.kernel fd = some reg → fd ∈ fds) :
    batch.length ≤ registered fds v := by
  refine length_le_registered hwait.nodup ?_
  intro fd hfd
  obtain ⟨reg, hreg, -⟩ := hwait.sound fd hfd
  exact ⟨hinside fd reg hreg, by rw [hreg]; rfl⟩

/-! ## The whole life -/

omit [DecidableEq ρ] in
theorem start_grown (objs : ρ → Channel κ) : (start objs).Grown fds N where
  inside fd reg hreg := absurd hreg (by simp [start, Epoller.empty])
  size := rfl
  filled := Or.inl rfl
  fewer := le_refl _
  starved := Or.inl rfl

theorem call_inside {a : RegCall ρ} (h : s.Inside fds) (ha : s.Admissible fds N (.call a)) :
    Inside fds { s with loop := s.loop.step a } := by
  intro fd reg hreg
  cases a with
  | interest c op =>
    simp only [EpollLoop.step, Epoller.updateChannel] at hreg
    split at hreg
    · split at hreg
      · rcases update_some_inv hreg with ⟨rfl, -⟩ | ⟨-, hold⟩
        · rw [Interest.apply_fd]
          exact ha
        · exact h fd reg hold
      · exact h fd reg hreg
    · split at hreg
      · exact h fd reg hreg
      · rcases update_some_inv hreg with ⟨rfl, -⟩ | ⟨-, hold⟩
        · rw [Interest.apply_fd]
          exact ha
        · exact h fd reg hold
  | removeChannel c =>
    simp only [EpollLoop.step, Epoller.removeChannel] at hreg
    split at hreg
    · exact h fd reg (update_none_inv hreg).2
    · exact h fd reg hreg

theorem step_grown {a : Act ρ} (h : s.Grown fds N) (ha : s.Admissible fds N a)
    (he : s.step fds a = .ok s') : s'.Grown fds N := by
  cases a with
  | call a =>
    obtain rfl := Except.ok.inj he
    have hsize : (s.loop.step a).eventsSize = s.loop.eventsSize := by cases a <;> rfl
    exact ⟨call_inside h.inside ha, hsize.trans h.size, h.filled, h.fewer, h.starved⟩
  | poll ready batch =>
    obtain rfl := Except.ok.inj he
    obtain ⟨hwait, hN⟩ := ha
    have hbatch := batch_le_registered hwait h.inside
    have hsize := h.size
    refine ⟨h.inside, ?_, ?_, ?_, ?_⟩
    · change (if batch.length = s.loop.eventsSize then s.loop.eventsSize * 2
        else s.loop.eventsSize) = 16 * 2 ^ (if batch.length = s.loop.eventsSize then s.full + 1
        else s.full)
      split
      · rw [hsize, Nat.pow_succ, Nat.mul_assoc]
      · exact hsize
    · dsimp only
      split
      · rename_i hfull
        refine Or.inr ?_
        rw [Nat.pow_succ]
        omega
      · exact h.filled
    · dsimp only
      split
      · rename_i hmiss
        rw [if_pos (missed_fills hwait h.inside hmiss).1]
        exact Nat.add_le_add_right h.fewer 1
      · have hfewer := h.fewer
        split <;> omega
    · dsimp only
      split
      · rename_i hmiss
        obtain ⟨-, hmore⟩ := missed_fills hwait h.inside hmiss
        have hpow : 2 ^ s.missed ≤ 2 ^ s.full := Nat.pow_le_pow_right (by decide) h.fewer
        refine Or.inr ?_
        rw [Nat.pow_succ]
        omega
      · exact h.starved

/-- **The array stays small, and few polls leave a channel out.** Over the life of a loop that never has
more than `N` channels registered when it polls, `events_` is `16 * 2 ^ full` long, which is at most
twice `N`, and the polls after which a ready channel is not active are fewer than `log₂ (N / 8)`. -/
theorem events_growth (objs : ρ → Channel κ) (fds : List Int) (N : Nat) (acts : List (Act ρ))
    (hadm : Along (step fds) (Admissible fds N) (start objs) acts) (s : Life ρ κ)
    (hrun : run (step fds) (start objs) acts = .ok s) :
    s.loop.eventsSize = 16 * 2 ^ s.full ∧ s.loop.eventsSize ≤ max 16 (2 * N) ∧
      s.missed ≤ s.full ∧ (s.missed = 0 ∨ 16 * 2 ^ s.missed < 2 * N) := by
  have h : s.Grown fds N := run_invariant step_grown (start_grown objs) hadm hrun
  refine ⟨h.size, ?_, h.fewer, h.starved⟩
  rw [h.size]
  rcases h.filled with hnone | hle
  · rw [hnone]
    exact le_max_left _ _
  · exact le_trans hle (le_max_right _ _)

/-- `EpollWait`, read off the descriptors of `fds`. -/
def WaitsOn (fds : List Int) (v : EpollLoop ρ κ) (ready : Int → Readiness) (batch : List Int) : Prop :=
  batch.Nodup ∧ batch.length ≤ v.eventsSize ∧
    (∀ fd ∈ batch, (v.epoller.kernel fd).any fun reg => (ready fd).toEpoll reg.2 ≠ .none) ∧
    (batch.length < v.eventsSize → ∀ fd ∈ fds,
      (v.epoller.kernel fd).all fun reg => (ready fd).toEpoll reg.2 = .none || fd ∈ batch)

instance (fds : List Int) (v : EpollLoop ρ κ) (ready : Int → Readiness) (batch : List Int) :
    Decidable (WaitsOn fds v ready batch) := inferInstanceAs (Decidable (_ ∧ _ ∧ _ ∧ _))

omit [DecidableEq ρ] in
theorem WaitsOn.epollWait (h : WaitsOn fds v ready batch)
    (hinside : ∀ fd reg, v.epoller.kernel fd = some reg → fd ∈ fds) : v.EpollWait ready batch where
  nodup := h.1
  length := h.2.1
  sound fd hfd := by
    obtain ⟨reg, hreg, hne⟩ := (Option.any_eq_true ..).mp (h.2.2.1 fd hfd)
    exact ⟨reg, hreg, of_decide_eq_true hne⟩
  complete hroom fd reg hreg hne := by
    have hall := h.2.2.2 hroom fd (hinside fd reg hreg)
    rw [hreg, Option.all_some] at hall
    simpa [hne] using hall

/-- `Admissible`, read off the descriptors of `fds`. -/
def Checked (fds : List Int) (N : Nat) (s : Life ρ κ) : Act ρ → Prop
  | .call (.interest c _) => (s.loop.objs c).fd ∈ fds
  | .call (.removeChannel _) => True
  | .poll ready batch => WaitsOn fds s.loop ready batch ∧ registered fds s.loop ≤ N

instance (fds : List Int) (N : Nat) (s : Life ρ κ) (a : Act ρ) : Decidable (s.Checked fds N a) :=
  match a with
  | .call (.interest _ _) => inferInstanceAs (Decidable (_ ∈ _))
  | .call (.removeChannel _) => isTrue trivial
  | .poll _ _ => inferInstanceAs (Decidable (_ ∧ _))

omit [DecidableEq ρ] in
theorem Checked.admissible {a : Act ρ} (hinside : s.Inside fds) (h : s.Checked fds N a) :
    s.Admissible fds N a := by
  cases a with
  | call a => cases a <;> exact h
  | poll ready batch => exact ⟨h.1.epollWait hinside, h.2⟩

/-- Every descriptor has bytes to read. -/
def allReadable (_ : Int) : Readiness := ⟨true, false, true, false, false, false⟩

def firstFds (n : Nat) : List Int := (List.range n).map Int.ofNat

def readers : Life Nat Unit := start fun c => .construct (Int.ofNat c)

/-- Seventeen channels that want to read, all of them ready at two polls. -/
def seventeenReaders : List (Act Nat) :=
  ((List.range 17).map fun c => .call (.interest c .listenTillReadable)) ++
    [.poll allReadable (firstFds 16), .poll allReadable (firstFds 17)]

theorem events_growth_seventeenReaders :
    ∃ s, run (step (firstFds 17)) readers seventeenReaders = .ok s ∧ s.full = 1 ∧ s.missed = 1 ∧
      s.loop.eventsSize = 16 * 2 ^ s.full ∧ s.loop.eventsSize ≤ max 16 (2 * 17) := by
  have hchecked : Along (step (firstFds 17)) (Checked (firstFds 17) 17) readers seventeenReaders := by
    decide +kernel
  have hadm : Along (step (firstFds 17)) (Admissible (firstFds 17) 17) readers seventeenReaders :=
    Along.of_invariant (I := Grown (firstFds 17) 17)
      (fun h ha he => step_grown h (ha.admissible h.inside) he)
      (fun h ha => ha.admissible h.inside) (start_grown _) hchecked
  have hrun : ∃ s, run (step (firstFds 17)) readers seventeenReaders = .ok s ∧
      s.full = 1 ∧ s.missed = 1 := by decide +kernel
  obtain ⟨s, hs, hfull, hmissed⟩ := hrun
  obtain ⟨hsize, hle, -⟩ := events_growth _ _ 17 _ hadm s hs
  exact ⟨s, hs, hfull, hmissed, hsize, hle⟩

end Life

end HyperMuduo.Net.EpollLoop
