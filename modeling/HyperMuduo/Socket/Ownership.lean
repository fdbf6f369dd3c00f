import Mathlib.Data.Fintype.Basic
import HyperMuduo.Buffer.Model
import HyperMuduo.Lib.PartialMap
import HyperMuduo.Lib.Run

/-!
# Who closes a descriptor

Model of the part of `net/Socket` that owns `socket_fd_`: the constructors, the move operations,
`invalidate`, `accept` and the destructor, for any number of `Socket` objects in one process. The rest of
the process opens and closes descriptors of its own (`outside`).

The kernel hands out a descriptor that is not open; its number may have been in use before. `close` of a
descriptor that is not open is the double close the class is there to prevent: the log of the calls keeps
whether the descriptor was open.

**`closed_once`**: a descriptor that a `Socket` took over is closed once, by the one object that holds it
at that moment, unless `invalidate` released it or an object still holds it.
-/

namespace HyperMuduo.Net.Socket

open HyperMuduo.Lib

variable {ι : Type} [DecidableEq ι]

/-- `INVALID_FD`. -/
def invalidFd : Int := -1

/-- An entry of the log. -/
inductive Event where
  | taken (fd : Int)
  | closed (fd : Int) (wasOpen : Bool)
  | released (fd : Int)
  deriving DecidableEq, Repr

/-- The `Socket` objects that are alive with their `socket_fd_`, and the open descriptors. -/
structure World (ι : Type) where
  objects : ι → Option Int
  isOpen : Int → Bool
  log : List Event

inductive Act (ι : Type) where
  /-- `Socket()`. -/
  | construct (o : ι) (fd : Int)
  /-- `Socket(sock_fd)`. -/
  | adopt (o : ι) (fd : Int)
  /-- `Socket(std::move(other))`. -/
  | moveConstruct (o other : ι)
  /-- `o = std::move(other)`. -/
  | moveAssign (o other : ι)
  | invalidate (o : ι)
  /-- `o` is what `accept` of the listener returns; `accept4` answers `fd`. -/
  | accept (o listener : ι) (fd : Int)
  | destroy (o : ι)
  /-- Other code opens or closes a descriptor. -/
  | outside (fd : Int) (on : Bool)
  deriving DecidableEq, Repr

namespace World

def start (isOpen : Int → Bool) : World ι := ⟨fun _ => none, isOpen, []⟩

def set (s : World ι) (o : ι) (v : Option Int) : World ι :=
  { s with objects := Function.update s.objects o v }

def record (s : World ι) (e : Event) : World ι := { s with log := s.log ++ [e] }

/-- A new object that takes a descriptor over. -/
def takeOver (s : World ι) (o : ι) (fd : Int) : World ι :=
  if fd = invalidFd then s.set o (some fd) else (s.set o (some fd)).record (.taken fd)

/-- `if (socket_fd_ != INVALID_FD) close(socket_fd_);`. -/
def close (s : World ι) (fd : Int) : World ι :=
  if fd = invalidFd then s
  else { s with
    isOpen := Function.update s.isOpen fd false
    log := s.log ++ [.closed fd (s.isOpen fd)] }

/-- The descriptor of `other` goes to `o`. -/
def transfer (s : World ι) (o other : ι) (fd : Int) : World ι :=
  (s.set o (some fd)).set other (some invalidFd)

def opened (s : World ι) (fd : Int) : World ι :=
  { s with isOpen := Function.update s.isOpen fd true }

def step (s : World ι) : Act ι → Except Fault (World ι)
  | .construct o fd => if fd = invalidFd then .error .abort else .ok ((s.opened fd).takeOver o fd)
  | .adopt o fd => .ok (s.takeOver o fd)
  | .moveConstruct o other =>
    match s.objects other with
    | some fd => .ok (s.transfer o other fd)
    | none => .error .invalidPointer
  | .moveAssign o other =>
    match s.objects o, s.objects other with
    | some old, some fd => if o = other then .ok s else .ok ((s.close old).transfer o other fd)
    | _, _ => .error .invalidPointer
  | .invalidate o =>
    match s.objects o with
    | some fd => .ok (if fd = invalidFd then s else (s.set o (some invalidFd)).record (.released fd))
    | none => .error .invalidPointer
  | .accept o listener fd =>
    match s.objects listener with
    | some _ => .ok (if 0 ≤ fd then (s.opened fd).takeOver o fd else s.takeOver o invalidFd)
    | none => .error .invalidPointer
  | .destroy o =>
    match s.objects o with
    | some fd => .ok ((s.close fd).set o none)
    | none => .error .invalidPointer
  | .outside fd on => .ok { s with isOpen := Function.update s.isOpen fd on }

/-- No object holds it. -/
def Free (s : World ι) (fd : Int) : Prop := ∀ o, s.objects o ≠ some fd

instance [Fintype ι] (s : World ι) (fd : Int) : Decidable (s.Free fd) :=
  inferInstanceAs (Decidable (∀ _, _))

/-- What the kernel may answer. -/
def Fresh (s : World ι) (fd : Int) : Prop := fd = invalidFd ∨ 0 ≤ fd ∧ s.isOpen fd = false

instance (s : World ι) (fd : Int) : Decidable (s.Fresh fd) := inferInstanceAs (Decidable (_ ∨ _))

/-- A new object is not alive yet, the kernel hands out what is not open, `Socket(sock_fd)` is given an
open descriptor that no `Socket` holds, and other code keeps to its own descriptors. -/
def Admissible (s : World ι) : Act ι → Prop
  | .construct o fd => s.objects o = none ∧ s.Fresh fd
  | .adopt o fd => s.objects o = none ∧ (fd = invalidFd ∨ s.isOpen fd = true ∧ s.Free fd)
  | .moveConstruct o _ => s.objects o = none
  | .accept o _ fd => s.objects o = none ∧ s.Fresh fd
  | .outside fd _ => s.Free fd
  | .moveAssign _ _ | .invalidate _ | .destroy _ => True

instance [Fintype ι] (s : World ι) : ∀ a : Act ι, Decidable (s.Admissible a)
  | .construct _ _ => inferInstanceAs (Decidable (_ ∧ _))
  | .adopt o fd => inferInstanceAs (Decidable (s.objects o = none ∧ (_ ∨ _ ∧ s.Free fd)))
  | .moveConstruct _ _ => inferInstanceAs (Decidable (_ = _))
  | .accept _ _ _ => inferInstanceAs (Decidable (_ ∧ _))
  | .outside fd _ => inferInstanceAs (Decidable (s.Free fd))
  | .moveAssign _ _ | .invalidate _ | .destroy _ => isTrue trivial

/-- Taken over, and not closed or released since. -/
def balance (log : List Event) (fd : Int) : Int :=
  log.count (.taken fd) - log.count (.closed fd true) - log.count (.released fd)

/-- The invariant. -/
structure Owned (s : World ι) : Prop where
  exclusive : ∀ o o' fd, fd ≠ invalidFd → s.objects o = some fd → s.objects o' = some fd → o = o'
  isOpen : ∀ o fd, fd ≠ invalidFd → s.objects o = some fd → s.isOpen fd = true
  closes : ∀ fd, Event.closed fd false ∉ s.log
  held : ∀ o fd, fd ≠ invalidFd → s.objects o = some fd → balance s.log fd = 1
  free : ∀ fd, fd ≠ invalidFd → s.Free fd → balance s.log fd = 0

variable {s s' : World ι} {a : Act ι} {o other : ι} {fd : Int}

theorem balance_concat (log : List Event) (e : Event) (fd : Int) :
    balance (log ++ [e]) fd = balance log fd + balance [e] fd := by
  unfold balance
  simp only [List.count_append]
  omega

theorem balance_taken (fd fd' : Int) : balance [.taken fd] fd' = if fd' = fd then 1 else 0 := by
  unfold balance
  by_cases h : fd' = fd
  · subst h
    simp
  · simp [h, Ne.symm h]

theorem balance_closed (fd fd' : Int) :
    balance [.closed fd true] fd' = if fd' = fd then -1 else 0 := by
  unfold balance
  by_cases h : fd' = fd
  · subst h
    simp
  · simp [h, Ne.symm h]

theorem balance_released (fd fd' : Int) :
    balance [.released fd] fd' = if fd' = fd then -1 else 0 := by
  unfold balance
  by_cases h : fd' = fd
  · subst h
    simp
  · simp [h, Ne.symm h]

/-! ## What the members do -/

/-- A new object takes over a descriptor that is open and held by nobody. -/
theorem Owned.takeOver (h : s.Owned) (hnew : s.objects o = none)
    (hfd : fd ≠ invalidFd → s.isOpen fd = true ∧ s.Free fd) : (s.takeOver o fd).Owned := by
  have hobjects : (s.takeOver o fd).objects = Function.update s.objects o (some fd) := by
    unfold World.takeOver
    split <;> rfl
  have hopen : (s.takeOver o fd).isOpen = s.isOpen := by
    unfold World.takeOver
    split <;> rfl
  have hlog : ∀ fd', fd' ≠ invalidFd → balance (s.takeOver o fd).log fd' =
      balance s.log fd' + if fd' = fd then 1 else 0 := by
    intro fd' hne
    unfold World.takeOver
    split
    · rename_i hinv
      rw [if_neg (by rw [hinv]; exact hne)]
      exact (add_zero _).symm
    · refine (balance_concat ..).trans ?_
      rw [balance_taken]
      rfl
  constructor
  · intro o₁ o₂ fd' hne h1 h2
    rw [hobjects] at h1 h2
    rcases update_some_inv h1 with ⟨rfl, rfl⟩ | ⟨-, hold1⟩
    · rcases update_some_inv h2 with ⟨rfl, -⟩ | ⟨-, hold2⟩
      · rfl
      · exact absurd hold2 ((hfd hne).2 o₂)
    · rcases update_some_inv h2 with ⟨rfl, rfl⟩ | ⟨-, hold2⟩
      · exact absurd hold1 ((hfd hne).2 o₁)
      · exact h.exclusive o₁ o₂ fd' hne hold1 hold2
  · intro o' fd' hne h1
    rw [hobjects] at h1
    rw [hopen]
    rcases update_some_inv h1 with ⟨rfl, rfl⟩ | ⟨-, h1⟩
    · exact (hfd hne).1
    · exact h.isOpen o' fd' hne h1
  · intro fd'
    unfold World.takeOver
    split
    · exact h.closes fd'
    · intro hmem
      rcases List.mem_append.mp hmem with hmem | hmem
      · exact h.closes fd' hmem
      · exact absurd hmem (by simp)
  · intro o' fd' hne h1
    rw [hobjects] at h1
    rw [hlog fd' hne]
    rcases update_some_inv h1 with ⟨rfl, rfl⟩ | ⟨-, hold⟩
    · rw [if_pos rfl, h.free fd' hne (hfd hne).2]
      rfl
    · rw [if_neg, h.held o' fd' hne hold]
      · rfl
      · rintro rfl
        exact (hfd hne).2 o' hold
  · intro fd' hne hfree
    have hother : fd' ≠ fd := by
      rintro rfl
      refine hfree o ?_
      rw [hobjects, Function.update_self]
    have hwas : s.Free fd' := by
      intro o' h1
      refine hfree o' ?_
      rw [hobjects, Function.update_of_ne, h1]
      rintro rfl
      exact absurd (hnew.symm.trans h1) (by simp)
    rw [hlog fd' hne, if_neg hother, h.free fd' hne hwas]
    rfl

/-- The object gives its descriptor up, by a `close` or a release, and is empty or gone. -/
theorem Owned.giveUp (h : s.Owned) (ho : s.objects o = some fd) {v : Option Int}
    (hv : ∀ fd', v = some fd' → fd' = invalidFd) {isOpen : Int → Bool} {log : List Event}
    (hopen : ∀ fd', fd' ≠ fd → isOpen fd' = s.isOpen fd')
    (hcloses : ∀ fd', Event.closed fd' false ∉ log)
    (hlog : ∀ fd', fd' ≠ invalidFd → balance log fd' = balance s.log fd' + if fd' = fd then -1 else 0) :
    Owned ⟨Function.update s.objects o v, isOpen, log⟩ := by
  -- what is still held was held, by the same object, and is another descriptor
  have hkeep : ∀ {o' fd'}, fd' ≠ invalidFd → Function.update s.objects o v o' = some fd' →
      s.objects o' = some fd' ∧ fd' ≠ fd := by
    intro o' fd' hne h1
    by_cases hsame : o' = o
    · subst hsame
      rw [Function.update_self] at h1
      exact absurd (hv fd' h1) hne
    · rw [Function.update_of_ne hsame] at h1
      refine ⟨h1, ?_⟩
      rintro rfl
      exact hsame (h.exclusive o' o fd' hne h1 ho)
  constructor
  · intro o₁ o₂ fd' hne h1 h2
    exact h.exclusive o₁ o₂ fd' hne (hkeep hne h1).1 (hkeep hne h2).1
  · intro o' fd' hne h1
    obtain ⟨h1, hother⟩ := hkeep hne h1
    exact (hopen fd' hother).trans (h.isOpen o' fd' hne h1)
  · exact hcloses
  · intro o' fd' hne h1
    obtain ⟨h1, hother⟩ := hkeep hne h1
    change balance log fd' = 1
    rw [hlog fd' hne, if_neg hother, h.held o' fd' hne h1]
    rfl
  · intro fd' hne hfree
    change balance log fd' = 0
    rw [hlog fd' hne]
    by_cases hsame : fd' = fd
    · subst hsame
      rw [if_pos rfl, h.held o fd' hne ho]
      rfl
    · rw [if_neg hsame, h.free fd' hne]
      · rfl
      · intro o' h1
        refine hfree o' ?_
        change Function.update s.objects o v o' = _
        rw [Function.update_of_ne, h1]
        rintro rfl
        exact hsame (Option.some.inj (h1.symm.trans ho))

/-- A `close` is of an open descriptor. -/
theorem Owned.close (h : s.Owned) (ho : s.objects o = some fd) {v : Option Int}
    (hv : ∀ fd', v = some fd' → fd' = invalidFd) : ((s.close fd).set o v).Owned := by
  unfold World.close
  split
  · rename_i hinv
    refine h.giveUp ho hv (fun _ _ => rfl) h.closes ?_
    intro fd' hne
    rw [if_neg (by rw [hinv]; exact hne)]
    exact (add_zero _).symm
  · rename_i hvalid
    have hopen := h.isOpen o fd hvalid ho
    refine h.giveUp ho hv ?_ ?_ ?_
    · intro fd' hother
      exact Function.update_of_ne hother ..
    · intro fd' hmem
      rcases List.mem_append.mp hmem with hmem | hmem
      · exact h.closes fd' hmem
      · rw [hopen] at hmem
        exact absurd hmem (by simp)
    · intro fd' _
      rw [balance_concat, hopen, balance_closed]

/-- The descriptor of an object goes to one that has none. -/
theorem Owned.transfer (h : s.Owned) (hne : o ≠ other) (hother : s.objects other = some fd)
    (ho : ∀ fd', s.objects o = some fd' → fd' = invalidFd) : (s.transfer o other fd).Owned := by
  have hobjects : ∀ {o' fd'}, fd' ≠ invalidFd → ((s.transfer o other fd).objects o' = some fd' ↔
      o' = o ∧ fd' = fd ∨ o' ≠ other ∧ s.objects o' = some fd') := by
    intro o' fd' hvalid
    change Function.update (Function.update s.objects o (some fd)) other _ o' = _ ↔ _
    by_cases h1 : o' = other
    · subst h1
      simp [Ne.symm hvalid, Ne.symm hne]
    · by_cases h2 : o' = o
      · subst h2
        rw [Function.update_of_ne h1, Function.update_self]
        constructor
        · intro heq
          exact Or.inl ⟨rfl, (Option.some.inj heq).symm⟩
        · rintro (⟨-, rfl⟩ | ⟨-, hold⟩)
          · rfl
          · exact absurd (ho fd' hold) hvalid
      · simp [h1, h2]
  -- every holder after the step stands for one before it
  have hwas : ∀ {o' fd'}, fd' ≠ invalidFd → (s.transfer o other fd).objects o' = some fd' →
      ∃ o₁, s.objects o₁ = some fd' ∧ (o₁ = other → o' = o) ∧ (o₁ ≠ other → o' = o₁) := by
    intro o' fd' hvalid h1
    rcases (hobjects hvalid).mp h1 with ⟨rfl, rfl⟩ | ⟨hneq, h1⟩
    · exact ⟨other, hother, fun _ => rfl, fun hno => absurd rfl hno⟩
    · exact ⟨o', h1, fun heq => absurd heq hneq, fun _ => rfl⟩
  constructor
  · intro o₁ o₂ fd' hvalid h1 h2
    obtain ⟨p₁, hp1, hto1, hst1⟩ := hwas hvalid h1
    obtain ⟨p₂, hp2, hto2, hst2⟩ := hwas hvalid h2
    obtain rfl := h.exclusive p₁ p₂ fd' hvalid hp1 hp2
    by_cases hp : p₁ = other
    · rw [hto1 hp, hto2 hp]
    · rw [hst1 hp, hst2 hp]
  · intro o' fd' hvalid h1
    obtain ⟨p, hp, -⟩ := hwas hvalid h1
    exact h.isOpen p fd' hvalid hp
  · exact h.closes
  · intro o' fd' hvalid h1
    obtain ⟨p, hp, -⟩ := hwas hvalid h1
    exact h.held p fd' hvalid hp
  · intro fd' hvalid hfree
    refine h.free fd' hvalid ?_
    intro o' h1
    by_cases heq : o' = other
    · subst heq
      exact hfree o ((hobjects hvalid).mpr (Or.inl ⟨rfl, Option.some.inj (h1.symm.trans hother)⟩))
    · exact hfree o' ((hobjects hvalid).mpr (Or.inr ⟨heq, h1⟩))

omit [DecidableEq ι] in
/-- The kernel or other code opens or closes a descriptor that nobody holds. -/
theorem Owned.outside (h : s.Owned) (hfree : fd ≠ invalidFd → s.Free fd) (on : Bool) :
    Owned { s with isOpen := Function.update s.isOpen fd on } := by
  refine ⟨h.exclusive, ?_, h.closes, h.held, h.free⟩
  intro o' fd' hvalid h1
  change Function.update s.isOpen fd on fd' = true
  rw [Function.update_of_ne]
  · exact h.isOpen o' fd' hvalid h1
  · rintro rfl
    exact hfree hvalid o' h1

/-! ## Every run -/

/-- The kernel hands out a descriptor, and a new object takes it over. -/
theorem Owned.handedOut (h : s.Owned) (hnew : s.objects o = none) (hfresh : s.Fresh fd) :
    ((s.opened fd).takeOver o fd).Owned := by
  have hfree : fd ≠ invalidFd → s.Free fd := by
    intro hvalid o' h1
    obtain hinv | ⟨-, hclosed⟩ := hfresh
    · exact hvalid hinv
    · exact absurd ((h.isOpen o' fd hvalid h1).symm.trans hclosed) (by simp)
  refine (h.outside hfree true).takeOver hnew ?_
  intro hvalid
  exact ⟨Function.update_self .., hfree hvalid⟩

theorem step_owned (h : s.Owned) (ha : s.Admissible a) (he : s.step a = .ok s') : s'.Owned := by
  cases a with
  | construct o fd =>
    simp only [step] at he
    split at he
    · exact absurd he (by simp)
    · obtain rfl := Except.ok.inj he
      exact h.handedOut ha.1 ha.2
  | adopt o fd =>
    obtain rfl := Except.ok.inj he
    refine h.takeOver ha.1 ?_
    intro hvalid
    exact ha.2.resolve_left hvalid
  | moveConstruct o other =>
    simp only [step] at he
    split at he
    · rename_i fd hother
      obtain rfl := Except.ok.inj he
      refine h.transfer ?_ hother ?_
      · rintro rfl
        exact absurd (ha.symm.trans hother) (by simp)
      · intro fd' hold
        exact absurd (hold.symm.trans ha) (by simp)
    · exact absurd he (by simp)
  | moveAssign o other =>
    simp only [step] at he
    split at he
    · rename_i old fd ho hother
      split at he
      · obtain rfl := Except.ok.inj he
        exact h
      · rename_i hne
        obtain rfl := Except.ok.inj he
        -- between the `close` and the assignment the object is as good as empty
        have hempty := h.close ho (v := some invalidFd) fun _ hv => (Option.some.inj hv).symm
        have hset : (s.close old).transfer o other fd =
            ((s.close old).set o (some invalidFd)).transfer o other fd := by
          unfold transfer set
          simp only [Function.update_idem]
        rw [hset]
        have hsame : (s.close old).objects = s.objects := by
          unfold World.close
          split <;> rfl
        refine hempty.transfer hne ?_ ?_
        · change Function.update (s.close old).objects o _ other = _
          rw [Function.update_of_ne (Ne.symm hne), hsame, hother]
        · intro fd' hfd'
          change Function.update (s.close old).objects o _ o = _ at hfd'
          rw [Function.update_self] at hfd'
          exact (Option.some.inj hfd').symm
    · exact absurd he (by simp)
  | invalidate o =>
    simp only [step] at he
    split at he
    · rename_i fd ho
      obtain rfl := Except.ok.inj he
      split
      · exact h
      · refine h.giveUp ho (fun _ hv => (Option.some.inj hv).symm) (fun _ _ => rfl) ?_ ?_
        · intro fd' hmem
          rcases List.mem_append.mp hmem with hmem | hmem
          · exact h.closes fd' hmem
          · exact absurd hmem (by simp)
        · intro fd' _
          refine (balance_concat ..).trans ?_
          rw [balance_released]
          rfl
    · exact absurd he (by simp)
  | accept o listener fd =>
    simp only [step] at he
    split at he
    · obtain rfl := Except.ok.inj he
      split
      · exact h.handedOut ha.1 ha.2
      · exact h.takeOver ha.1 fun hvalid => absurd rfl hvalid
    · exact absurd he (by simp)
  | destroy o =>
    simp only [step] at he
    split at he
    · rename_i fd ho
      obtain rfl := Except.ok.inj he
      exact h.close ho fun _ hv => absurd hv (by simp)
    · exact absurd he (by simp)
  | outside fd on =>
    obtain rfl := Except.ok.inj he
    exact h.outside (fun _ => ha) on

/-- **Every descriptor is closed once.** In every run of `Socket` objects, no `close` is of a descriptor
that is not open, no two objects hold the same one, and what an object holds is open. A descriptor was
taken over as often as it was closed or released by `invalidate`, and once more while an object holds
it. -/
theorem closed_once (isOpen : Int → Bool) (acts : List (Act ι))
    (hadm : Along step Admissible (start isOpen) acts) (s : World ι)
    (hrun : run step (start isOpen) acts = .ok s) :
    (∀ fd, Event.closed fd false ∉ s.log) ∧ ∀ fd, fd ≠ invalidFd →
      (∀ o o', s.objects o = some fd → s.objects o' = some fd → o = o') ∧
      (∀ o, s.objects o = some fd → s.isOpen fd = true ∧ s.log.count (.taken fd) =
        s.log.count (.closed fd true) + s.log.count (.released fd) + 1) ∧
      (s.Free fd → s.log.count (.taken fd) =
        s.log.count (.closed fd true) + s.log.count (.released fd)) := by
  have hstart : (start isOpen : World ι).Owned := by
    constructor
    · intro o o' fd _ h
      exact absurd h (by simp [start])
    · intro o fd _ h
      exact absurd h (by simp [start])
    · intro fd h
      exact absurd h (by simp [start])
    · intro o fd _ h
      exact absurd h (by simp [start])
    · intro fd _ _
      rfl
  have h := run_invariant (I := Owned) step_owned hstart hadm hrun
  refine ⟨h.closes, fun fd hvalid => ⟨?_, ?_, ?_⟩⟩
  · intro o o' h1 h2
    exact h.exclusive o o' fd hvalid h1 h2
  · intro o h1
    refine ⟨h.isOpen o fd hvalid h1, ?_⟩
    have hbalance := h.held o fd hvalid h1
    unfold balance at hbalance
    omega
  · intro hfree
    have hbalance := h.free fd hvalid hfree
    unfold balance at hbalance
    omega

/-- A listener accepts, the socket is moved into a connection, another one is assigned over it, and
everything is destroyed. -/
def acceptAndMove : List (Act (Fin 4)) :=
  [.construct 0 3, .accept 1 0 4, .moveConstruct 2 1, .destroy 1, .accept 1 0 5, .moveAssign 2 1,
    .destroy 1, .accept 1 0 4, .destroy 2, .destroy 1, .destroy 0]

theorem closed_once_acceptAndMove :
    ∃ s, run step (start fun _ => false) acceptAndMove = .ok s ∧
      s.log.count (.taken 4) = 2 ∧ s.log.count (.closed 4 true) = 2 ∧
      s.log.count (.taken 4) = s.log.count (.closed 4 true) + s.log.count (.released 4) := by
  have hadm : Along step Admissible (start fun _ => false) acceptAndMove := by decide +kernel
  have hend : ∃ s, run step (start fun _ => false) acceptAndMove = .ok s ∧
      s.log.count (.taken 4) = 2 ∧ s.log.count (.closed 4 true) = 2 ∧ s.Free 4 := by decide +kernel
  obtain ⟨s, hrun, htaken, hclosed, hfree⟩ := hend
  obtain ⟨-, hlaw⟩ := closed_once (fun _ => false) acceptAndMove hadm s hrun
  exact ⟨s, hrun, htaken, hclosed, (hlaw 4 (by decide)).2.2 hfree⟩

end World

end HyperMuduo.Net.Socket
