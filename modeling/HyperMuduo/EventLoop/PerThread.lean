import Mathlib.Data.Fintype.Basic
import HyperMuduo.Buffer.Model
import HyperMuduo.Lib.PartialMap
import HyperMuduo.Lib.Run

/-!
# One loop per thread

Model of what ties an `EventLoop` to a thread: `thread_id_`, `t_current_thread_loop` in
`net/EventLoop.cpp`, and the thread id that `Base/CurrentThread` caches. The rest of the development
takes it for granted that a loop has the thread that created it (`isInLoopThread`).

* A thread starts with an empty cache and no loop, and under a thread id that no running thread has. The
  kernel gives the id of a finished thread to a later one.
* The constructor keeps the id of its thread, and aborts when the thread has a loop already. The
  destructor may run anywhere; it clears the pointer of the thread it runs on.

**`one_loop_per_thread`**: when every loop is destroyed on its own thread before that ends, as in
`EventLoopThread`, `isInLoopThread` means that the loop is the one of the current thread.
-/

namespace HyperMuduo.Net.EventLoop

open HyperMuduo.Lib

variable {θ Λ : Type} [DecidableEq θ] [DecidableEq Λ]

/-- A running thread. -/
structure Thread (Λ : Type) where
  tid : Nat
  /-- `current_thread_tid_`. -/
  cachedTid : Nat
  /-- `t_current_thread_loop`. -/
  currentLoop : Option Λ
  deriving DecidableEq, Repr

/-- `CurrentThread::getTid`: the id, and the thread after the call. -/
def Thread.getTid (t : Thread Λ) : Nat × Thread Λ :=
  if t.cachedTid = 0 then (t.tid, { t with cachedTid := t.tid }) else (t.cachedTid, t)

/-- The running threads, and the loops that exist with their `thread_id_`. -/
structure Threads (θ Λ : Type) where
  threads : θ → Option (Thread Λ)
  loops : Λ → Option Nat

inductive ThreadAct (θ Λ : Type) where
  | spawn (x : θ) (tid : Nat)
  | exit (x : θ)
  /-- `isInLoopThread`, called on the thread. -/
  | isInLoopThread (x : θ) (l : Λ)
  | construct (x : θ) (l : Λ)
  | destroy (x : θ) (l : Λ)
  deriving DecidableEq, Repr

namespace Threads

def start : Threads θ Λ := ⟨fun _ => none, fun _ => none⟩

def step (s : Threads θ Λ) : ThreadAct θ Λ → Except Fault (Threads θ Λ)
  | .spawn x tid => .ok { s with threads := Function.update s.threads x (some ⟨tid, 0, none⟩) }
  | .exit x => .ok { s with threads := Function.update s.threads x none }
  | .isInLoopThread x l =>
    match s.threads x, s.loops l with
    | some t, some _ => .ok { s with threads := Function.update s.threads x (some t.getTid.2) }
    | _, _ => .error .invalidPointer
  | .construct x l =>
    match s.threads x with
    | none => .error .invalidPointer
    | some t =>
      let (tid, t) := t.getTid
      match t.currentLoop with
      | none => .ok
        { threads := Function.update s.threads x (some { t with currentLoop := some l })
          loops := Function.update s.loops l (some tid) }
      | some _ => .error .abort
  | .destroy x l =>
    match s.threads x, s.loops l with
    | some t, some _ => .ok
      { threads := Function.update s.threads x (some { t with currentLoop := none })
        loops := Function.update s.loops l none }
    | _, _ => .error .invalidPointer

/-- What `isInLoopThread` answers on the thread. -/
def inLoopThread (t : Thread Λ) (threadId : Nat) : Bool := threadId = t.getTid.1

/-- A running thread has an id of its own, a new loop is a new object, and a loop is destroyed on its
thread before the thread ends. -/
def Admissible (s : Threads θ Λ) : ThreadAct θ Λ → Prop
  | .spawn x tid => s.threads x = none ∧ tid ≠ 0 ∧ ∀ y t, s.threads y = some t → t.tid ≠ tid
  | .exit x => ∀ t, s.threads x = some t → t.currentLoop = none
  | .construct _ l => s.loops l = none
  | .destroy x l => ∀ t, s.threads x = some t → t.currentLoop = some l
  | .isInLoopThread _ _ => True

instance [Fintype θ] (s : Threads θ Λ) : ∀ a : ThreadAct θ Λ, Decidable (s.Admissible a)
  | .spawn x tid => inferInstanceAs
      (Decidable (s.threads x = none ∧ tid ≠ 0 ∧ ∀ y, ∀ t ∈ s.threads y, t.tid ≠ tid))
  | .exit x => inferInstanceAs (Decidable (∀ t ∈ s.threads x, t.currentLoop = none))
  | .construct _ _ => inferInstanceAs (Decidable (_ = _))
  | .destroy x l => inferInstanceAs (Decidable (∀ t ∈ s.threads x, t.currentLoop = some l))
  | .isInLoopThread _ _ => isTrue trivial

/-- The invariant. -/
structure Tied (s : Threads θ Λ) : Prop where
  tid_pos : ∀ {x t}, s.threads x = some t → t.tid ≠ 0
  cached : ∀ {x t}, s.threads x = some t → t.cachedTid = 0 ∨ t.cachedTid = t.tid
  tid_inj : ∀ {x y t u}, s.threads x = some t → s.threads y = some u → t.tid = u.tid → x = y
  /-- The pointer of a thread is to a loop that exists and has its id. -/
  current : ∀ {x t l}, s.threads x = some t → t.currentLoop = some l → s.loops l = some t.tid
  /-- A loop is the one of a running thread. -/
  owner : ∀ {l i}, s.loops l = some i → ∃ x t, s.threads x = some t ∧ t.currentLoop = some l

variable {s s' : Threads θ Λ} {x : θ} {t : Thread Λ} {l : Λ}

omit [DecidableEq Λ] in
theorem getTid_eq (hcached : t.cachedTid = 0 ∨ t.cachedTid = t.tid) :
    t.getTid.1 = t.tid ∧ t.getTid.2.tid = t.tid ∧ t.getTid.2.currentLoop = t.currentLoop ∧
      (t.getTid.2.cachedTid = 0 ∨ t.getTid.2.cachedTid = t.tid) := by
  unfold Thread.getTid
  split
  · exact ⟨rfl, rfl, rfl, Or.inr rfl⟩
  · rename_i hne
    exact ⟨hcached.resolve_left hne, rfl, rfl, hcached⟩

omit [DecidableEq Λ] in
/-- One thread changes, and keeps its id. -/
theorem Tied.thread (h : s.Tied) (hx : s.threads x = some t) {u : Thread Λ} {loops : Λ → Option Nat}
    (htid : u.tid = t.tid) (hcached : u.cachedTid = 0 ∨ u.cachedTid = t.tid)
    (hcurrent : ∀ l, u.currentLoop = some l → loops l = some t.tid)
    (hothers : ∀ {y v l}, y ≠ x → s.threads y = some v → v.currentLoop = some l →
      loops l = some v.tid)
    (howner : ∀ {l i}, loops l = some i → u.currentLoop = some l ∨
      ∃ y v, y ≠ x ∧ s.threads y = some v ∧ v.currentLoop = some l) :
    Tied ⟨Function.update s.threads x (some u), loops⟩ := by
  constructor
  · intro y v hy
    rcases update_some_inv hy with ⟨-, rfl⟩ | ⟨-, hy⟩
    · rw [htid]
      exact h.tid_pos hx
    · exact h.tid_pos hy
  · intro y v hy
    rcases update_some_inv hy with ⟨-, rfl⟩ | ⟨-, hy⟩
    · rw [htid]
      exact hcached
    · exact h.cached hy
  · intro y z v w hy hz heq
    rcases update_some_inv hy with ⟨rfl, rfl⟩ | ⟨hyx, hy'⟩
    · rcases update_some_inv hz with ⟨rfl, -⟩ | ⟨hzx, hz'⟩
      · rfl
      · exact absurd (h.tid_inj hx hz' (htid.symm.trans heq)).symm hzx
    · rcases update_some_inv hz with ⟨rfl, rfl⟩ | ⟨-, hz'⟩
      · exact absurd (h.tid_inj hy' hx (heq.trans htid)) hyx
      · exact h.tid_inj hy' hz' heq
  · intro y v l hy hl
    rcases update_some_inv hy with ⟨-, rfl⟩ | ⟨hyx, hy'⟩
    · rw [htid]
      exact hcurrent l hl
    · exact hothers hyx hy' hl
  · intro l i hl
    rcases howner hl with hl | ⟨y, v, hyx, hy, hl⟩
    · exact ⟨x, u, Function.update_self .., hl⟩
    · refine ⟨y, v, ?_, hl⟩
      change Function.update s.threads x (some u) y = some v
      rw [Function.update_of_ne hyx]
      exact hy

omit [DecidableEq θ] [DecidableEq Λ] in
/-- The loop of a thread is not that of another. -/
theorem Tied.current_inj (h : s.Tied) {y : θ} {u : Thread Λ} (hx : s.threads x = some t)
    (hy : s.threads y = some u) (hl : t.currentLoop = some l) (hl' : u.currentLoop = some l) : x = y :=
  h.tid_inj hx hy (Option.some.inj ((h.current hx hl).symm.trans (h.current hy hl')))

theorem step_tied {a : ThreadAct θ Λ} (h : s.Tied) (ha : s.Admissible a) (he : s.step a = .ok s') :
    s'.Tied := by
  cases a with
  | spawn x tid =>
    obtain rfl := Except.ok.inj he
    obtain ⟨hnew, hpos, hfresh⟩ := ha
    constructor
    · intro y v hy
      rcases update_some_inv hy with ⟨-, rfl⟩ | ⟨-, hy⟩
      · exact hpos
      · exact h.tid_pos hy
    · intro y v hy
      rcases update_some_inv hy with ⟨-, rfl⟩ | ⟨-, hy⟩
      · exact Or.inl rfl
      · exact h.cached hy
    · intro y z v w hy hz heq
      rcases update_some_inv hy with ⟨rfl, rfl⟩ | ⟨-, hy'⟩
      · rcases update_some_inv hz with ⟨rfl, -⟩ | ⟨-, hz'⟩
        · rfl
        · exact absurd heq.symm (hfresh z w hz')
      · rcases update_some_inv hz with ⟨rfl, rfl⟩ | ⟨-, hz'⟩
        · exact absurd heq (hfresh y v hy')
        · exact h.tid_inj hy' hz' heq
    · intro y v l hy hl
      rcases update_some_inv hy with ⟨-, rfl⟩ | ⟨-, hy⟩
      · exact absurd hl (by simp)
      · exact h.current hy hl
    · intro l i hl
      obtain ⟨y, v, hy, hcur⟩ := h.owner hl
      refine ⟨y, v, ?_, hcur⟩
      change Function.update s.threads x _ y = _
      rw [Function.update_of_ne]
      · exact hy
      · rintro rfl
        exact absurd (hnew.symm.trans hy) (by simp)
  | exit x =>
    obtain rfl := Except.ok.inj he
    constructor
    · intro y v hy
      exact h.tid_pos (update_none_inv hy).2
    · intro y v hy
      exact h.cached (update_none_inv hy).2
    · intro y z v w hy hz heq
      exact h.tid_inj (update_none_inv hy).2 (update_none_inv hz).2 heq
    · intro y v l hy hl
      exact h.current (update_none_inv hy).2 hl
    · intro l i hl
      obtain ⟨y, v, hy, hcur⟩ := h.owner hl
      refine ⟨y, v, ?_, hcur⟩
      change Function.update s.threads x none y = _
      rw [Function.update_of_ne]
      · exact hy
      · rintro rfl
        exact absurd ((ha v hy).symm.trans hcur) (by simp)
  | isInLoopThread x l =>
    simp only [step] at he
    split at he
    · rename_i t i hx hl
      obtain rfl := Except.ok.inj he
      obtain ⟨-, htid, hcur, hcached⟩ := getTid_eq (h.cached hx)
      refine h.thread hx htid hcached ?_ (fun _ hy hl => h.current hy hl) ?_
      · intro l' hl'
        rw [hcur] at hl'
        exact h.current hx hl'
      · intro l' i' hl'
        obtain ⟨y, v, hy, hcur'⟩ := h.owner hl'
        by_cases hyx : y = x
        · subst hyx
          obtain rfl := Option.some.inj (hx.symm.trans hy)
          exact Or.inl (hcur.trans hcur')
        · exact Or.inr ⟨y, v, hyx, hy, hcur'⟩
    · exact absurd he (by simp)
  | construct x l =>
    simp only [step] at he
    split at he
    · exact absurd he (by simp)
    · rename_i t hx
      obtain ⟨hid, htid, hcur, hcached⟩ := getTid_eq (h.cached hx)
      split at he
      · rename_i hnone
        obtain rfl := Except.ok.inj he
        rw [hid]
        have hnew : ∀ {y v l'}, s.threads y = some v → v.currentLoop = some l' → l' ≠ l := by
          rintro y v l' hy hl' rfl
          exact absurd (ha.symm.trans (h.current hy hl')) (by simp)
        refine h.thread hx htid hcached ?_ ?_ ?_
        · intro l' hl'
          obtain rfl := Option.some.inj hl'
          exact Function.update_self ..
        · intro y v l' _ hy hl'
          rw [Function.update_of_ne (hnew hy hl')]
          exact h.current hy hl'
        · intro l' i' hl'
          rcases update_some_inv hl' with ⟨rfl, -⟩ | ⟨-, hl'⟩
          · exact Or.inl rfl
          · obtain ⟨y, v, hy, hcur'⟩ := h.owner hl'
            refine Or.inr ⟨y, v, ?_, hy, hcur'⟩
            rintro rfl
            obtain rfl := Option.some.inj (hx.symm.trans hy)
            exact absurd ((hcur.symm.trans hnone).symm.trans hcur') (by simp)
      · exact absurd he (by simp)
  | destroy x l =>
    simp only [step] at he
    split at he
    · rename_i t i hx hl
      obtain rfl := Except.ok.inj he
      have hown := ha t hx
      have hcached := h.cached hx
      refine h.thread hx rfl hcached (fun _ hl' => absurd hl' (by simp)) ?_ ?_
      · intro y v l' hyx hy hl'
        rw [Function.update_of_ne]
        · exact h.current hy hl'
        · rintro rfl
          exact hyx (h.current_inj hy hx hl' hown)
      · intro l' i' hl'
        obtain ⟨hne, hl'⟩ := update_none_inv hl'
        obtain ⟨y, v, hy, hcur⟩ := h.owner hl'
        refine Or.inr ⟨y, v, ?_, hy, hcur⟩
        rintro rfl
        obtain rfl := Option.some.inj (hx.symm.trans hy)
        exact hne (Option.some.inj (hcur.symm.trans hown))
    · exact absurd he (by simp)

omit [DecidableEq θ] [DecidableEq Λ] in
/-- `isInLoopThread` answers by the pointer of the thread. -/
theorem Tied.inLoopThread_iff (h : s.Tied) {i : Nat} (hx : s.threads x = some t)
    (hl : s.loops l = some i) : inLoopThread t i = true ↔ t.currentLoop = some l := by
  unfold inLoopThread
  rw [decide_eq_true_iff, (getTid_eq (h.cached hx)).1]
  constructor
  · intro hi
    obtain ⟨y, u, hy, hcur⟩ := h.owner hl
    have hid := Option.some.inj ((h.current hy hcur).symm.trans hl)
    obtain rfl := h.tid_inj hx hy (hi.symm.trans hid.symm)
    obtain rfl := Option.some.inj (hx.symm.trans hy)
    exact hcur
  · intro hcur
    exact Option.some.inj (hl.symm.trans (h.current hx hcur))

/-- **One loop per thread.** In every run in which every loop is destroyed on its own thread before that
ends, `isInLoopThread` holds of a loop on exactly the thread whose `t_current_thread_loop` points to it,
every loop has such a thread, and no thread has two; the constructor of another loop aborts exactly on a
thread that has one. Thread ids may be used again. -/
theorem one_loop_per_thread (acts : List (ThreadAct θ Λ)) (hadm : Along step Admissible start acts)
    (s : Threads θ Λ) (hrun : run step start acts = .ok s) :
    (∀ x t l i, s.threads x = some t → s.loops l = some i →
      (inLoopThread t i = true ↔ t.currentLoop = some l)) ∧
    (∀ l i, s.loops l = some i → ∃ x t, s.threads x = some t ∧ inLoopThread t i = true ∧
      ∀ y u, s.threads y = some u → inLoopThread u i = true → y = x) ∧
    (∀ x t l l' i i', s.threads x = some t → s.loops l = some i → s.loops l' = some i' →
      inLoopThread t i = true → inLoopThread t i' = true → l = l') ∧
    ∀ x t l, s.threads x = some t → (s.step (.construct x l) = .error .abort ↔
      ∃ l' i, s.loops l' = some i ∧ inLoopThread t i = true) := by
  have hstart : (start : Threads θ Λ).Tied :=
    ⟨nofun, nofun, nofun, nofun, nofun⟩
  have h := run_invariant (I := Tied) step_tied hstart hadm hrun
  refine ⟨fun x t l i hx hl => h.inLoopThread_iff hx hl, ?_, ?_, ?_⟩
  · intro l i hl
    obtain ⟨x, t, hx, hcur⟩ := h.owner hl
    refine ⟨x, t, hx, (h.inLoopThread_iff hx hl).mpr hcur, ?_⟩
    intro y u hy hin
    exact h.current_inj hy hx ((h.inLoopThread_iff hy hl).mp hin) hcur
  · intro x t l l' i i' hx hl hl' hin hin'
    have hcur := (h.inLoopThread_iff hx hl).mp hin
    exact Option.some.inj (hcur.symm.trans ((h.inLoopThread_iff hx hl').mp hin'))
  · intro x t l hx
    have hsame := (getTid_eq (h.cached hx)).2.2.1
    simp only [step, hx, hsame]
    cases hcur : t.currentLoop with
    | none =>
      refine iff_of_false (by simp) ?_
      rintro ⟨l', i, hl', hin⟩
      exact absurd (hcur.symm.trans ((h.inLoopThread_iff hx hl').mp hin)) (by simp)
    | some l' =>
      have hl' := h.current hx hcur
      exact iff_of_true rfl ⟨l', t.tid, hl', (h.inLoopThread_iff hx hl').mpr hcur⟩

/-- Two threads with a loop each; the first ends, and a third thread has its id. -/
def reusedTid : List (ThreadAct (Fin 3) (Fin 2)) :=
  [.spawn 0 10, .construct 0 0, .spawn 1 11, .construct 1 1, .isInLoopThread 1 0, .destroy 0 0,
    .exit 0, .spawn 2 10, .isInLoopThread 2 1]

theorem one_loop_per_thread_reusedTid :
    ∃ s t, run step start reusedTid = .ok s ∧ s.threads 1 = some t ∧ s.loops 1 = some 11 ∧
      (inLoopThread t 11 = true ↔ t.currentLoop = some 1) := by
  have hadm : Along step Admissible start reusedTid := by decide +kernel
  have hend : ∃ s, run step start reusedTid = .ok s ∧ s.threads 1 = some ⟨11, 11, some 1⟩ ∧
      s.loops 1 = some 11 := by decide +kernel
  obtain ⟨s, hrun, hthread, hloop⟩ := hend
  obtain ⟨hlaw, -⟩ := one_loop_per_thread reusedTid hadm s hrun
  exact ⟨s, _, hrun, hthread, hloop, hlaw 1 _ 1 11 hthread hloop⟩

end Threads

end HyperMuduo.Net.EventLoop
