import Mathlib.Order.Basic

/-!
# Runs of a fallible step function

A system is a step function `step : σ → α → Except ε σ`: from a state and an action, the next state
or a failure. A run is a list of actions (`run`), stopped at the first failure. `Along P` says that
every action of the run meets `P` in the state it is taken in: the guards of the system, and the
conditions a theorem puts on each step, are both of this form.

`bind_ok_inv` and `bind_error_inv` take a fallible computation apart. The rule of the module is
`run_invariant`: what every guarded step preserves, every guarded run preserves (`run_preserves` for
steps that need no guard); `Along.of_invariant` trades the guards of a run for others,
`along_of_final` reads off the end of a run that its steps were guarded, `along_of_prefixes` off its
states, and `run_refines` carries a relation to a specification along it.
`Spares` and its bind rule are for computations that avoid one kind of failure, `Justified` for the
log of a run in which every entry has its reason among the entries before it.
-/

namespace HyperMuduo.Lib

@[simp] theorem ok_bind {ε α β : Type} (a : α) (f : α → Except ε β) :
    (Except.ok a >>= f) = f a := rfl

/-- One bind of a fallible computation that returned. -/
theorem bind_ok_inv {ε α β : Type} {x : Except ε α} {f : α → Except ε β} {r : β}
    (h : x >>= f = .ok r) : ∃ a, x = .ok a ∧ f a = .ok r := by
  cases x with
  | ok a => exact ⟨a, rfl, h⟩
  | error e => exact absurd h (by simp [bind, Except.bind])

/-- One bind of a fallible computation that failed. -/
theorem bind_error_inv {ε α β : Type} {x : Except ε α} {f : α → Except ε β} {e : ε}
    (h : x >>= f = .error e) : x = .error e ∨ ∃ a, x = .ok a ∧ f a = .error e := by
  cases x with
  | ok a => exact Or.inr ⟨a, rfl, h⟩
  | error e' => exact Or.inl (by rw [Except.error.inj h])

/-- The computation does not fail with `e`. -/
def Spares {ε α : Type} (e : ε) (x : Except ε α) : Prop := x ≠ .error e

theorem spares_ok {ε α : Type} {e : ε} (a : α) : Spares e (.ok a : Except ε α) := by
  unfold Spares
  simp

theorem Spares.bind {ε α β : Type} {e : ε} {x : Except ε α} {f : α → Except ε β}
    (hx : Spares e x) (hf : ∀ a, x = .ok a → Spares e (f a)) : Spares e (x >>= f) := by
  intro h
  rcases bind_error_inv h with herr | ⟨a, hok, herr⟩
  · exact hx herr
  · exact hf a hok herr

/-- Whether a computation returns a value with a decidable property is decided by running it. -/
instance decidableExistsOk {ε α : Type} (x : Except ε α) (P : α → Prop) [DecidablePred P] :
    Decidable (∃ a, x = .ok a ∧ P a) :=
  match x with
  | .ok a => decidable_of_iff (P a) (by simp)
  | .error _ => isFalse (by simp)

variable {σ α ε : Type} (step : σ → α → Except ε σ)

/-- Take the actions in order. -/
def run : σ → List α → Except ε σ
  | s, [] => .ok s
  | s, a :: as =>
    match step s a with
    | .ok s' => run s' as
    | .error e => .error e

/-- Every action of the run meets `P` in the state it is taken in. -/
def Along (P : σ → α → Prop) : σ → List α → Prop
  | _, [] => True
  | s, a :: as => P s a ∧ ∀ s', step s a = .ok s' → Along P s' as

variable {step}

theorem run_cons_ok {s s' t : σ} {a : α} {as : List α} (h : step s a = .ok s') :
    run step s (a :: as) = .ok t ↔ run step s' as = .ok t := by
  simp only [run, h]

theorem run_cons_inv {s t : σ} {a : α} {as : List α} (h : run step s (a :: as) = .ok t) :
    ∃ s', step s a = .ok s' ∧ run step s' as = .ok t := by
  simp only [run] at h
  cases hs : step s a with
  | ok s' => rw [hs] at h; exact ⟨s', rfl, h⟩
  | error e => rw [hs] at h; exact absurd h (by simp)

/-- A run goes on where it stopped. -/
theorem run_append {s t : σ} {as : List α} (h : run step s as = .ok t) (bs : List α) :
    run step s (as ++ bs) = run step t bs := by
  induction as generalizing s with
  | nil =>
    obtain rfl := Except.ok.inj h
    rfl
  | cons a as ih =>
    obtain ⟨s', hs, hr⟩ := run_cons_inv h
    simp only [List.cons_append, run, hs]
    exact ih hr

theorem along_append {P : σ → α → Prop} {s t : σ} : ∀ {as bs : List α},
    run step s as = .ok t → (Along step P s (as ++ bs) ↔ Along step P s as ∧ Along step P t bs)
  | [], _, h => by
    obtain rfl := Except.ok.inj h
    simp only [List.nil_append, Along, true_and]
  | a :: as, bs, h => by
    obtain ⟨s', hs, hr⟩ := run_cons_inv h
    simp only [List.cons_append, Along, hs, Except.ok.injEq, forall_eq']
    rw [along_append hr, and_assoc]

/-- On concrete runs `Along` is decided by running. -/
instance Along.decidable {P : σ → α → Prop} [∀ s a, Decidable (P s a)] :
    ∀ (s : σ) (as : List α), Decidable (Along step P s as)
  | _, [] => isTrue trivial
  | s, a :: as =>
    match h : step s a with
    | .ok s' =>
      have : Decidable (Along step P s' as) := Along.decidable s' as
      decidable_of_iff (P s a ∧ Along step P s' as)
        (by simp only [Along, h, Except.ok.injEq, forall_eq'])
    | .error _ => decidable_of_iff (P s a) (by simp [Along, h])

theorem Along.mono {P Q : σ → α → Prop} (hPQ : ∀ s a, P s a → Q s a) : ∀ {s : σ} {as : List α},
    Along step P s as → Along step Q s as
  | _, [], _ => trivial
  | _, _ :: _, h => ⟨hPQ _ _ h.1, fun s' hs => (h.2 s' hs).mono hPQ⟩

theorem Along.and {P Q : σ → α → Prop} : ∀ {s : σ} {as : List α},
    Along step P s as → Along step Q s as → Along step (fun s a => P s a ∧ Q s a) s as
  | _, [], _, _ => trivial
  | _, _ :: _, h, h' => ⟨⟨h.1, h'.1⟩, fun s' hs => (h.2 s' hs).and (h'.2 s' hs)⟩

theorem along_of_forall {P : α → Prop} {s : σ} {as : List α} (h : ∀ a ∈ as, P a) :
    Along step (fun _ a => P a) s as := by
  induction as generalizing s with
  | nil => trivial
  | cons a as ih =>
    exact ⟨h a (by simp), fun _ _ => ih fun a' ha' => h a' (List.mem_cons_of_mem _ ha')⟩

/-- **The invariant rule.** What every guarded step preserves, every guarded run preserves. -/
theorem run_invariant {I : σ → Prop} {P : σ → α → Prop}
    (hstep : ∀ {s s' a}, I s → P s a → step s a = .ok s' → I s') :
    ∀ {s t : σ} {as : List α}, I s → Along step P s as → run step s as = .ok t → I t
  | s, t, [], hI, _, h => by
    obtain rfl := Except.ok.inj h
    exact hI
  | s, t, a :: as, hI, hP, h => by
    obtain ⟨s', hs, hr⟩ := run_cons_inv h
    exact run_invariant hstep (hstep hI hP.1 hs) (hP.2 s' hs) hr

/-- The invariant rule for steps that need no guard. -/
theorem run_preserves {I : σ → Prop} (hstep : ∀ {s s' a}, I s → step s a = .ok s' → I s')
    {s t : σ} {as : List α} (hI : I s) (h : run step s as = .ok t) : I t := by
  induction as generalizing s with
  | nil =>
    obtain rfl := Except.ok.inj h
    exact hI
  | cons a as ih =>
    obtain ⟨s', hs, hr⟩ := run_cons_inv h
    exact ih (hstep hI hs) hr

/-- Guards that follow from an invariant and the guards of a run are guards of the run. -/
theorem Along.of_invariant {I : σ → Prop} {P Q : σ → α → Prop}
    (hkeep : ∀ {s s' a}, I s → P s a → step s a = .ok s' → I s')
    (hguard : ∀ {s a}, I s → P s a → Q s a) :
    ∀ {s : σ} {as : List α}, I s → Along step P s as → Along step Q s as
  | _, [], _, _ => trivial
  | _, _ :: _, hI, h =>
    ⟨hguard hI h.1, fun s' hs => (h.2 s' hs).of_invariant hkeep hguard (hkeep hI h.1 hs)⟩

/-- The rule backwards: what holds at the end of a run, and of a state before each step it holds
after, guarded every step. -/
theorem along_of_final {J : σ → Prop} {P : σ → α → Prop}
    (hstep : ∀ {s s' a}, step s a = .ok s' → J s' → J s ∧ P s a) {s t : σ} {as : List α}
    (h : run step s as = .ok t) (ht : J t) : J s ∧ Along step P s as := by
  induction as generalizing s with
  | nil =>
    obtain rfl := Except.ok.inj h
    exact ⟨ht, trivial⟩
  | cons a as ih =>
    obtain ⟨s', hs, hr⟩ := run_cons_inv h
    obtain ⟨hJ', halong⟩ := ih hr
    obtain ⟨hJ, hP⟩ := hstep hs hJ'
    refine ⟨hJ, hP, ?_⟩
    rintro s'' hs''
    obtain rfl := Except.ok.inj (hs.symm.trans hs'')
    exact halong

/-- What holds in every state of a run guards its steps, if it does so one step at a time and from
states that guarded steps lead to. The steps may be under another guard besides. -/
theorem along_of_guarded_prefixes {I P : σ → Prop} {G Q : σ → α → Prop}
    (hkeep : ∀ {s s' a}, I s → G s a ∧ Q s a → step s a = .ok s' → I s')
    (hstep : ∀ {s s' a}, I s → step s a = .ok s' → P s' → Q s a) {s t : σ} {as : List α} (hI : I s)
    (hG : Along step G s as) (h : run step s as = .ok t)
    (hP : ∀ before after s', as = before ++ after → run step s before = .ok s' → P s') :
    Along step Q s as := by
  induction as generalizing s with
  | nil => trivial
  | cons a as ih =>
    obtain ⟨s', hs, hr⟩ := run_cons_inv h
    have hone : run step s [a] = .ok s' := (run_cons_ok hs).mpr rfl
    have hQ : Q s a := hstep hI hs (hP [a] as s' rfl hone)
    refine ⟨hQ, ?_⟩
    rintro s'' hs''
    obtain rfl := Except.ok.inj (hs.symm.trans hs'')
    refine ih (hkeep hI ⟨hG.1, hQ⟩ hs) (hG.2 s' hs) hr ?_
    rintro before after x rfl hx
    exact hP (a :: before) after x rfl ((run_cons_ok hs).mpr hx)

theorem along_of_prefixes {I P : σ → Prop} {Q : σ → α → Prop}
    (hkeep : ∀ {s s' a}, I s → Q s a → step s a = .ok s' → I s')
    (hstep : ∀ {s s' a}, I s → step s a = .ok s' → P s' → Q s a) {s t : σ} {as : List α} (hI : I s)
    (h : run step s as = .ok t)
    (hP : ∀ before after s', as = before ++ after → run step s before = .ok s' → P s') :
    Along step Q s as :=
  along_of_guarded_prefixes (G := fun _ _ => True) (fun hI hQ hs => hkeep hI hQ.2 hs) hstep hI
    (along_of_forall (P := fun _ => True) fun _ _ => trivial) h hP

/-- A run whose steps cannot fail in certain ways does not fail in those ways. -/
theorem run_error {I : σ → Prop} {P : σ → α → Prop} {E : ε → Prop}
    (hstep : ∀ {s s' a}, I s → P s a → step s a = .ok s' → I s')
    (herr : ∀ {s a e}, I s → P s a → step s a = .error e → E e) :
    ∀ {s : σ} {as : List α} {e : ε}, I s → Along step P s as → run step s as = .error e → E e
  | s, [], e, _, _, h => by simp [run] at h
  | s, a :: as, e, hI, hP, h => by
    simp only [run] at h
    cases hs : step s a with
    | ok s' =>
      rw [hs] at h
      exact run_error hstep herr (hstep hI hP.1 hs) (hP.2 s' hs) h
    | error e' =>
      rw [hs] at h
      obtain rfl := Except.error.inj h
      exact herr hI hP.1 hs

/-- **The refinement rule.** When every guarded step succeeds and keeps the relation to a
specification that takes the same actions, every guarded run succeeds and keeps it. -/
theorem run_refines {τ : Type} {R : σ → τ → Prop} {spec : τ → α → τ} {P : σ → α → Prop}
    (hstep : ∀ {s t a}, R s t → P s a → ∃ s', step s a = .ok s' ∧ R s' (spec t a)) :
    ∀ {s : σ} {t : τ} {as : List α}, R s t → Along step P s as →
      ∃ s', run step s as = .ok s' ∧ R s' (as.foldl spec t)
  | s, _, [], hR, _ => ⟨s, rfl, hR⟩
  | s, t, a :: as, hR, hP => by
    obtain ⟨s', hs, hR'⟩ := hstep hR hP.1
    obtain ⟨s'', hr, hR''⟩ := run_refines hstep hR' (hP.2 s' hs)
    exact ⟨s'', (run_cons_ok hs).mpr hr, hR''⟩

/-- When every step from a good state leads to a good state, every run does. -/
theorem run_total {I : σ → Prop} (hstep : ∀ {s} a, I s → ∃ s', step s a = .ok s' ∧ I s') {s : σ}
    (hI : I s) (as : List α) : ∃ t, run step s as = .ok t ∧ I t := by
  induction as generalizing s with
  | nil => exact ⟨s, rfl, hI⟩
  | cons a as ih =>
    obtain ⟨s', hs, hI'⟩ := hstep a hI
    obtain ⟨t, ht, hIt⟩ := ih hI'
    exact ⟨t, (run_cons_ok hs).mpr ht, hIt⟩

/-! ## Logs -/

/-- Every entry is all right after the entries before it. -/
def Justified (ok : List α → α → Prop) (log : List α) : Prop :=
  ∀ before e after, log = before ++ e :: after → ok before e

theorem justified_nil (ok : List α → α → Prop) : Justified ok [] := by
  intro before e after h
  exact absurd h (by simp)

theorem Justified.of_append {ok : List α → α → Prop} {log new : List α}
    (h : Justified ok (log ++ new)) : Justified ok log := by
  rintro before e after rfl
  exact h before e (after ++ new) (by simp)

/-- A log grows by entries that are all right where they are put. -/
theorem Justified.append {ok : List α → α → Prop} {log new : List α} (h : Justified ok log)
    (hnew : ∀ before e after, new = before ++ e :: after → ok (log ++ before) e) :
    Justified ok (log ++ new) := by
  intro before e after heq
  rcases List.append_eq_append_iff.mp heq with ⟨mid, rfl, hmid⟩ | ⟨mid, hlog, hmid⟩
  · exact hnew mid e after hmid
  · cases mid with
    | nil =>
      rw [List.append_nil] at hlog
      subst hlog
      have hok := hnew [] e after hmid.symm
      rwa [List.append_nil] at hok
    | cons x mid =>
      obtain ⟨rfl, -⟩ := List.cons.inj hmid
      exact h before e mid hlog

end HyperMuduo.Lib
