import HyperMuduo.Buffer.Spec

/-!
# Capacity safety of `Buffer` over whole call sequences

A program holds any number of buffers and calls them in any order: `Call` is one public call on a
store of buffers, `Store.step` its effect. `Admissible` is what the callers promise (`prepend` and
`hasWritten` lengths within the room there is, kernel results within the range offered).

`CapacitySafe b` is what the class owes in every state: the cursors are in order inside the vector,
and `ensureWritableBytes` and `append` work from here. `capacitySafe_iff_roomy`: that is exactly
`Roomy b`. The class does not keep it: `makeSpace` subtracts `CHEAP_PREPEND` from a read cursor that
`prepend` may have moved below it. Once fewer than `CHEAP_PREPEND` bytes are free the sum wraps,
`makeSpace` takes the branch that slides the bytes, and `std::move` writes past the vector. The
constructor and `resize` wrap too, on sizes next to `2 ^ 64`.

`KeepsRoom` is the condition, on the state before a call, under which none of this happens:
`capacity_safe` for whole runs, and `capacity_lost` says that a call that breaks it breaks the
class.
-/

namespace HyperMuduo.Net

open HyperMuduo.Lib

namespace Buffer

/-- A public call on one buffer. -/
inductive Op where
  | append (data : List Byte)
  | retrieve (len : Nat)
  | retrieveAll
  | ensureWritableBytes (len : Nat)
  | prepend (data : List Byte)
  | hasWritten (len : Nat)
  | readFd (delivered : Option (List Byte))
  | writeFd (n : Int)
  deriving DecidableEq, Repr

namespace Op

def apply (b : Buffer) : Op → Except Fault Buffer
  | append data => b.append data
  | retrieve len => .ok (b.retrieve len)
  | retrieveAll => .ok b.retrieveAll
  | ensureWritableBytes len => b.ensureWritableBytes len
  | prepend data => b.prepend data
  | hasWritten len => .ok (b.hasWritten len)
  | readFd delivered => b.readFd delivered
  | writeFd n => .ok (b.writeFd n)

/-- What the caller and the kernel promise. -/
def Admissible (b : Buffer) : Op → Prop
  | append data => data.length ≤ maxSize
  | ensureWritableBytes len => len < 2 ^ 64
  | prepend data => data.length ≤ b.prependableBytes
  | hasWritten len => len ≤ b.writableBytes
  | readFd (some data) => data.length ≤ b.writableBytes + extraSize
  | writeFd n => -1 ≤ n ∧ n ≤ b.readableBytes
  | _ => True

instance (b : Buffer) : ∀ op : Op, Decidable (op.Admissible b)
  | append data => inferInstanceAs (Decidable (data.length ≤ maxSize))
  | ensureWritableBytes len => inferInstanceAs (Decidable (len < 2 ^ 64))
  | prepend data => inferInstanceAs (Decidable (data.length ≤ b.prependableBytes))
  | hasWritten len => inferInstanceAs (Decidable (len ≤ b.writableBytes))
  | readFd (some data) => inferInstanceAs (Decidable (data.length ≤ b.writableBytes + extraSize))
  | writeFd n => inferInstanceAs (Decidable (-1 ≤ n ∧ n ≤ b.readableBytes))
  | retrieve _ | retrieveAll | readFd none => isTrue trivial

/-- The call leaves `CHEAP_PREPEND` free bytes, and no size wraps. -/
def KeepsRoom (b : Buffer) : Op → Prop
  | append data => b.RoomFor data.length
  | ensureWritableBytes len => b.writeIndex + len < 2 ^ 64
  | prepend data => data.length + cheapPrepend ≤ b.prependableBytes + b.writableBytes
  | hasWritten len => b.RoomFor len
  | readFd (some data) => b.RoomFor data.length
  | _ => True

instance (b : Buffer) : ∀ op : Op, Decidable (op.KeepsRoom b)
  | append data => inferInstanceAs (Decidable (b.RoomFor data.length))
  | ensureWritableBytes len => inferInstanceAs (Decidable (b.writeIndex + len < 2 ^ 64))
  | prepend data =>
    inferInstanceAs (Decidable (data.length + cheapPrepend ≤ b.prependableBytes + b.writableBytes))
  | hasWritten len => inferInstanceAs (Decidable (b.RoomFor len))
  | readFd (some data) => inferInstanceAs (Decidable (b.RoomFor data.length))
  | retrieve _ | retrieveAll | readFd none | writeFd _ => isTrue trivial

end Op

end Buffer

open Buffer

/-- A public call of a program that holds a list of buffers. -/
inductive Call where
  /-- `Buffer(n)`. -/
  | construct (n : Nat)
  /-- A call on the buffer at `i`. -/
  | on (i : Nat) (op : Op)
  /-- `buffers[i].swap(buffers[j])`. -/
  | swap (i j : Nat)
  deriving DecidableEq, Repr

/-- The buffers of a program. -/
abbrev Store := List Buffer

namespace Store

def step (s : Store) : Call → Except Fault Store
  | .construct n => do
    let b ← Buffer.construct n
    return s ++ [b]
  | .on i op =>
    match s[i]? with
    | none => .ok s
    | some b => do
      let b' ← op.apply b
      return s.set i b'
  | .swap i j =>
    match s[i]?, s[j]? with
    | some b, some c => .ok ((s.set i (b.swap c).1).set j (b.swap c).2)
    | _, _ => .ok s

/-- What the callers promise: a `size_t`, and the promises of the operation on its buffer. -/
def Admissible (s : Store) : Call → Prop
  | .construct n => n < 2 ^ 64
  | .on i op => ∀ b ∈ s[i]?, op.Admissible b
  | .swap _ _ => True

instance (s : Store) : ∀ c : Call, Decidable (s.Admissible c)
  | .construct n => inferInstanceAs (Decidable (n < 2 ^ 64))
  | .on i op => inferInstanceAs (Decidable (∀ b ∈ s[i]?, op.Admissible b))
  | .swap _ _ => isTrue trivial

/-- The condition on a call, in the state before it. -/
def KeepsRoom (s : Store) : Call → Prop
  | .construct n => cheapPrepend + n < 2 ^ 64
  | .on i op => ∀ b ∈ s[i]?, op.KeepsRoom b
  | .swap _ _ => True

instance (s : Store) : ∀ c : Call, Decidable (s.KeepsRoom c)
  | .construct n => inferInstanceAs (Decidable (cheapPrepend + n < 2 ^ 64))
  | .on i op => inferInstanceAs (Decidable (∀ b ∈ s[i]?, op.KeepsRoom b))
  | .swap _ _ => isTrue trivial

end Store

namespace Buffer

variable {b b' : Buffer}

/-! ## What the class owes in a state -/

/-- The cursors are in order inside the vector, `ensureWritableBytes` returns with the room it was
asked for and the readable bytes unchanged, and `append` copies inside the vector. -/
structure CapacitySafe (b : Buffer) : Prop where
  read_le : b.readIndex ≤ b.writeIndex
  write_le : b.writeIndex ≤ b.size
  ensure : ∀ len, b.size + len < 2 ^ 63 → ∃ b', b.ensureWritableBytes len = .ok b' ∧
    len ≤ b'.writableBytes ∧ b'.writeIndex ≤ b'.size ∧ b'.readable = b.readable
  append : ∀ data : List Byte, b.size + data.length < 2 ^ 63 → ∃ b', b.append data = .ok b' ∧
    b'.writeIndex ≤ b'.size ∧ b'.readable = b.readable ++ data

theorem Roomy.capacitySafe (h : Roomy b) : CapacitySafe b where
  read_le := h.read_le
  write_le := h.write_le
  ensure := by
    intro len hlen
    obtain ⟨b', he⟩ := ensureWritableBytes_total h (show b.size + len ≤ maxSize by unfold maxSize; omega)
    have hw := h.write_le
    obtain ⟨hr, hread, hfit, -⟩ := ensureWritableBytes_ok h (by omega) he
    exact ⟨b', he, by rw [hr.toWf.writableBytes_eq]; exact hfit, hr.write_le, hread⟩
  append := by
    intro data hlen
    have hmax : b.size + data.length ≤ maxSize := by unfold maxSize; omega
    obtain ⟨b', he⟩ := append_total h hmax
    obtain ⟨hwf, hread, -⟩ := append_ok h (by omega) he
    exact ⟨b', he, hwf.write_le, hread⟩

/-- **`CapacitySafe` is `Roomy`**, on every buffer short of the last few sizes. -/
theorem capacitySafe_iff_roomy (hsize : b.size + cheapPrepend < 2 ^ 63) :
    CapacitySafe b ↔ Roomy b := by
  refine ⟨fun h => ?_, Roomy.capacitySafe⟩
  have hwf : Wf b := ⟨h.read_le, h.write_le, by unfold maxSize; omega⟩
  refine ⟨hwf, ?_⟩
  by_contra hroom
  have hfree : b.readIndex + (b.size - b.writeIndex) < cheapPrepend := by omega
  obtain ⟨b', he, -⟩ := h.ensure (b.size - b.writeIndex + 1) (by omega)
  rw [ensureWritableBytes_out_of_bounds hwf hfree (by omega) (by unfold maxSize; omega)] at he
  exact absurd he (by simp)

/-! ## One call -/

/-- A `readFd` that returns leaves the buffer roomy exactly when there was room. -/
theorem readFd_roomy_iff (h : Roomy b) {data : List Byte}
    (hlen : data.length ≤ b.writableBytes + extraSize) (he : b.readFd (some data) = .ok b') :
    Roomy b' ↔ b.RoomFor data.length := by
  refine ⟨fun hr => ?_, fun hroom => (readFd_ok h hlen hroom he).1⟩
  have h1 := h.write_le
  have h3 := h.read_le
  have hroom := hr.room
  unfold RoomFor prependableBytes
  rw [h.toWf.writableBytes_eq] at hlen ⊢
  have htake : (data.take (b.size - b.writeIndex)).length ≤ b.size - b.writeIndex := by
    rw [List.length_take]
    omega
  obtain ⟨b₁, hwr, hwf, -, hri, hwi, hsz⟩ := writeAt_hasWritten h.toWf htake
  unfold readFd at he
  simp only [h.toWf.writableBytes_eq, hwr, bind, Except.bind] at he
  by_cases hfit : data.length ≤ b.size - b.writeIndex
  · rw [List.take_of_length_le hfit] at hri hwi hsz
    simp only [if_pos hfit, pure, Except.pure, Except.ok.injEq] at he
    change b₁.hasWritten data.length = b' at he
    subst he
    rw [hri, hwi, hsz] at hroom
    omega
  · by_contra hno
    have hread : b₁.readIndex = b.readIndex := hri
    have hsize : b₁.size = b.size := hsz
    have hwf₁ : Wf { b₁ with writeIndex := b₁.size } :=
      ⟨by simp only [hread, hsize]; omega, Nat.le_refl _, hsize ▸ h.size_le⟩
    have hdrop : (data.drop (b.size - b.writeIndex)).length = data.length - (b.size - b.writeIndex) :=
      List.length_drop
    rw [if_neg hfit, append_out_of_bounds hwf₁] at he
    · exact absurd he (by simp)
    · simp only [hread, size, Nat.sub_self]; omega
    · rw [hdrop]
      simp only [size, Nat.sub_self] at hfit ⊢
      omega
    · unfold extraSize at hlen; unfold maxSize; omega

theorem Op.apply_roomy (h : Roomy b) {op : Op} (hadm : op.Admissible b) (hk : op.KeepsRoom b)
    (he : op.apply b = .ok b') : Roomy b' := by
  cases op with
  | append data => exact (append_ok h hadm he).2.2.2.2.mpr hk
  | retrieve len =>
    obtain rfl := Except.ok.inj he
    exact retrieve_roomy h len
  | retrieveAll =>
    obtain rfl := Except.ok.inj he
    exact (retrieveAll_sound h.usable).1.roomy
  | ensureWritableBytes len => exact (ensureWritableBytes_ok h hk he).1
  | prepend data =>
    obtain ⟨b₁, he₁, hwf, -, hri, hwi, hsz⟩ := prepend_ok h.toWf hadm
    have heq : b' = b₁ := Except.ok.inj (he.symm.trans he₁)
    subst heq
    simp only [Op.KeepsRoom, prependableBytes, h.toWf.writableBytes_eq] at hk
    simp only [Op.Admissible, prependableBytes] at hadm
    exact ⟨hwf, by rw [hri, hwi, hsz]; omega⟩
  | hasWritten len =>
    obtain rfl := Except.ok.inj he
    have h1 := h.write_le
    have h2 := h.size_le
    have h3 := h.read_le
    unfold maxSize at h2
    simp only [Op.Admissible, h.toWf.writableBytes_eq] at hadm
    simp only [Op.KeepsRoom, RoomFor, prependableBytes, h.toWf.writableBytes_eq] at hk
    have hadd : wadd b.writeIndex len = b.writeIndex + len := wadd_of_lt (by omega)
    refine ⟨⟨?_, ?_, h.size_le⟩, ?_⟩
    · simp only [Buffer.hasWritten, hadd]; omega
    · simp only [Buffer.hasWritten, hadd, size] at h1 hadm ⊢; omega
    · simp only [Buffer.hasWritten, hadd, size] at h1 hadm hk ⊢; omega
  | readFd delivered =>
    cases delivered with
    | none =>
      obtain rfl := Except.ok.inj he
      exact h
    | some data => exact (readFd_ok h hadm hk he).1
  | writeFd n =>
    obtain rfl := Except.ok.inj he
    exact writeFd_roomy h n

theorem Op.apply_error (h : Roomy b) {op : Op} (hadm : op.Admissible b) (hk : op.KeepsRoom b)
    {e : Fault} (he : op.apply b = .error e) : e = .lengthError := by
  cases op with
  | append data => exact (append_error h hadm he).1
  | ensureWritableBytes len => exact (ensureWritableBytes_error h hk he).1
  | prepend data =>
    obtain ⟨b₁, he₁, -⟩ := prepend_ok h.toWf hadm
    rw [Op.apply, he₁] at he
    exact absurd he (by simp)
  | readFd delivered =>
    cases delivered with
    | none => exact absurd he (by simp [Op.apply, Buffer.readFd])
    | some data => exact (readFd_error h hadm hk he).1
  | _ => exact absurd he (by simp [Op.apply])

/-- An admissible call that breaks the condition leaves a buffer that is not roomy, when it
returns. -/
theorem Op.apply_not_roomy (h : Roomy b) {op : Op} (hadm : op.Admissible b) (hk : ¬ op.KeepsRoom b)
    (he : op.apply b = .ok b') : ¬ Roomy b' := by
  intro hr
  have h1 := h.write_le
  have h2 := h.size_le
  have h3 := h.read_le
  cases op with
  | append data => exact hk ((append_ok h hadm he).2.2.2.2.mp hr)
  | ensureWritableBytes len =>
    -- the sum passed to `resize` wraps below the write cursor, and the vector is cut there
    simp only [Op.KeepsRoom] at hk
    simp only [Op.Admissible] at hadm
    have hsum : wadd b.writeIndex len = b.writeIndex + len - 2 ^ 64 := by
      unfold wadd
      unfold maxSize at h2
      omega
    simp only [Op.apply, Buffer.ensureWritableBytes, makeSpace] at he
    rw [spaceLeft_eq h, h.toWf.writableBytes_eq, hsum] at he
    unfold maxSize at h2
    rw [if_neg (by omega), if_neg (by omega), vecResize, if_pos (by unfold maxSize; omega)] at he
    obtain rfl := Except.ok.inj he
    have hw := hr.write_le
    simp only [size, List.length_append, List.length_take, List.length_replicate] at hw
    omega
  | prepend data =>
    obtain ⟨b₁, he₁, -, -, hri, hwi, hsz⟩ := prepend_ok h.toWf hadm
    have heq : b' = b₁ := Except.ok.inj (he.symm.trans he₁)
    subst heq
    have hroom := hr.room
    simp only [Op.KeepsRoom, prependableBytes, h.toWf.writableBytes_eq] at hk
    simp only [Op.Admissible, prependableBytes] at hadm
    rw [hri, hwi, hsz] at hroom
    omega
  | hasWritten len =>
    obtain rfl := Except.ok.inj he
    have hroom := hr.room
    simp only [Op.Admissible, h.toWf.writableBytes_eq] at hadm
    simp only [Op.KeepsRoom, RoomFor, prependableBytes, h.toWf.writableBytes_eq] at hk
    have hadd : wadd b.writeIndex len = b.writeIndex + len :=
      wadd_of_lt (by unfold maxSize at h2; omega)
    simp only [Buffer.hasWritten, hadd, size] at hroom hadm hk h1
    omega
  | readFd delivered =>
    cases delivered with
    | none => exact hk trivial
    | some data => exact hk ((readFd_roomy_iff h hadm he).mp hr)
  | _ => exact hk trivial

end Buffer

namespace Store

/-- Every buffer of the store is roomy. -/
def AllRoomy (s : Store) : Prop := ∀ b ∈ s, Roomy b

theorem step_roomy {s s' : Store} {c : Call} (h : AllRoomy s) (hk : Admissible s c ∧ KeepsRoom s c)
    (he : step s c = .ok s') : AllRoomy s' := by
  obtain ⟨hadm, hk⟩ := hk
  cases c with
  | construct n =>
    simp only [step] at he
    cases hb : Buffer.construct n with
    | error e => rw [hb] at he; exact absurd he (by simp [bind, Except.bind])
    | ok b =>
      rw [hb] at he
      obtain rfl := Except.ok.inj he
      intro b' hb'
      rcases List.mem_append.mp hb' with hm | hm
      · exact h b' hm
      · rw [List.mem_singleton.mp hm]
        exact (construct_sound hk hb).1.roomy
  | on i op =>
    simp only [step] at he
    cases hi : s[i]? with
    | none =>
      rw [hi] at he
      obtain rfl := Except.ok.inj he
      exact h
    | some b =>
      rw [hi] at he
      cases hb : op.apply b with
      | error e => simp only [hb, bind, Except.bind] at he; exact absurd he (by simp)
      | ok b₁ =>
        simp only [hb, bind, Except.bind] at he
        obtain rfl := Except.ok.inj he
        intro b' hb'
        rcases List.mem_or_eq_of_mem_set hb' with hm | rfl
        · exact h b' hm
        · exact Op.apply_roomy (h b (List.mem_of_getElem? hi)) (hadm b hi) (hk b hi) hb
  | swap i j =>
    simp only [step] at he
    split at he
    · rename_i b c hb hc
      obtain rfl := Except.ok.inj he
      intro b' hb'
      rcases List.mem_or_eq_of_mem_set hb' with hm | rfl
      · rcases List.mem_or_eq_of_mem_set hm with hm | rfl
        · exact h b' hm
        · exact h _ (List.mem_of_getElem? hc)
      · exact h _ (List.mem_of_getElem? hb)
    · obtain rfl := Except.ok.inj he
      exact h

theorem step_error {s : Store} {c : Call} {e : Fault} (h : AllRoomy s)
    (hk : Admissible s c ∧ KeepsRoom s c) (he : step s c = .error e) : e = .lengthError := by
  obtain ⟨hadm, hk⟩ := hk
  cases c with
  | construct n =>
    simp only [step, Buffer.construct, vecResize] at he
    split at he
    · exact absurd he (by simp [bind, Except.bind, pure, Except.pure])
    · exact (Except.error.inj he).symm
  | on i op =>
    simp only [step] at he
    cases hi : s[i]? with
    | none => rw [hi] at he; exact absurd he (by simp)
    | some b =>
      rw [hi] at he
      cases hb : op.apply b with
      | error e' =>
        simp only [hb, bind, Except.bind] at he
        obtain rfl := Except.error.inj he
        exact Op.apply_error (h b (List.mem_of_getElem? hi)) (hadm b hi) (hk b hi) hb
      | ok b₁ => simp only [hb, bind, Except.bind] at he; exact absurd he (by simp [pure, Except.pure])
  | swap i j =>
    simp only [step] at he
    split at he <;> exact absurd he (by simp)

/-- **The condition is exact.** From a roomy store no admissible call that breaks it ends in a store
of capacity safe buffers (short of the last few sizes). -/
theorem capacity_lost {s s' : Store} {c : Call} (h : AllRoomy s) (hadm : Admissible s c)
    (hk : ¬ KeepsRoom s c) (he : step s c = .ok s')
    (hsize : ∀ b ∈ s', b.size + cheapPrepend < 2 ^ 63) : ∃ b ∈ s', ¬ CapacitySafe b := by
  cases c with
  | construct n =>
    simp only [Admissible] at hadm
    simp only [KeepsRoom] at hk
    simp only [step, Buffer.construct, vecResize] at he
    have hsum : wadd cheapPrepend n = cheapPrepend + n - 2 ^ 64 := by
      unfold wadd cheapPrepend
      unfold cheapPrepend at hk
      omega
    unfold cheapPrepend at hk
    rw [hsum, if_pos (by unfold maxSize cheapPrepend; omega)] at he
    obtain rfl := Except.ok.inj he
    refine ⟨_, List.mem_append_right _ (List.mem_singleton_self _), fun hc => ?_⟩
    have hw := hc.write_le
    simp only [size, List.length_append, List.length_take, List.length_replicate,
      List.length_nil] at hw
    unfold cheapPrepend at hw
    omega
  | on i op =>
    simp only [KeepsRoom, not_forall] at hk
    obtain ⟨b, hi, hk⟩ := hk
    rw [Option.mem_def] at hi
    simp only [step, hi] at he
    cases hb : op.apply b with
    | error e => simp only [hb, bind, Except.bind] at he; exact absurd he (by simp)
    | ok b₁ =>
      simp only [hb, bind, Except.bind] at he
      obtain rfl := Except.ok.inj he
      have hlt : i < s.length := (List.getElem?_eq_some_iff.mp hi).1
      have hmem : b₁ ∈ s.set i b₁ := List.mem_set hlt b₁
      refine ⟨b₁, hmem, fun hc => ?_⟩
      exact Op.apply_not_roomy (h b (List.mem_of_getElem? hi)) (hadm b hi) hk hb
        ((capacitySafe_iff_roomy (hsize b₁ hmem)).mp hc)
  | swap i j => exact absurd trivial hk

/-! ## Whole runs -/

/-- **Capacity safety.** In every run of public calls that keep room, every buffer is capacity safe
in every state, and no call ends but by returning or by the exception of `resize`. -/
theorem capacity_safe {calls : List Call} (hadm : Along step Admissible [] calls)
    (hroom : Along step KeepsRoom [] calls) :
    (∀ s, run step [] calls = .ok s → ∀ b ∈ s, CapacitySafe b) ∧
      ∀ e, run step [] calls = .error e → e = .lengthError := by
  have h0 : AllRoomy [] := fun b hb => absurd hb List.not_mem_nil
  have hboth := hadm.and hroom
  refine ⟨fun s hs b hb => ?_, fun e he => ?_⟩
  · exact (run_invariant step_roomy h0 hboth hs b hb).capacitySafe
  · exact run_error step_roomy step_error h0 hboth he

/-- Fill a buffer, slide it, grow it, prepend to it and swap it away. -/
def fillSlideGrow : List Call :=
  [.construct 4, .on 0 (.append [1, 2, 3, 4]), .on 0 (.retrieve 3), .on 0 (.append [5, 6, 7]),
    .on 0 (.append [8, 9]), .on 0 .retrieveAll, .on 0 (.prepend [0, 0]), .construct 0, .swap 0 1]

theorem capacity_safe_fillSlideGrow :
    ∃ s, run step [] fillSlideGrow = .ok s ∧ s.length = 2 ∧ ∀ b ∈ s, CapacitySafe b := by
  have hadm : Along step Admissible [] fillSlideGrow := by decide +kernel
  have hroom : Along step KeepsRoom [] fillSlideGrow := by decide +kernel
  have hrun : ∃ s, run step [] fillSlideGrow = .ok s ∧ s.length = 2 := by
    decide +kernel
  obtain ⟨s, hs, hlen⟩ := hrun
  exact ⟨s, hs, hlen, (capacity_safe hadm hroom).1 s hs⟩

/-- Prepend eight bytes to a full buffer. -/
def prependToFull : List Call :=
  [.construct 0, .on 0 (.prepend [0, 0, 0, 0, 0, 0, 0, 0])]

/-- A full buffer with its header space used up is a reachable state that is not capacity safe:
asking for one more byte writes past the vector. -/
theorem capacity_not_always_safe :
    ¬ ∀ calls s, Along step Admissible [] calls → run step [] calls = .ok s →
      ∀ b ∈ s, CapacitySafe b := by
  intro h
  have hadm : Along step Admissible [] prependToFull := by decide +kernel
  have hrun : run step [] prependToFull = .ok [⟨[0, 0, 0, 0, 0, 0, 0, 0], 8, 0⟩] := by
    decide +kernel
  have hsafe := h prependToFull _ hadm hrun ⟨[0, 0, 0, 0, 0, 0, 0, 0], 8, 0⟩ List.mem_cons_self
  obtain ⟨b', he, -⟩ := hsafe.ensure 1 (by decide)
  have hbad : ensureWritableBytes ⟨[0, 0, 0, 0, 0, 0, 0, 0], 8, 0⟩ 1 = .error .outOfBounds := by
    decide +kernel
  rw [hbad] at he
  exact absurd he (by simp)

end Store

end HyperMuduo.Net
