import HyperMuduo.Buffer.Model
import HyperMuduo.Lib.Run

/-!
# What the `Buffer` operations do

`Wf` is what the cursors have to satisfy for any operation to make sense. It is not enough for
`makeSpace`: the sum `writableBytes() + (read_index_ - CHEAP_PREPEND)` is taken modulo `2 ^ 64`, and
after a `prepend` it can go below zero. `Roomy` excludes that: at least `CHEAP_PREPEND` bytes of
the vector are outside the readable range. `Sound` is the stronger condition the network path
keeps, `read_index_ ≥ CHEAP_PREPEND`, and every operation but `prepend` preserves it.

One lemma per operation says what it returns and what it does to `readable`; the callers cite
these and never unfold the operation.
-/

namespace HyperMuduo.Net.Buffer

open HyperMuduo.Lib

/-- The cursors are in order and inside the vector. -/
structure Wf (b : Buffer) : Prop where
  read_le : b.readIndex ≤ b.writeIndex
  write_le : b.writeIndex ≤ b.size
  size_le : b.size ≤ maxSize

/-- Well formed, and long enough for the position `retrieveAll` resets the cursors to. Every
operation that returns keeps it. -/
structure Usable (b : Buffer) : Prop extends Wf b where
  size_ge : cheapPrepend ≤ b.size

/-- Well formed, with `CHEAP_PREPEND` bytes of the vector outside the readable range. -/
structure Roomy (b : Buffer) : Prop extends Wf b where
  room : cheapPrepend ≤ b.readIndex + (b.size - b.writeIndex)

/-- Well formed, with the read cursor at or above `CHEAP_PREPEND`. -/
structure Sound (b : Buffer) : Prop extends Wf b where
  prepend_le : cheapPrepend ≤ b.readIndex

variable {b b' : Buffer}

theorem Sound.roomy (h : Sound b) : Roomy b :=
  ⟨h.toWf, Nat.le_trans h.prepend_le (Nat.le_add_right _ _)⟩

theorem Wf.readableBytes_eq (h : Wf b) : b.readableBytes = b.writeIndex - b.readIndex := by
  have h1 := h.write_le
  have h2 := h.size_le
  unfold maxSize at h2
  exact wsub_of_le h.read_le (by omega)

theorem Wf.writableBytes_eq (h : Wf b) : b.writableBytes = b.size - b.writeIndex := by
  have h2 := h.size_le
  unfold maxSize at h2
  exact wsub_of_le h.write_le (by omega)

theorem Wf.length_readable (h : Wf b) : b.readable.length = b.writeIndex - b.readIndex := by
  have h1 := h.write_le
  unfold size at h1
  unfold readable
  rw [List.length_take, List.length_drop]
  omega

theorem Wf.readableBytes_eq_length (h : Wf b) : b.readableBytes = b.readable.length := by
  rw [h.readableBytes_eq, h.length_readable]

theorem Wf.length_readable_le_size (h : Wf b) : b.readable.length ≤ b.size := by
  have h1 := h.write_le
  rw [h.length_readable]
  omega

theorem Wf.length_readable_le (h : Wf b) : b.readable.length ≤ maxSize :=
  Nat.le_trans h.length_readable_le_size h.size_le

/-! ## Constructors and retrieval -/

theorem construct_eq {n : Nat} (h : cheapPrepend + n ≤ maxSize) :
    construct n = .ok ⟨List.replicate (cheapPrepend + n) 0, cheapPrepend, cheapPrepend⟩ := by
  have hw : wadd cheapPrepend n = cheapPrepend + n :=
    wadd_of_lt (by unfold maxSize at h; omega)
  unfold construct
  rw [hw, vecResize_grow (Nat.zero_le _) h]
  rfl

theorem construct_initializeSize : construct initializeSize = .ok fresh :=
  construct_eq (by unfold cheapPrepend initializeSize maxSize; omega)

theorem construct_sound {n : Nat} (hn : cheapPrepend + n < 2 ^ 64) (h : construct n = .ok b) :
    Sound b ∧ b.readable = [] := by
  have hw : wadd cheapPrepend n = cheapPrepend + n := wadd_of_lt hn
  unfold construct vecResize at h
  rw [hw] at h
  split at h
  · rename_i hle
    obtain rfl := Except.ok.inj h
    refine ⟨⟨⟨Nat.le_refl _, ?_, ?_⟩, Nat.le_refl _⟩, ?_⟩
    · simp [size, cheapPrepend]
    · simpa [size] using hle
    · simp [readable]
  · exact absurd h (by simp [bind, Except.bind])

theorem fresh_sound : Sound fresh ∧ fresh.readable = [] :=
  construct_sound (by unfold cheapPrepend initializeSize; omega) construct_initializeSize

theorem Roomy.usable (h : Roomy b) : Usable b := by
  have h1 := h.room
  have h2 := h.read_le
  have h3 := h.write_le
  exact ⟨h.toWf, by omega⟩

theorem retrieveAll_sound (h : Usable b) : Sound b.retrieveAll ∧ b.retrieveAll.readable = [] := by
  refine ⟨⟨⟨Nat.le_refl _, h.size_ge, h.size_le⟩, Nat.le_refl _⟩, ?_⟩
  simp [readable, retrieveAll]

theorem readableBytes_retrieveAll (b : Buffer) : b.retrieveAll.readableBytes = 0 := by
  have h : cheapPrepend < 2 ^ 64 := by decide
  unfold readableBytes retrieveAll
  rw [wsub_of_le (Nat.le_refl _) h, Nat.sub_self]

theorem retrieve_size (b : Buffer) (len : Nat) : (b.retrieve len).size = b.size := by
  unfold retrieve
  split <;> rfl

/-- `retrieve` drops `len` bytes from the front, all of them when there are not that many. -/
theorem readable_retrieve (h : Wf b) (len : Nat) :
    (b.retrieve len).readable = b.readable.drop len := by
  have hlen := h.length_readable
  have h1 := h.write_le
  have h2 := h.size_le
  have h3 := h.read_le
  unfold maxSize at h2
  unfold retrieve
  rw [h.readableBytes_eq]
  split
  · rename_i hle
    rw [List.drop_of_length_le (by omega)]
    simp [readable, retrieveAll]
  · rename_i hlt
    have hw : wadd b.readIndex len = b.readIndex + len := wadd_of_lt (by omega)
    unfold readable
    simp only [hw]
    rw [List.drop_take, List.drop_drop]
    congr 1
    omega

theorem retrieve_wf (h : Usable b) (len : Nat) :
    Wf (b.retrieve len) ∧ (b.readIndex ≤ (b.retrieve len).readIndex ∧
      (b.retrieve len).writeIndex = b.writeIndex ∨ cheapPrepend ≤ (b.retrieve len).readIndex) := by
  have h1 := h.write_le
  have h2 := h.size_le
  have h3 := h.read_le
  unfold maxSize at h2
  unfold retrieve
  rw [h.toWf.readableBytes_eq]
  split
  · exact ⟨(retrieveAll_sound h).1.toWf, Or.inr (Nat.le_refl _)⟩
  · have hw : wadd b.readIndex len = b.readIndex + len := wadd_of_lt (by omega)
    refine ⟨⟨?_, h.write_le, h.size_le⟩, Or.inl ⟨?_, rfl⟩⟩
    · simp only [hw]; omega
    · simp only [hw]; omega

theorem retrieve_usable (h : Usable b) (len : Nat) : Usable (b.retrieve len) :=
  ⟨(retrieve_wf h len).1, by rw [retrieve_size]; exact h.size_ge⟩

theorem retrieve_roomy (h : Roomy b) (len : Nat) : Roomy (b.retrieve len) := by
  obtain ⟨hwf, hcur⟩ := retrieve_wf h.usable len
  have h4 := h.room
  refine ⟨hwf, ?_⟩
  rw [retrieve_size]
  omega

theorem retrieve_sound (h : Sound b) (len : Nat) : Sound (b.retrieve len) := by
  obtain ⟨hwf, hcur⟩ := retrieve_wf h.roomy.usable len
  have h3 := h.prepend_le
  exact ⟨hwf, by omega⟩

/-- Bytes that lie in the readable range are read from `readable`. -/
theorem peek_eq (h : Wf b) {off len : Nat} (hle : off + len ≤ b.readable.length) :
    b.peek off len = .ok ((b.readable.drop off).take len) := by
  have h1 := h.write_le
  have h3 := h.read_le
  rw [h.length_readable] at hle
  unfold size at h1
  unfold peek
  rw [vecRead_ok (by omega)]
  unfold readable
  rw [List.drop_take, List.drop_drop, List.take_take, Nat.min_eq_left (by omega)]

/-! ## Making room -/

/-- The buffer `makeSpace` leaves when it slides the readable bytes down. -/
def compacted (b : Buffer) : Buffer :=
  ⟨b.buffer.take cheapPrepend ++ b.readable ++ b.buffer.drop (cheapPrepend + b.readable.length),
    cheapPrepend + b.readable.length, cheapPrepend⟩

/-- The buffer `makeSpace` leaves when it grows the vector. -/
def grown (b : Buffer) (len : Nat) : Buffer :=
  { b with buffer := b.buffer ++ List.replicate (b.writeIndex + len - b.size) 0 }

theorem compacted_sound (h : Sound b) :
    Sound b.compacted ∧ b.compacted.readable = b.readable ∧ b.compacted.size = b.size := by
  have h1 := h.write_le
  have h2 := h.size_le
  have h3 := h.prepend_le
  have h4 := h.read_le
  have hlen := h.toWf.length_readable
  have hfit : cheapPrepend + b.readable.length ≤ b.buffer.length := by unfold size at h1; omega
  have hsize : b.compacted.size = b.size := length_overwrite hfit
  refine ⟨⟨⟨?_, ?_, by rw [hsize]; exact h2⟩, Nat.le_refl _⟩, ?_, hsize⟩
  · simp [compacted]
  · rw [hsize]; exact hfit
  · unfold readable
    simp only [compacted, Nat.add_sub_cancel_left]
    exact read_overwrite hfit

theorem grown_size (b : Buffer) (len : Nat) :
    (b.grown len).size = max b.size (b.writeIndex + len) := by
  simp only [grown, size, List.length_append, List.length_replicate]
  omega

theorem grown_readable (h : Wf b) (len : Nat) : (b.grown len).readable = b.readable := by
  have h1 := h.write_le
  have h3 := h.read_le
  unfold size at h1
  simp only [readable, grown]
  rw [List.drop_append_of_le_length (by omega),
    List.take_append_of_le_length (by rw [List.length_drop]; omega)]

theorem grown_wf (h : Wf b) {len : Nat} (hlen : b.writeIndex + len ≤ maxSize) :
    Wf (b.grown len) := by
  refine ⟨h.read_le, ?_, ?_⟩
  · rw [grown_size]
    exact Nat.le_trans h.write_le (Nat.le_max_left _ _)
  · rw [grown_size]
    exact Nat.max_le.mpr ⟨h.size_le, hlen⟩

/-- The wrapped sum of `makeSpace` is the exact one as long as `CHEAP_PREPEND` bytes are free. -/
theorem spaceLeft_eq (h : Roomy b) :
    wadd b.writableBytes (wsub b.readIndex cheapPrepend) =
      b.size - b.writeIndex + b.readIndex - cheapPrepend := by
  have h1 := h.write_le
  have h2 := h.size_le
  have h3 := h.read_le
  have h4 := h.room
  rw [h.toWf.writableBytes_eq]
  unfold maxSize at h2
  unfold cheapPrepend at h4 ⊢
  unfold wadd wsub
  omega

/-- **What `ensureWritableBytes` returns**, on a roomy buffer: the buffer itself, the slid one, the
grown one, or the exception of `resize`. -/
theorem ensureWritableBytes_cases (h : Roomy b) {len : Nat} (hlen : b.writeIndex + len < 2 ^ 64) :
    (len ≤ b.size - b.writeIndex ∧ b.ensureWritableBytes len = .ok b) ∨
    (b.size - b.writeIndex < len ∧ cheapPrepend ≤ b.readIndex ∧
      cheapPrepend + b.readable.length + len ≤ b.size ∧
      b.ensureWritableBytes len = .ok b.compacted) ∨
    (b.size - b.writeIndex < len ∧ b.writeIndex + len ≤ maxSize ∧
      b.ensureWritableBytes len = .ok (b.grown len)) ∨
    ((maxSize < b.writeIndex + len ∧ b.size < cheapPrepend + b.readable.length + len) ∧
      b.ensureWritableBytes len = .error .lengthError) := by
  have h1 := h.write_le
  have h2 := h.size_le
  have h3 := h.read_le
  have hread := h.toWf.length_readable
  unfold ensureWritableBytes
  rw [h.toWf.writableBytes_eq]
  by_cases hfit : len ≤ b.size - b.writeIndex
  · exact Or.inl ⟨hfit, if_pos hfit⟩
  · right
    rw [if_neg hfit]
    unfold makeSpace
    rw [spaceLeft_eq h, h.toWf.readableBytes_eq_length]
    by_cases hsp : len ≤ b.size - b.writeIndex + b.readIndex - cheapPrepend
    · left
      refine ⟨by omega, by omega, by omega, ?_⟩
      have hr : b.readIndex + b.readable.length ≤ b.buffer.length := by unfold size at h1; omega
      have hw : cheapPrepend + b.readable.length ≤ b.buffer.length := by
        unfold size at h1 hsp hfit; omega
      have hrd : (b.buffer.drop b.readIndex).take b.readable.length = b.readable := by
        rw [hread]; rfl
      have hadd : wadd cheapPrepend b.readable.length = cheapPrepend + b.readable.length :=
        wadd_of_lt (by unfold maxSize at h2; unfold size at h1 h2; omega)
      simp only [if_pos hsp, vecRead_ok hr, hrd, vecWrite_ok hw, hadd, bind, Except.bind, pure,
        Except.pure]
      rfl
    · right
      have hadd : wadd b.writeIndex len = b.writeIndex + len := wadd_of_lt hlen
      simp only [if_neg hsp, hadd]
      by_cases hmax : b.writeIndex + len ≤ maxSize
      · left
        refine ⟨by omega, hmax, ?_⟩
        rw [vecResize_grow (by unfold size at hfit; omega) hmax]
        rfl
      · right
        have hroom := h.room
        refine ⟨⟨by omega, by omega⟩, ?_⟩
        unfold vecResize
        rw [if_neg hmax]
        rfl

/-- `ensureWritableBytes` keeps the readable bytes and leaves `len` writable ones. Its cursors are
where they were, or the bytes were slid down; the vector grows by at most `len`. -/
theorem ensureWritableBytes_ok (h : Roomy b) {len : Nat} (hlen : b.writeIndex + len < 2 ^ 64)
    (he : b.ensureWritableBytes len = .ok b') :
    Roomy b' ∧ b'.readable = b.readable ∧ len ≤ b'.size - b'.writeIndex ∧
      (b.size ≤ b'.size ∧ b'.size ≤ b.size + len) ∧
      (b'.readIndex = b.readIndex ∧ b'.writeIndex = b.writeIndex ∧
          b'.size = max b.size (b.writeIndex + len) ∨
        cheapPrepend ≤ b.readIndex ∧ cheapPrepend ≤ b'.readIndex) := by
  have h1 := h.write_le
  have h4 := h.room
  rcases ensureWritableBytes_cases h hlen with
    ⟨hfit, e⟩ | ⟨hgt, hread, hsp, e⟩ | ⟨hgt, hmax, e⟩ | ⟨-, e⟩
  · rw [e] at he
    obtain rfl := Except.ok.inj he
    exact ⟨h, rfl, hfit, ⟨Nat.le_refl _, Nat.le_add_right _ _⟩, Or.inl ⟨rfl, rfl, by omega⟩⟩
  · rw [e] at he
    obtain rfl := Except.ok.inj he
    obtain ⟨hs, hr, hsize⟩ := compacted_sound ⟨h.toWf, hread⟩
    refine ⟨hs.roomy, hr, ?_, by omega, Or.inr ⟨hread, hs.prepend_le⟩⟩
    rw [hsize]
    simp only [compacted]
    omega
  · rw [e] at he
    obtain rfl := Except.ok.inj he
    have hsize := grown_size b len
    refine ⟨⟨grown_wf h.toWf hmax, ?_⟩, grown_readable h.toWf len, ?_, by omega,
      Or.inl ⟨rfl, rfl, hsize⟩⟩
    · simp only [grown] at hsize ⊢; omega
    · simp only [grown] at hsize ⊢; omega
  · rw [e] at he
    exact absurd he (by simp)

theorem ensureWritableBytes_error (h : Roomy b) {len : Nat} (hlen : b.writeIndex + len < 2 ^ 64)
    {e : Fault} (he : b.ensureWritableBytes len = .error e) :
    e = .lengthError ∧ maxSize < b.writeIndex + len ∧
      b.size < cheapPrepend + b.readable.length + len := by
  rcases ensureWritableBytes_cases h hlen with
    ⟨-, e'⟩ | ⟨-, -, -, e'⟩ | ⟨-, -, e'⟩ | ⟨hmax, e'⟩ <;> rw [e'] at he
  · exact absurd he (by simp)
  · exact absurd he (by simp)
  · exact absurd he (by simp)
  · exact ⟨(Except.error.inj he).symm, hmax⟩

/-- Below the size limit `ensureWritableBytes` always returns. -/
theorem ensureWritableBytes_total (h : Roomy b) {len : Nat} (hlen : b.size + len ≤ maxSize) :
    ∃ b', b.ensureWritableBytes len = .ok b' := by
  have h1 := h.write_le
  cases he : b.ensureWritableBytes len with
  | ok b' => exact ⟨b', rfl⟩
  | error e =>
    have hmax : maxSize < 2 ^ 64 := by unfold maxSize; omega
    have := (ensureWritableBytes_error h (by omega) he).2
    omega

/-- **The wrapped sum.** With fewer than `CHEAP_PREPEND` bytes free, asking for more than is
writable slides the readable bytes past the end of the vector. -/
theorem ensureWritableBytes_out_of_bounds (h : Wf b)
    (hroom : b.readIndex + (b.size - b.writeIndex) < cheapPrepend) {len : Nat}
    (hlen : b.size - b.writeIndex < len) (hmax : len ≤ maxSize) :
    b.ensureWritableBytes len = .error .outOfBounds := by
  have h1 := h.write_le
  have h2 := h.size_le
  have h3 := h.read_le
  have hread := h.length_readable
  unfold maxSize at h2 hmax
  have hsp : len ≤ wadd b.writableBytes (wsub b.readIndex cheapPrepend) := by
    rw [h.writableBytes_eq]
    unfold cheapPrepend at hroom ⊢
    unfold wadd wsub
    omega
  have hr : b.readIndex + b.readable.length ≤ b.buffer.length := by unfold size at h1; omega
  have hrd : (b.buffer.drop b.readIndex).take b.readable.length = b.readable := by
    rw [hread]
    rfl
  have hw : ¬ cheapPrepend + b.readable.length ≤ b.buffer.length := by
    unfold size at hroom h1
    omega
  unfold ensureWritableBytes
  rw [h.writableBytes_eq, if_neg (by omega)]
  unfold makeSpace
  rw [h.readableBytes_eq_length]
  simp only [if_pos hsp, vecRead_ok hr, hrd, bind, Except.bind]
  unfold vecWrite
  rw [if_neg hw]

/-! ## Writing at the back -/

/-- `len` bytes can be added at the back with `CHEAP_PREPEND` bytes still free afterwards. -/
def RoomFor (b : Buffer) (len : Nat) : Prop :=
  cheapPrepend ≤ b.prependableBytes ∨ len + cheapPrepend ≤ b.prependableBytes + b.writableBytes

instance (b : Buffer) (len : Nat) : Decidable (b.RoomFor len) :=
  inferInstanceAs (Decidable (_ ∨ _))

/-- Copying `data` behind the write cursor and moving the cursor over it adds `data` at the back. -/
theorem writeAt_hasWritten (h : Wf b) {data : List Byte} (hfit : data.length ≤ b.size - b.writeIndex) :
    ∃ b', b.writeAt 0 data = .ok b' ∧ Wf (b'.hasWritten data.length) ∧
      (b'.hasWritten data.length).readable = b.readable ++ data ∧
      (b'.hasWritten data.length).readIndex = b.readIndex ∧
      (b'.hasWritten data.length).writeIndex = b.writeIndex + data.length ∧
      (b'.hasWritten data.length).size = b.size := by
  have h1 := h.write_le
  have h2 := h.size_le
  have h3 := h.read_le
  have hw : b.writeIndex + data.length ≤ b.buffer.length := by unfold size at h1 hfit; omega
  have hadd : wadd b.writeIndex data.length = b.writeIndex + data.length :=
    wadd_of_lt (by unfold size maxSize at h2; omega)
  refine ⟨_, by unfold writeAt; rw [Nat.add_zero, vecWrite_ok hw]; rfl, ?_⟩
  have hsize := length_overwrite hw
  refine ⟨⟨?_, ?_, ?_⟩, ?_, rfl, ?_, hsize⟩
  · simp only [hasWritten, hadd]; omega
  · simp only [hasWritten, hadd, size, hsize]; exact hw
  · simp only [hasWritten, size, hsize]; exact h2
  · simp only [readable, hasWritten, hadd]
    have e : b.writeIndex + data.length - b.readIndex = b.writeIndex - b.readIndex + data.length := by
      omega
    rw [e]
    exact read_across_overwrite hw h3
  · simp only [hasWritten, hadd]

/-- A copy behind the write cursor is not seen. -/
theorem writeAt_readable (h : Wf b) {data : List Byte} (he : b.writeAt 0 data = .ok b') :
    b'.readable = b.readable := by
  have h1 := h.write_le
  have h3 := h.read_le
  unfold size at h1
  unfold writeAt at he
  obtain ⟨v, hv, hb⟩ := bind_ok_inv he
  obtain rfl := Except.ok.inj hb
  obtain ⟨-, rfl⟩ := vecWrite_eq_ok hv
  have hl : (b.buffer.take b.writeIndex).length = b.writeIndex := List.length_take_of_le h1
  simp only [readable, Nat.add_zero]
  rw [List.append_assoc, List.drop_append_of_le_length (by omega),
    List.take_append_of_le_length (by rw [List.length_drop]; omega), List.drop_take, List.take_take,
    Nat.min_self]

/-- **`append` adds at the back**, and leaves the buffer roomy exactly when there was room. -/
theorem append_ok (h : Roomy b) {data : List Byte} (hlen : data.length ≤ maxSize)
    (he : b.append data = .ok b') :
    Wf b' ∧ b'.readable = b.readable ++ data ∧
      (b.size ≤ b'.size ∧ b'.size ≤ b.size + data.length) ∧
      (cheapPrepend ≤ b.readIndex → cheapPrepend ≤ b'.readIndex) ∧
      (Roomy b' ↔ b.RoomFor data.length) := by
  have h1 := h.write_le
  have h2 := h.size_le
  have hlen' : b.writeIndex + data.length < 2 ^ 64 := by unfold maxSize at hlen h2; omega
  unfold append at he
  cases hens : b.ensureWritableBytes data.length with
  | error e => rw [hens] at he; exact absurd he (by simp [bind, Except.bind])
  | ok b₁ =>
    obtain ⟨hr, hread, hfit, hsize, hcur⟩ := ensureWritableBytes_ok h hlen' hens
    obtain ⟨b₂, hwr, hwf, hread₂, hri, hwi, hsz⟩ := writeAt_hasWritten hr.toWf hfit
    rw [hens] at he
    simp only [bind, Except.bind, hwr, pure, Except.pure, Except.ok.injEq] at he
    subst he
    have hroomy : Roomy (b₂.hasWritten data.length) ↔
        cheapPrepend ≤ b₁.readIndex + (b₁.size - (b₁.writeIndex + data.length)) := by
      refine ⟨fun hx => ?_, fun hx => ⟨hwf, ?_⟩⟩
      · have := hx.room
        rwa [hri, hwi, hsz] at this
      · rw [hri, hwi, hsz]
        exact hx
    refine ⟨hwf, by rw [hread₂, hread], by rw [hsz]; exact hsize, fun hc => ?_, ?_⟩
    · rw [hri]
      rcases hcur with ⟨e1, -⟩ | ⟨-, hc'⟩
      · rw [e1]; exact hc
      · exact hc'
    · rw [hroomy]
      unfold RoomFor prependableBytes
      rw [h.toWf.writableBytes_eq]
      rcases hcur with ⟨e1, e2, e3⟩ | ⟨hc, hc'⟩
      · omega
      · exact ⟨fun _ => Or.inl hc, fun _ => by omega⟩

theorem append_error (h : Roomy b) {data : List Byte} (hlen : data.length ≤ maxSize) {e : Fault}
    (he : b.append data = .error e) :
    e = .lengthError ∧ maxSize < b.writeIndex + data.length ∧
      b.size < cheapPrepend + b.readable.length + data.length := by
  have h1 := h.write_le
  have h2 := h.size_le
  have hlen' : b.writeIndex + data.length < 2 ^ 64 := by unfold maxSize at hlen h2; omega
  unfold append at he
  cases hens : b.ensureWritableBytes data.length with
  | error e' =>
    rw [hens] at he
    obtain rfl := Except.error.inj he
    exact ensureWritableBytes_error h hlen' hens
  | ok b₁ =>
    obtain ⟨hr, -, hfit, -⟩ := ensureWritableBytes_ok h hlen' hens
    obtain ⟨b₂, hwr, -⟩ := writeAt_hasWritten hr.toWf hfit
    rw [hens] at he
    simp only [bind, Except.bind, hwr, pure, Except.pure] at he
    exact absurd he (by simp)

/-- Below the size limit `append` always returns. -/
theorem append_total (h : Roomy b) {data : List Byte} (hlen : b.size + data.length ≤ maxSize) :
    ∃ b', b.append data = .ok b' := by
  have h1 := h.write_le
  cases he : b.append data with
  | ok b' => exact ⟨b', rfl⟩
  | error e =>
    have := (append_error h (by omega) he).2
    omega

/-- **`readFd` adds what the kernel delivered at the back**, the bytes that did not fit in the
vector included. -/
theorem readFd_ok (h : Roomy b) {data : List Byte}
    (hlen : data.length ≤ b.writableBytes + extraSize) (hroom : b.RoomFor data.length)
    (he : b.readFd (some data) = .ok b') :
    Roomy b' ∧ b'.readable = b.readable ++ data ∧
      (cheapPrepend ≤ b.readIndex → cheapPrepend ≤ b'.readIndex) := by
  have h1 := h.write_le
  have h2 := h.size_le
  rw [h.toWf.writableBytes_eq] at hlen
  unfold RoomFor prependableBytes at hroom
  rw [h.toWf.writableBytes_eq] at hroom
  have htake : (data.take (b.size - b.writeIndex)).length ≤ b.size - b.writeIndex := by
    rw [List.length_take]
    omega
  obtain ⟨b₁, hwr, hwf, hread, hri, hwi, hsz⟩ := writeAt_hasWritten h.toWf htake
  unfold readFd at he
  simp only [h.toWf.writableBytes_eq, hwr, bind, Except.bind] at he
  by_cases hfit : data.length ≤ b.size - b.writeIndex
  · rw [List.take_of_length_le hfit] at hwf hread hri hwi hsz
    simp only [if_pos hfit, pure, Except.pure, Except.ok.injEq] at he
    change b₁.hasWritten data.length = b' at he
    subst he
    exact ⟨⟨hwf, by rw [hri, hwi, hsz]; omega⟩, hread, fun hc => by rw [hri]; exact hc⟩
  · -- the vector is full, and the rest goes through `append`
    have hw : (data.take (b.size - b.writeIndex)).length = b.size - b.writeIndex := by
      rw [List.length_take]
      omega
    rw [hw] at hwf hread hri hwi hsz
    rw [if_neg hfit] at he
    have hsz₁ : b₁.size = b.size := hsz
    have hfull : b₁.hasWritten (b.size - b.writeIndex) = { b₁ with writeIndex := b₁.size } := by
      have hwi' : (b₁.hasWritten (b.size - b.writeIndex)).writeIndex = b₁.size := by
        rw [hwi, hsz₁]
        omega
      simp only [hasWritten] at hwi' ⊢
      rw [hwi']
    rw [hfull] at hwf hread hri
    have hc : cheapPrepend ≤ b.readIndex := by omega
    have hs : Sound { b₁ with writeIndex := b₁.size } := ⟨hwf, by rw [hri]; exact hc⟩
    obtain ⟨hwf', hread', -, hkeep, hroomy⟩ := append_ok hs.roomy
      (by rw [List.length_drop]; unfold extraSize at hlen; unfold maxSize; omega) he
    refine ⟨hroomy.mpr (Or.inl hs.prepend_le), ?_, fun _ => hkeep hs.prepend_le⟩
    rw [hread', hread, List.append_assoc, List.take_append_drop]

theorem readFd_error (h : Roomy b) {data : List Byte}
    (hlen : data.length ≤ b.writableBytes + extraSize) (hroom : b.RoomFor data.length) {e : Fault}
    (he : b.readFd (some data) = .error e) :
    e = .lengthError ∧ maxSize < b.writeIndex + data.length ∧
      b.size < cheapPrepend + b.readable.length + data.length := by
  have h1 := h.write_le
  have hbytes := h.toWf.length_readable
  rw [h.toWf.writableBytes_eq] at hlen
  unfold RoomFor prependableBytes at hroom
  rw [h.toWf.writableBytes_eq] at hroom
  have htake : (data.take (b.size - b.writeIndex)).length ≤ b.size - b.writeIndex := by
    rw [List.length_take]
    omega
  obtain ⟨b₁, hwr, hwf, -, hri, -, hsz⟩ := writeAt_hasWritten h.toWf htake
  unfold readFd at he
  simp only [h.toWf.writableBytes_eq, hwr, bind, Except.bind] at he
  by_cases hfit : data.length ≤ b.size - b.writeIndex
  · simp only [if_pos hfit, pure, Except.pure] at he
    exact absurd he (by simp)
  · rw [if_neg hfit] at he
    have hread : b₁.readIndex = b.readIndex := hri
    have hsize : b₁.size = b.size := hsz
    have h3 := h.read_le
    have hs : Sound { b₁ with writeIndex := b₁.size } := by
      refine ⟨⟨?_, Nat.le_refl _, ?_⟩, ?_⟩
      · simp only [hread, hsize]; omega
      · exact hsize ▸ h.size_le
      · simp only [hread]; omega
    obtain ⟨rfl, hmax, hslide⟩ := append_error hs.roomy
      (by rw [List.length_drop]; unfold extraSize at hlen; unfold maxSize; omega) he
    rw [hs.toWf.length_readable] at hslide
    rw [List.length_drop] at hmax hslide
    have hfull : Buffer.size { b₁ with writeIndex := b₁.size } = b.size := hsize
    rw [hfull] at hslide
    simp only [hsize, hread] at hmax hslide
    exact ⟨rfl, by omega, by omega⟩

/-- `prepend` puts `data` in front. -/
theorem prepend_ok (h : Wf b) {data : List Byte} (hlen : data.length ≤ b.prependableBytes) :
    ∃ b', b.prepend data = .ok b' ∧ Wf b' ∧ b'.readable = data ++ b.readable ∧
      b'.readIndex = b.readIndex - data.length ∧ b'.writeIndex = b.writeIndex ∧
      b'.size = b.size := by
  have h1 := h.write_le
  have h2 := h.size_le
  have h3 := h.read_le
  unfold prependableBytes at hlen
  have hsub : wsub b.readIndex data.length = b.readIndex - data.length :=
    wsub_of_le hlen (by unfold maxSize at h2; omega)
  have hw : b.readIndex - data.length + data.length ≤ b.buffer.length := by unfold size at h1; omega
  have hsize := length_overwrite hw
  have he : b.prepend data = .ok ⟨b.buffer.take (b.readIndex - data.length) ++ data ++
      b.buffer.drop (b.readIndex - data.length + data.length), b.writeIndex,
      b.readIndex - data.length⟩ := by
    unfold prepend prependableBytes
    rw [if_neg (by omega)]
    simp only [hsub, vecWrite_ok hw, bind, Except.bind]
    rfl
  refine ⟨_, he, ⟨?_, ?_, ?_⟩, ?_, rfl, rfl, hsize⟩
  · simp only; omega
  · simp only [size, hsize]; exact h1
  · simp only [size, hsize]; exact h2
  · have hl : (b.buffer.take (b.readIndex - data.length)).length = b.readIndex - data.length := by
      rw [List.length_take]
      omega
    have he : b.readIndex - data.length + data.length = b.readIndex := by omega
    simp only [readable, he]
    rw [List.append_assoc, List.drop_append_of_le_length hl.ge, List.drop_of_length_le hl.le,
      List.nil_append, List.take_append, List.take_of_length_le (by omega)]
    congr 2
    omega

theorem writeFd_roomy (h : Roomy b) (n : Int) : Roomy (b.writeFd n) := by
  unfold writeFd
  split
  · exact h
  · exact retrieve_roomy h _

/-- With fewer than `CHEAP_PREPEND` bytes free, an `append` that does not fit goes out of bounds. -/
theorem append_out_of_bounds (h : Wf b)
    (hroom : b.readIndex + (b.size - b.writeIndex) < cheapPrepend) {data : List Byte}
    (hlen : b.size - b.writeIndex < data.length) (hmax : data.length ≤ maxSize) :
    b.append data = .error .outOfBounds := by
  unfold append
  rw [ensureWritableBytes_out_of_bounds h hroom hlen hmax]
  rfl

/-- An `append` that returns adds at the back, roomy or not. -/
theorem append_wf (h : Wf b) {data : List Byte} (hlen : data.length ≤ maxSize)
    (he : b.append data = .ok b') :
    Wf b' ∧ b'.readable = b.readable ++ data ∧
      (b.size ≤ b'.size ∧ b'.size ≤ b.size + data.length) ∧
      (cheapPrepend ≤ b.readIndex → cheapPrepend ≤ b'.readIndex) := by
  by_cases hroom : cheapPrepend ≤ b.readIndex + (b.size - b.writeIndex)
  · obtain ⟨hwf, hread, hsize, hkeep, -⟩ := append_ok ⟨h, hroom⟩ hlen he
    exact ⟨hwf, hread, hsize, hkeep⟩
  · by_cases hfit : data.length ≤ b.size - b.writeIndex
    · obtain ⟨b₁, hwr, hwf, hread, hri, -, hsz⟩ := writeAt_hasWritten h hfit
      unfold append ensureWritableBytes at he
      rw [h.writableBytes_eq, if_pos hfit] at he
      simp only [bind, Except.bind, hwr, pure, Except.pure, Except.ok.injEq] at he
      subst he
      exact ⟨hwf, hread, by omega, fun hc => by rw [hri]; exact hc⟩
    · rw [append_out_of_bounds h (by omega) (by omega) hlen] at he
      exact absurd he (by simp)

theorem append_usable (h : Usable b) {data : List Byte} (hlen : data.length ≤ maxSize)
    (he : b.append data = .ok b') :
    Usable b' ∧ b'.readable = b.readable ++ data ∧ b'.size ≤ b.size + data.length := by
  obtain ⟨hwf, hread, hsize, -⟩ := append_wf h.toWf hlen he
  exact ⟨⟨hwf, Nat.le_trans h.size_ge hsize.1⟩, hread, hsize.2⟩

theorem append_sound (h : Sound b) {data : List Byte} (hlen : data.length ≤ maxSize)
    (he : b.append data = .ok b') : Sound b' ∧ b'.readable = b.readable ++ data := by
  obtain ⟨hwf, hread, -, hkeep⟩ := append_wf h.toWf hlen he
  exact ⟨⟨hwf, hkeep h.prepend_le⟩, hread⟩

/-! ## Buffers that are filled and emptied -/

/-- Reached from a constructor by `append` and `retrieve`. -/
inductive Reached : Buffer → Prop where
  | construct {b : Buffer} {n : Nat} (hn : cheapPrepend + n < 2 ^ 64) (he : construct n = .ok b) :
      Reached b
  | append {b b' : Buffer} {data : List Byte} (h : Reached b) (hdata : data.length ≤ maxSize)
      (he : b.append data = .ok b') : Reached b'
  | retrieve {b : Buffer} (h : Reached b) (len : Nat) : Reached (b.retrieve len)

theorem Reached.sound (h : Reached b) : Sound b := by
  induction h with
  | construct hn he => exact (construct_sound hn he).1
  | append _ hdata he ih => exact (append_sound ih hdata he).1
  | retrieve _ len ih => exact retrieve_sound ih len

theorem fresh_reached : Reached fresh :=
  .construct (by decide) construct_initializeSize

/-- Well formed, and reset to `CHEAP_PREPEND` when there is nothing to read. -/
structure Settled (b : Buffer) : Prop extends Wf b where
  reset : b.readable = [] → b.readIndex = cheapPrepend

theorem retrieve_settled (h : Sound b) (len : Nat) : Settled (b.retrieve len) := by
  refine ⟨(retrieve_sound h len).toWf, ?_⟩
  intro hempty
  unfold retrieve at hempty ⊢
  split
  · rfl
  · rename_i hlt
    rw [h.toWf.readableBytes_eq_length] at hlt
    have hread := readable_retrieve h.toWf len
    unfold retrieve at hread
    rw [if_neg (by rw [h.toWf.readableBytes_eq_length]; exact hlt)] at hread hempty
    rw [hread, List.drop_eq_nil_iff] at hempty
    omega

theorem append_nil_readIndex (h : Wf b) (he : b.append [] = .ok b') : b'.readIndex = b.readIndex := by
  have hfit : ([] : List Byte).length ≤ b.size - b.writeIndex := Nat.zero_le _
  obtain ⟨b₁, hwr, -, -, hri, -⟩ := writeAt_hasWritten h hfit
  unfold append ensureWritableBytes at he
  rw [List.length_nil, if_pos (Nat.zero_le _), ok_bind, hwr, ok_bind] at he
  obtain rfl := Except.ok.inj he
  exact hri

theorem Reached.settled (h : Reached b) : Settled b := by
  induction h with
  | construct hn he =>
    refine ⟨(construct_sound hn he).1.toWf, fun _ => ?_⟩
    unfold Buffer.construct at he
    obtain ⟨v, -, hb⟩ := bind_ok_inv he
    obtain rfl := Except.ok.inj hb
    rfl
  | append h hdata he ih =>
    obtain ⟨hs, hread⟩ := append_sound h.sound hdata he
    refine ⟨hs.toWf, fun hempty => ?_⟩
    rw [hread, List.append_eq_nil_iff] at hempty
    obtain ⟨hold, rfl⟩ := hempty
    rw [append_nil_readIndex ih.toWf he]
    exact ih.reset hold
  | retrieve h len _ => exact retrieve_settled h.sound len

end HyperMuduo.Net.Buffer
