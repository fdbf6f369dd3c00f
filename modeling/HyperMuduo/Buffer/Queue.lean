import HyperMuduo.Buffer.Spec
import Mathlib.Data.List.Forall2

/-!
# `Buffer` is a byte queue

On the network path nothing is prepended, and a buffer is used as a queue of bytes: filled at the
back by `append`, by hand through `beginWrite` and `hasWritten`, or from a socket, and emptied at the
front. `Queues.step` says so in terms of lists of bytes only. `Bench.step` makes the same calls on
the buffers, with the cursors, the sliding, the growing and the overflow segment of `readFd`.

**`byte_queue`**: the second refines the first. Every sequence of calls within the promises of
`Admissible` returns, the readable bytes of each buffer are its abstract queue, and the strings
handed out are those the queues lost. `Sound` is what carries the proof: the read cursor never gets
below `CHEAP_PREPEND`, so the sums of `makeSpace` do not wrap.
-/

namespace HyperMuduo.Net

open HyperMuduo.Lib

namespace Buffer

/-- The size of the vector once `len` more bytes are in it: it grows when sliding the readable bytes
down does not make the room. -/
def sizeFor (b : Buffer) (len : Nat) : Nat :=
  if cheapPrepend + b.readableBytes + len ≤ b.size then b.size else b.writeIndex + len

/-- `ensureWritableBytes(n)`, then `data` copied to `beginWrite()`, then `hasWritten(m)`. -/
def writeByHand (b : Buffer) (n : Nat) (data : List Byte) (m : Nat) : Except Fault Buffer := do
  let b ← b.ensureWritableBytes n
  let b ← b.writeAt 0 data
  return b.hasWritten m

end Buffer

namespace Queue

open Buffer

/-- A call on one buffer. -/
inductive Op where
  | append (data : List Byte)
  | retrieve (len : Nat)
  | retrieveAsString (len : Nat)
  | retrieveAllAsString
  | retrieveAll
  | ensureWritableBytes (len : Nat)
  | writeByHand (n : Nat) (data : List Byte) (m : Nat)
  /-- What `readv` delivered, `none` for `-1`. -/
  | readFd (delivered : Option (List Byte))
  /-- What `write` returned. -/
  | writeFd (n : Int)
  deriving DecidableEq, Repr

/-- A call of a program that holds a list of buffers. -/
inductive Call where
  | construct (n : Nat)
  | on (i : Nat) (op : Op)
  | swap (i j : Nat)
  deriving DecidableEq, Repr

/-! ## The abstract queue -/

/-- The queue after a call, and the string the call returned, if it returns one. -/
def Op.onQueue (q : List Byte) : Op → List Byte × Option (List Byte)
  | append data => (q ++ data, none)
  | retrieve len => (q.drop (min len q.length), none)
  | retrieveAsString len => (q.drop (min len q.length), some (q.take (min len q.length)))
  | retrieveAllAsString => ([], some q)
  | retrieveAll => ([], none)
  | ensureWritableBytes _ => (q, none)
  | writeByHand _ data m => (q ++ data.take m, none)
  | readFd none => (q, none)
  | readFd (some data) => (q ++ data, none)
  | writeFd n => if n < 0 then (q, none) else (q.drop n.toNat, none)

/-- The queues of a program, and the strings it was handed. -/
structure Queues where
  queues : List (List Byte)
  returned : List (List Byte)
  deriving DecidableEq, Repr

def Queues.step (t : Queues) : Call → Queues
  | .construct _ => { t with queues := t.queues ++ [[]] }
  | .on i op =>
    match t.queues[i]? with
    | none => t
    | some q =>
      ⟨t.queues.set i (op.onQueue q).1, t.returned ++ (op.onQueue q).2.toList⟩
  | .swap i j =>
    match t.queues[i]?, t.queues[j]? with
    | some p, some q => { t with queues := (t.queues.set i q).set j p }
    | _, _ => t

/-! ## The buffers -/

/-- The buffer after a call, and the string the call returned, if it returns one. -/
def Op.onBuffer (b : Buffer) : Op → Except Fault (Buffer × Option (List Byte))
  | append data => do return (← b.append data, none)
  | retrieve len => .ok (b.retrieve len, none)
  | retrieveAsString len => do
    let (msg, b) ← b.retrieveAsString len
    return (b, some msg)
  | retrieveAllAsString => do
    let (msg, b) ← b.retrieveAllAsString
    return (b, some msg)
  | retrieveAll => .ok (b.retrieveAll, none)
  | ensureWritableBytes len => do return (← b.ensureWritableBytes len, none)
  | writeByHand n data m => do return (← b.writeByHand n data m, none)
  | readFd delivered => do return (← b.readFd delivered, none)
  | writeFd n => .ok (b.writeFd n, none)

/-- The buffers of a program, and the strings it was handed. -/
structure Bench where
  buffers : List Buffer
  returned : List (List Byte)
  deriving DecidableEq, Repr

def Bench.step (s : Bench) : Call → Except Fault Bench
  | .construct n => do
    let b ← Buffer.construct n
    return { s with buffers := s.buffers ++ [b] }
  | .on i op =>
    match s.buffers[i]? with
    | none => .ok s
    | some b => do
      let (b', msg) ← op.onBuffer b
      return ⟨s.buffers.set i b', s.returned ++ msg.toList⟩
  | .swap i j =>
    match s.buffers[i]?, s.buffers[j]? with
    | some b, some c => .ok { s with buffers := (s.buffers.set i (b.swap c).1).set j (b.swap c).2 }
    | _, _ => .ok s

/-- The bytes a call wants room for. -/
def Op.wanted : Op → Nat
  | append data => data.length
  | ensureWritableBytes len => len
  | writeByHand n _ _ => n
  | readFd (some data) => data.length
  | _ => 0

/-- What the caller and the kernel promise of the arguments. -/
def Op.Promised (b : Buffer) : Op → Prop
  | retrieveAsString len => len ≤ b.readableBytes
  | writeByHand n data m => data.length ≤ n ∧ m ≤ data.length
  | readFd (some data) => data.length ≤ b.writableBytes + extraSize
  | writeFd n => -1 ≤ n ∧ n ≤ b.readableBytes
  | _ => True

instance (b : Buffer) : ∀ op : Op, Decidable (op.Promised b)
  | .retrieveAsString len => inferInstanceAs (Decidable (len ≤ b.readableBytes))
  | .writeByHand n data m => inferInstanceAs (Decidable (data.length ≤ n ∧ m ≤ data.length))
  | .readFd (some data) => inferInstanceAs (Decidable (data.length ≤ b.writableBytes + extraSize))
  | .writeFd n => inferInstanceAs (Decidable (-1 ≤ n ∧ n ≤ b.readableBytes))
  | .append _ | .retrieve _ | .retrieveAllAsString | .retrieveAll | .ensureWritableBytes _
  | .readFd none => isTrue trivial

/-- The promises, with every size below `2 ^ 63`. -/
def Op.Admissible (b : Buffer) (op : Op) : Prop :=
  op.Promised b ∧ op.wanted < 2 ^ 63 ∧ b.sizeFor op.wanted < 2 ^ 63

instance (b : Buffer) (op : Op) : Decidable (op.Admissible b) :=
  inferInstanceAs (Decidable (_ ∧ _ ∧ _))

def Bench.Admissible (s : Bench) : Call → Prop
  | .construct n => cheapPrepend + n < 2 ^ 63
  | .on i op => ∀ b ∈ s.buffers[i]?, op.Admissible b
  | .swap _ _ => True

instance (s : Bench) : ∀ c : Call, Decidable (s.Admissible c)
  | .construct n => inferInstanceAs (Decidable (cheapPrepend + n < 2 ^ 63))
  | .on i op => inferInstanceAs (Decidable (∀ b ∈ s.buffers[i]?, op.Admissible b))
  | .swap _ _ => isTrue trivial

/-! ## One call -/

variable {b : Buffer}

/-- Room for `len` bytes does not take a vector of `2 ^ 63` bytes or more. -/
theorem writeIndex_add_le (h : Sound b) {len : Nat} (hsize : b.sizeFor len < 2 ^ 63)
    (hslide : b.size < cheapPrepend + b.readable.length + len) : b.writeIndex + len ≤ maxSize := by
  unfold sizeFor at hsize
  rw [h.toWf.readableBytes_eq_length, if_neg (by omega)] at hsize
  unfold maxSize
  omega

theorem ensureWritableBytes_queue (h : Sound b) {len : Nat} (hlen : len < 2 ^ 63)
    (hsize : b.sizeFor len < 2 ^ 63) :
    ∃ b', b.ensureWritableBytes len = .ok b' ∧ Sound b' ∧ b'.readable = b.readable ∧
      len ≤ b'.size - b'.writeIndex := by
  have h1 := h.write_le
  have h2 := h.size_le
  have h3 := h.prepend_le
  have hsum : b.writeIndex + len < 2 ^ 64 := by unfold maxSize at h2; omega
  cases he : b.ensureWritableBytes len with
  | error e =>
    obtain ⟨-, hmax, hslide⟩ := ensureWritableBytes_error h.roomy hsum he
    have := writeIndex_add_le h hsize hslide
    omega
  | ok b' =>
    obtain ⟨hr, hread, hfit, -, hcur⟩ := ensureWritableBytes_ok h.roomy hsum he
    exact ⟨b', rfl, ⟨hr.toWf, by omega⟩, hread, hfit⟩

theorem append_queue (h : Sound b) {data : List Byte} (hlen : data.length < 2 ^ 63)
    (hsize : b.sizeFor data.length < 2 ^ 63) :
    ∃ b', b.append data = .ok b' ∧ Sound b' ∧ b'.readable = b.readable ++ data := by
  have hmax : data.length ≤ maxSize := by unfold maxSize; omega
  cases he : b.append data with
  | error e =>
    obtain ⟨-, hbig, hslide⟩ := append_error h.roomy hmax he
    have := writeIndex_add_le h hsize hslide
    omega
  | ok b' => exact ⟨b', rfl, append_sound h hmax he⟩

theorem readFd_queue (h : Sound b) {data : List Byte}
    (hlen : data.length ≤ b.writableBytes + extraSize) (hsize : b.sizeFor data.length < 2 ^ 63) :
    ∃ b', b.readFd (some data) = .ok b' ∧ Sound b' ∧ b'.readable = b.readable ++ data := by
  have hroom : b.RoomFor data.length := Or.inl h.prepend_le
  cases he : b.readFd (some data) with
  | error e =>
    obtain ⟨-, hbig, hslide⟩ := readFd_error h.roomy hlen hroom he
    have := writeIndex_add_le h hsize hslide
    omega
  | ok b' =>
    obtain ⟨hr, hread, hkeep⟩ := readFd_ok h.roomy hlen hroom he
    exact ⟨b', rfl, ⟨hr.toWf, hkeep h.prepend_le⟩, hread⟩

/-- Moving the write cursor over fewer bytes shows fewer of them. -/
theorem hasWritten_readable {k m : Nat} (h : b.readIndex ≤ b.writeIndex) (hm : m ≤ k)
    (hk : b.writeIndex + k < 2 ^ 64) :
    (b.hasWritten m).readable =
      (b.hasWritten k).readable.take (b.writeIndex - b.readIndex + m) := by
  unfold readable hasWritten
  rw [wadd_of_lt hk, wadd_of_lt (by omega), List.take_take]
  simp only
  congr 1
  omega

theorem writeByHand_queue (h : Sound b) {n m : Nat} {data : List Byte} (hn : n < 2 ^ 63)
    (hsize : b.sizeFor n < 2 ^ 63) (hdata : data.length ≤ n) (hm : m ≤ data.length) :
    ∃ b', b.writeByHand n data m = .ok b' ∧ Sound b' ∧
      b'.readable = b.readable ++ data.take m := by
  obtain ⟨b₁, he₁, hs₁, hread₁, hfit⟩ := ensureWritableBytes_queue h hn hsize
  obtain ⟨b₂, he₂, hwf, hread₂, hri, hwi, hsz⟩ := writeAt_hasWritten hs₁.toWf (by omega : data.length ≤ _)
  have hri' : b₂.readIndex = b₁.readIndex := hri
  have hwi' : b₂.writeIndex = b₁.writeIndex := by
    unfold writeAt at he₂
    obtain ⟨v, -, hv⟩ := bind_ok_inv he₂
    obtain rfl := Except.ok.inj hv
    rfl
  have hsz' : b₂.size = b₁.size := hsz
  have h1 := hs₁.read_le
  have h2 := hs₁.write_le
  have h3 := hs₁.size_le
  have h4 := hs₁.prepend_le
  unfold maxSize at h3
  have hadd : wadd b₂.writeIndex m = b₂.writeIndex + m := wadd_of_lt (by omega)
  refine ⟨b₂.hasWritten m, ?_, ⟨⟨?_, ?_, ?_⟩, ?_⟩, ?_⟩
  · unfold writeByHand
    rw [he₁, ok_bind, he₂]
    rfl
  · simp only [hasWritten, hadd]
    omega
  · change wadd b₂.writeIndex m ≤ b₂.size
    omega
  · change b₂.size ≤ maxSize
    exact hsz' ▸ hs₁.size_le
  · change cheapPrepend ≤ b₂.readIndex
    omega
  · rw [hasWritten_readable (by omega) hm (by omega), hread₂, hread₁, hri', hwi',
      ← hs₁.toWf.length_readable, hread₁, List.take_append,
      List.take_of_length_le (by omega), Nat.add_sub_cancel_left]

/-- A whole read of the readable range. -/
theorem peek_all (h : Sound b) : b.peek 0 b.readableBytes = .ok b.readable := by
  rw [h.toWf.readableBytes_eq_length, peek_eq h.toWf (by omega), List.drop_zero,
    List.take_length]

theorem drop_min (q : List Byte) (len : Nat) : q.drop (min len q.length) = q.drop len := by
  by_cases hle : len ≤ q.length
  · rw [Nat.min_eq_left hle]
  · rw [Nat.min_eq_right (by omega), List.drop_length, List.drop_of_length_le (by omega)]

/-- **One call** does to the buffer what it does to the queue. -/
theorem Op.onBuffer_onQueue (h : Sound b) {op : Op} (hadm : op.Admissible b) :
    ∃ b', op.onBuffer b = .ok (b', (op.onQueue b.readable).2) ∧ Sound b' ∧
      b'.readable = (op.onQueue b.readable).1 := by
  obtain ⟨hprom, hlen, hsize⟩ := hadm
  have hall := retrieveAll_sound h.roomy.usable
  cases op with
  | append data =>
    obtain ⟨b', he, hs, hread⟩ := append_queue h hlen hsize
    refine ⟨b', ?_, hs, hread⟩
    simp only [onBuffer, he, ok_bind]
    rfl
  | retrieve len =>
    refine ⟨b.retrieve len, rfl, retrieve_sound h len, ?_⟩
    rw [readable_retrieve h.toWf]
    exact (drop_min _ _).symm
  | retrieveAsString len =>
    have hle : len ≤ b.readable.length := h.toWf.readableBytes_eq_length ▸ hprom
    refine ⟨b.retrieve len, ?_, retrieve_sound h len, ?_⟩
    · simp only [onBuffer, Buffer.retrieveAsString, peek_eq h.toWf (Nat.zero_add len ▸ hle), ok_bind,
        List.drop_zero, onQueue, Nat.min_eq_left hle]
      rfl
    · rw [readable_retrieve h.toWf]
      exact (drop_min _ _).symm
  | retrieveAllAsString =>
    refine ⟨b.retrieveAll, ?_, hall.1, hall.2⟩
    simp only [onBuffer, Buffer.retrieveAllAsString, peek_all h, ok_bind, onQueue]
    rfl
  | retrieveAll => exact ⟨b.retrieveAll, rfl, hall.1, hall.2⟩
  | ensureWritableBytes len =>
    have hlen : len < 2 ^ 63 := hlen
    obtain ⟨b', he, hs, hread, -⟩ := ensureWritableBytes_queue h hlen hsize
    refine ⟨b', ?_, hs, hread⟩
    simp only [onBuffer, he, ok_bind]
    rfl
  | writeByHand n data m =>
    have hn : n < 2 ^ 63 := hlen
    obtain ⟨b', he, hs, hread⟩ := writeByHand_queue h hn hsize hprom.1 hprom.2
    refine ⟨b', ?_, hs, hread⟩
    simp only [onBuffer, he, ok_bind]
    rfl
  | readFd delivered =>
    cases delivered with
    | none => exact ⟨b, rfl, h, rfl⟩
    | some data =>
      obtain ⟨b', he, hs, hread⟩ := readFd_queue h hprom hsize
      refine ⟨b', ?_, hs, hread⟩
      simp only [onBuffer, he, ok_bind]
      rfl
  | writeFd n =>
    by_cases hn : n < 0
    · refine ⟨b, ?_, h, ?_⟩
      · simp only [onBuffer, Buffer.writeFd, onQueue, if_pos hn]
      · simp only [onQueue, if_pos hn]
    · refine ⟨b.retrieve n.toNat, ?_, retrieve_sound h _, ?_⟩
      · simp only [onBuffer, Buffer.writeFd, onQueue, if_neg hn]
      · simp only [onQueue, if_neg hn]
        exact readable_retrieve h.toWf _

/-! ## Whole call sequences -/

/-- The buffers are sound and show the queues. -/
structure Refines (s : Bench) (t : Queues) : Prop where
  sound : ∀ b ∈ s.buffers, Sound b
  readable : s.buffers.map Buffer.readable = t.queues
  returned : s.returned = t.returned

theorem Refines.queue_at {s : Bench} {t : Queues} (h : Refines s t) (i : Nat) :
    t.queues[i]? = (s.buffers[i]?).map Buffer.readable := by
  rw [← h.readable, List.getElem?_map]

theorem sound_set {bs : List Buffer} {b' : Buffer} (h : ∀ b ∈ bs, Sound b) (hb : Sound b') (i : Nat) :
    ∀ b ∈ bs.set i b', Sound b := by
  intro b hmem
  rcases List.mem_or_eq_of_mem_set hmem with hold | rfl
  · exact h b hold
  · exact hb

theorem step_refines {s : Bench} {t : Queues} {c : Call} (h : Refines s t) (hadm : s.Admissible c) :
    ∃ s', s.step c = .ok s' ∧ Refines s' (t.step c) := by
  cases c with
  | construct n =>
    simp only [Bench.Admissible] at hadm
    obtain ⟨b₀, hb⟩ : ∃ b₀, Buffer.construct n = .ok b₀ :=
      ⟨_, construct_eq (by unfold maxSize; omega)⟩
    obtain ⟨hs, hread⟩ := construct_sound (by omega) hb
    refine ⟨{ s with buffers := s.buffers ++ [b₀] }, ?_, ?_, ?_, h.returned⟩
    · simp only [Bench.step, hb, ok_bind]
      rfl
    · intro b hmem
      rcases List.mem_append.mp hmem with hold | hnew
      · exact h.sound b hold
      · rw [List.mem_singleton.mp hnew]
        exact hs
    · simp only [List.map_append, List.map_cons, List.map_nil, hread, h.readable, Queues.step]
  | on i op =>
    have hq := h.queue_at i
    cases hi : s.buffers[i]? with
    | none =>
      rw [hi, Option.map_none] at hq
      refine ⟨s, by simp only [Bench.step, hi], ?_⟩
      simpa only [Queues.step, hq] using h
    | some b =>
      rw [hi, Option.map_some] at hq
      have hsb : Sound b := h.sound b (List.mem_of_getElem? hi)
      obtain ⟨b', he, hs, hread⟩ := Op.onBuffer_onQueue hsb (hadm b hi)
      refine ⟨_, by simp only [Bench.step, hi, he, ok_bind]; rfl, ?_⟩
      simp only [Queues.step, hq]
      refine ⟨sound_set h.sound hs i, ?_, ?_⟩
      · simp only [List.map_set, hread, h.readable]
      · simp only [h.returned]
  | swap i j =>
    have hi := h.queue_at i
    have hj := h.queue_at j
    cases hbi : s.buffers[i]? with
    | none =>
      rw [hbi, Option.map_none] at hi
      refine ⟨s, by simp only [Bench.step, hbi], ?_⟩
      simpa only [Queues.step, hi] using h
    | some b =>
      cases hbj : s.buffers[j]? with
      | none =>
        rw [hbi, Option.map_some] at hi
        rw [hbj, Option.map_none] at hj
        refine ⟨s, by simp only [Bench.step, hbi, hbj], ?_⟩
        simpa only [Queues.step, hi, hj] using h
      | some c =>
        rw [hbi, Option.map_some] at hi
        rw [hbj, Option.map_some] at hj
        have hsb : Sound b := h.sound b (List.mem_of_getElem? hbi)
        have hsc : Sound c := h.sound c (List.mem_of_getElem? hbj)
        refine ⟨_, by simp only [Bench.step, hbi, hbj]; rfl, ?_⟩
        simp only [Queues.step, hi, hj]
        refine ⟨sound_set (sound_set h.sound hsc i) hsb j, ?_, h.returned⟩
        simp only [List.map_set, h.readable, Buffer.swap]

/-- What the caller of a buffer sees of its contents: the number of readable bytes, and the bytes
from `peek()` on. -/
def Shows (b : Buffer) (q : List Byte) : Prop :=
  b.readableBytes = q.length ∧ b.peek 0 b.readableBytes = .ok q

/-- **A buffer is a byte queue.** Every admissible sequence of calls returns, every buffer shows its
queue, and the strings returned are those taken off the queues. -/
theorem byte_queue {calls : List Call}
    (hadm : Along Bench.step Bench.Admissible ⟨[], []⟩ calls) :
    ∃ s, run Bench.step ⟨[], []⟩ calls = .ok s ∧
      List.Forall₂ Shows s.buffers (calls.foldl Queues.step ⟨[], []⟩).queues ∧
      s.returned = (calls.foldl Queues.step ⟨[], []⟩).returned := by
  have h0 : Refines ⟨[], []⟩ ⟨[], []⟩ := ⟨by simp, rfl, rfl⟩
  obtain ⟨s, hrun, hs⟩ := run_refines step_refines h0 hadm
  refine ⟨s, hrun, ?_, hs.returned⟩
  rw [← hs.readable, List.forall₂_map_right_iff, List.forall₂_same]
  intro b hb
  exact ⟨(hs.sound b hb).toWf.readableBytes_eq_length, peek_all (hs.sound b hb)⟩

/-- Fill an empty buffer past its vector from a socket, slide, grow, write by hand and drain. -/
def socketToString : List Call :=
  [.construct 0, .construct 4, .on 0 (.readFd (some [1, 2, 3])), .on 0 (.retrieve 1),
    .on 0 (.append [4]), .on 0 (.readFd none), .on 1 (.writeByHand 5 [7, 8, 9] 2), .swap 0 1,
    .on 1 (.retrieveAsString 2), .on 1 (.writeFd (-1)), .on 1 (.writeFd 1), .on 0 .retrieveAllAsString]

theorem byte_queue_socketToString :
    ∃ s, run Bench.step ⟨[], []⟩ socketToString = .ok s ∧ List.Forall₂ Shows s.buffers [[], []] ∧
      s.returned = [[2, 3], [7, 8]] := by
  have hadm : Along Bench.step Bench.Admissible ⟨[], []⟩ socketToString := by decide +kernel
  obtain ⟨s, hrun, hshow, hret⟩ := byte_queue hadm
  have hspec : socketToString.foldl Queues.step ⟨[], []⟩ = ⟨[[], []], [[2, 3], [7, 8]]⟩ := by
    decide +kernel
  rw [hspec] at hshow hret
  exact ⟨s, hrun, hshow, hret⟩

end Queue

end HyperMuduo.Net
