import HyperMuduo.Buffer.Queue

/-!
# Where the bytes of `retrieveAsString` come from

`retrieve(len)` clamps a length past the readable bytes; `retrieveAsString(len)` clamps the same way
what it removes, but builds its string from `peek()` and the length as given. Past the readable bytes
it hands out whatever the vector holds behind `write_index_`: bytes of earlier messages, or bytes
outside the vector.

An `Account` is a buffer with every byte that was put into it and every byte that was taken from it,
handed out or thrown away; a swap exchanges the accounts with the contents.
**`retrieval_exact_iff`**: in every state reached, `retrieveAsString(len)` returns the bytes it removes
exactly for `len` within the readable bytes, and while all calls of a run keep to that, what was taken
is what was put in, from the front.
-/

namespace HyperMuduo.Net.Queue

open HyperMuduo.Lib HyperMuduo.Net.Buffer

/-- What is promised of the arguments: an array fits in memory, the kernel fills the room it is given,
and sums of `size_t` do not wrap. A length for `retrieveAsString` is not promised anything. -/
def Op.Allowed (b : Buffer) : Op → Prop
  | append data => data.length ≤ maxSize
  | ensureWritableBytes len => b.writeIndex + len < 2 ^ 64
  | writeByHand n data m => (writeByHand n data m).Admissible b
  | readFd (some data) => data.length ≤ b.writableBytes + extraSize
  | _ => True

instance (b : Buffer) : ∀ op : Op, Decidable (op.Allowed b)
  | .append data => inferInstanceAs (Decidable (data.length ≤ maxSize))
  | .ensureWritableBytes len => inferInstanceAs (Decidable (b.writeIndex + len < 2 ^ 64))
  | .writeByHand n data m => inferInstanceAs (Decidable ((Op.writeByHand n data m).Admissible b))
  | .readFd (some data) => inferInstanceAs (Decidable (data.length ≤ b.writableBytes + extraSize))
  | .retrieve _ | .retrieveAsString _ | .retrieveAllAsString | .retrieveAll | .writeFd _
  | .readFd none => isTrue trivial

/-- A `retrieveAsString` asks for readable bytes only. -/
def Op.Within (b : Buffer) : Op → Prop
  | retrieveAsString len => len ≤ b.readableBytes
  | _ => True

instance (b : Buffer) : ∀ op : Op, Decidable (op.Within b)
  | .retrieveAsString len => inferInstanceAs (Decidable (len ≤ b.readableBytes))
  | .append _ | .retrieve _ | .retrieveAllAsString | .retrieveAll | .ensureWritableBytes _
  | .writeByHand _ _ _ | .readFd _ | .writeFd _ => isTrue trivial

/-- The bytes a call puts in. -/
def Op.adds : Op → List Byte
  | append data => data
  | writeByHand _ data m => data.take m
  | readFd (some data) => data
  | _ => []

/-- The bytes a call removes without handing them out. -/
def Op.drops (q : List Byte) : Op → List Byte
  | retrieve len => q.take len
  | retrieveAll => q
  | writeFd n => if n < 0 then [] else q.take n.toNat
  | _ => []

/-- A buffer, with all that was put into it and all that was taken from it. -/
structure Account where
  buffer : Buffer
  appended : List Byte
  taken : List Byte
  deriving DecidableEq, Repr

def Account.call (x : Account) (op : Op) : Except Fault Account := do
  let (b, msg) ← op.onBuffer x.buffer
  return ⟨b, x.appended ++ op.adds, x.taken ++ msg.getD (op.drops x.buffer.readable)⟩

/-- The calls of a program on the buffers it holds. -/
def accountStep (xs : List Account) : Call → Except Fault (List Account)
  | .construct n => do
    let b ← Buffer.construct n
    return xs ++ [⟨b, [], []⟩]
  | .on i op =>
    match xs[i]? with
    | none => .ok xs
    | some x => do
      let x' ← x.call op
      return xs.set i x'
  | .swap i j =>
    match xs[i]?, xs[j]? with
    | some x, some y =>
      .ok ((xs.set i { y with buffer := (x.buffer.swap y.buffer).1 }).set j
        { x with buffer := (x.buffer.swap y.buffer).2 })
    | _, _ => .ok xs

/-- The promises about a call. -/
def AllowedCall (xs : List Account) : Call → Prop
  | .construct n => cheapPrepend + n < 2 ^ 64
  | .on i op => ∀ x ∈ xs[i]?, op.Allowed x.buffer
  | .swap _ _ => True

instance (xs : List Account) : ∀ c : Call, Decidable (AllowedCall xs c)
  | .construct n => inferInstanceAs (Decidable (cheapPrepend + n < 2 ^ 64))
  | .on i op => inferInstanceAs (Decidable (∀ x ∈ xs[i]?, op.Allowed x.buffer))
  | .swap _ _ => isTrue trivial

def WithinCall (xs : List Account) : Call → Prop
  | .on i op => ∀ x ∈ xs[i]?, op.Within x.buffer
  | _ => True

instance (xs : List Account) : ∀ c : Call, Decidable (WithinCall xs c)
  | .on i op => inferInstanceAs (Decidable (∀ x ∈ xs[i]?, op.Within x.buffer))
  | .construct _ | .swap _ _ => isTrue trivial

/-- `retrieveAsString(len)` returns the first `min(len, readableBytes())` readable bytes, and these
are the bytes `retrieve(len)` removes. -/
def ExactRetrieval (b : Buffer) (len : Nat) : Prop :=
  ∃ msg, b.retrieveAsString len = .ok (msg, b.retrieve len) ∧
    msg = b.readable.take (min len b.readableBytes) ∧ msg ++ (b.retrieve len).readable = b.readable

/-! ## One call -/

variable {b b' : Buffer} {op : Op}

/-- **One retrieval.** -/
theorem exactRetrieval_iff (h : Sound b) (len : Nat) : ExactRetrieval b len ↔ len ≤ b.readableBytes := by
  constructor
  · rintro ⟨msg, he, hmsg, -⟩
    -- the string has the length it was asked for, wherever its bytes come from
    have hlen : msg.length = len := by
      unfold Buffer.retrieveAsString peek vecRead at he
      split at he
      · rename_i hle
        obtain ⟨rfl, -⟩ := Prod.mk.inj (Except.ok.inj he)
        rw [List.length_take, List.length_drop]
        omega
      · exact absurd he (by simp [bind, Except.bind])
    rw [hmsg, List.length_take] at hlen
    omega
  · intro hle
    have hle₀ : 0 + len ≤ b.readable.length := by
      rw [← h.toWf.readableBytes_eq_length]
      omega
    refine ⟨b.readable.take len, ?_, ?_, ?_⟩
    · unfold Buffer.retrieveAsString
      rw [peek_eq h.toWf hle₀, ok_bind, List.drop_zero]
      rfl
    · rw [Nat.min_eq_left hle]
    · rw [readable_retrieve h.toWf, List.take_append_drop]

theorem retrieveAsString_inv {len : Nat} {msg : List Byte} (he : b.retrieveAsString len = .ok (msg, b')) :
    b.peek 0 len = .ok msg ∧ b' = b.retrieve len := by
  unfold Buffer.retrieveAsString at he
  obtain ⟨msg', hpeek, hret⟩ := bind_ok_inv he
  obtain ⟨rfl, rfl⟩ := Prod.mk.inj (Except.ok.inj hret)
  exact ⟨hpeek, rfl⟩

/-- **A call that returned** did to the buffer what it does to the queue, and handed out what the
queue lost if it asked for readable bytes. -/
theorem Op.onBuffer_returned (h : Sound b) (ha : op.Allowed b) {msg : Option (List Byte)}
    (he : op.onBuffer b = .ok (b', msg)) :
    Sound b' ∧ b'.readable = (op.onQueue b.readable).1 ∧
      (op.Within b → msg = (op.onQueue b.readable).2) := by
  have hall := retrieveAll_sound h.roomy.usable
  cases op with
  | append data =>
    obtain ⟨b₁, happ, hret⟩ := bind_ok_inv he
    obtain ⟨rfl, rfl⟩ := Prod.mk.inj (Except.ok.inj hret)
    obtain ⟨hs, hread⟩ := append_sound h ha happ
    exact ⟨hs, hread, fun _ => rfl⟩
  | retrieve len =>
    obtain ⟨rfl, rfl⟩ := Prod.mk.inj (Except.ok.inj he)
    refine ⟨retrieve_sound h len, ?_, fun _ => rfl⟩
    rw [readable_retrieve h.toWf]
    exact (drop_min _ _).symm
  | retrieveAsString len =>
    obtain ⟨⟨msg', b₁⟩, hstr, hret⟩ := bind_ok_inv he
    obtain ⟨rfl, rfl⟩ := Prod.mk.inj (Except.ok.inj hret)
    obtain ⟨hpeek, rfl⟩ := retrieveAsString_inv hstr
    refine ⟨retrieve_sound h len, ?_, fun hle => ?_⟩
    · rw [readable_retrieve h.toWf]
      exact (drop_min _ _).symm
    · obtain ⟨msg, hstr', rfl, -⟩ := (exactRetrieval_iff h len).mpr hle
      rw [hstr] at hstr'
      obtain ⟨rfl, -⟩ := Prod.mk.inj (Except.ok.inj hstr')
      rw [h.toWf.readableBytes_eq_length]
      rfl
  | retrieveAllAsString =>
    simp only [onBuffer, Buffer.retrieveAllAsString, peek_all h, ok_bind] at he
    obtain ⟨rfl, rfl⟩ := Prod.mk.inj (Except.ok.inj he)
    exact ⟨hall.1, hall.2, fun _ => rfl⟩
  | retrieveAll =>
    obtain ⟨rfl, rfl⟩ := Prod.mk.inj (Except.ok.inj he)
    exact ⟨hall.1, hall.2, fun _ => rfl⟩
  | ensureWritableBytes len =>
    obtain ⟨b₁, hens, hret⟩ := bind_ok_inv he
    obtain ⟨rfl, rfl⟩ := Prod.mk.inj (Except.ok.inj hret)
    obtain ⟨hr, hread, -, -, hcur⟩ := ensureWritableBytes_ok h.roomy ha hens
    have hprep := h.prepend_le
    exact ⟨⟨hr.toWf, by omega⟩, hread, fun _ => rfl⟩
  | writeByHand n data m =>
    obtain ⟨b₁, he₁, hs, hread⟩ := Op.onBuffer_onQueue h ha
    rw [he] at he₁
    obtain ⟨rfl, rfl⟩ := Prod.mk.inj (Except.ok.inj he₁)
    exact ⟨hs, hread, fun _ => rfl⟩
  | readFd delivered =>
    cases delivered with
    | none =>
      obtain ⟨rfl, rfl⟩ := Prod.mk.inj (Except.ok.inj he)
      exact ⟨h, rfl, fun _ => rfl⟩
    | some data =>
      obtain ⟨b₁, hfd, hret⟩ := bind_ok_inv he
      obtain ⟨rfl, rfl⟩ := Prod.mk.inj (Except.ok.inj hret)
      obtain ⟨hr, hread, hkeep⟩ := readFd_ok h.roomy ha (Or.inl h.prepend_le) hfd
      exact ⟨⟨hr.toWf, hkeep h.prepend_le⟩, hread, fun _ => rfl⟩
  | writeFd n =>
    obtain ⟨rfl, rfl⟩ := Prod.mk.inj (Except.ok.inj he)
    unfold Buffer.writeFd
    simp only [onQueue]
    split
    · exact ⟨h, rfl, fun _ => rfl⟩
    · exact ⟨retrieve_sound h _, readable_retrieve h.toWf _, fun _ => rfl⟩

/-- Nothing is lost and nothing is made up on the queue. -/
theorem Op.onQueue_balance (q : List Byte) (op : Op) :
    q ++ op.adds = (op.onQueue q).2.getD (op.drops q) ++ (op.onQueue q).1 := by
  cases op with
  | retrieve len =>
    change q ++ [] = q.take len ++ q.drop (min len q.length)
    rw [drop_min, List.take_append_drop, List.append_nil]
  | retrieveAsString len =>
    change q ++ [] = q.take (min len q.length) ++ q.drop (min len q.length)
    rw [List.take_append_drop, List.append_nil]
  | writeFd n =>
    simp only [onQueue, adds, drops, List.append_nil]
    split
    · rfl
    · exact (List.take_append_drop _ _).symm
  | readFd delivered =>
    cases delivered with
    | none => exact List.append_nil q
    | some data => rfl
  | ensureWritableBytes len => exact List.append_nil q
  | append data => rfl
  | writeByHand n data m => rfl
  | retrieveAllAsString => rfl
  | retrieveAll => rfl

/-! ## Runs -/

/-- What was taken is what was put in, from the front; what is left is readable. -/
def Account.Balanced (x : Account) : Prop := x.appended = x.taken ++ x.buffer.readable

theorem Account.call_sound {x x' : Account} (h : Sound x.buffer) (ha : op.Allowed x.buffer)
    (he : x.call op = .ok x') :
    Sound x'.buffer ∧ (op.Within x.buffer → x.Balanced → x'.Balanced) := by
  unfold Account.call at he
  obtain ⟨⟨b₁, msg⟩, hop, hret⟩ := bind_ok_inv he
  obtain rfl := Except.ok.inj hret
  obtain ⟨hs, hread, hmsg⟩ := Op.onBuffer_returned h ha hop
  refine ⟨hs, fun hw hbal => ?_⟩
  unfold Balanced at hbal ⊢
  simp only
  rw [hmsg hw, hread, hbal, List.append_assoc, List.append_assoc, Op.onQueue_balance]

/-- What holds of new buffers, and is kept by the calls on one, holds of all of them. -/
theorem accountStep_rule {P : Account → Prop} {xs xs' : List Account} {c : Call}
    (hnew : ∀ {n b}, c = .construct n → Buffer.construct n = .ok b → P ⟨b, [], []⟩)
    (hcall : ∀ {i op x x'}, c = .on i op → xs[i]? = some x → P x → x.call op = .ok x' → P x')
    (h : ∀ x ∈ xs, P x) (he : accountStep xs c = .ok xs') : ∀ x ∈ xs', P x := by
  cases c with
  | construct n =>
    obtain ⟨b, hb, hret⟩ := bind_ok_inv he
    obtain rfl := Except.ok.inj hret
    intro x hx
    rcases List.mem_append.mp hx with hold | hlast
    · exact h x hold
    · rw [List.mem_singleton.mp hlast]
      exact hnew rfl hb
  | on i op =>
    simp only [accountStep] at he
    split at he
    · obtain rfl := Except.ok.inj he
      exact h
    · rename_i x hi
      obtain ⟨x', hx', hret⟩ := bind_ok_inv he
      obtain rfl := Except.ok.inj hret
      intro z hz
      rcases List.mem_or_eq_of_mem_set hz with hold | rfl
      · exact h z hold
      · exact hcall rfl hi (h x (List.mem_of_getElem? hi)) hx'
  | swap i j =>
    simp only [accountStep] at he
    split at he
    · rename_i x y hi hj
      obtain rfl := Except.ok.inj he
      intro z hz
      rcases List.mem_or_eq_of_mem_set hz with hset | rfl
      · rcases List.mem_or_eq_of_mem_set hset with hold | rfl
        · exact h z hold
        · exact h y (List.mem_of_getElem? hj)
      · exact h x (List.mem_of_getElem? hi)
    · obtain rfl := Except.ok.inj he
      exact h

theorem accountStep_sound {xs xs' : List Account} {c : Call} (h : ∀ x ∈ xs, Sound x.buffer)
    (ha : AllowedCall xs c) (he : accountStep xs c = .ok xs') : ∀ x ∈ xs', Sound x.buffer := by
  refine accountStep_rule (P := fun x => Sound x.buffer) ?_ ?_ h he
  · rintro n b rfl hb
    exact (construct_sound ha hb).1
  · rintro i op x x' rfl hi hx hx'
    exact (Account.call_sound hx (ha x hi) hx').1

theorem accountStep_balanced {xs xs' : List Account} {c : Call}
    (h : ∀ x ∈ xs, Sound x.buffer ∧ x.Balanced) (ha : AllowedCall xs c ∧ WithinCall xs c)
    (he : accountStep xs c = .ok xs') : ∀ x ∈ xs', Sound x.buffer ∧ x.Balanced := by
  refine accountStep_rule (P := fun x => Sound x.buffer ∧ x.Balanced) ?_ ?_ h he
  · rintro n b rfl hb
    obtain ⟨hs, hread⟩ := construct_sound ha.1 hb
    exact ⟨hs, hread.symm⟩
  · rintro i op x x' rfl hi hx hx'
    obtain ⟨hs, hbal⟩ := Account.call_sound hx.1 (ha.1 x hi) hx'
    exact ⟨hs, hbal (ha.2 x hi) hx.2⟩

/-- **Retrieval is exact within the readable bytes, and only there.** For every buffer of every state
reached and every `len`, `retrieveAsString(len)` returns the readable bytes that `retrieve(len)`
removes if and only if `len` is at most `readableBytes()`. In a run that keeps to such lengths, what
was taken from a buffer, followed by what is readable, is what was put into it. -/
theorem retrieval_exact_iff {calls : List Call} {xs : List Account}
    (hall : Along accountStep AllowedCall [] calls) (hrun : run accountStep [] calls = .ok xs) :
    (∀ x ∈ xs, ∀ len, ExactRetrieval x.buffer len ↔ len ≤ x.buffer.readableBytes) ∧
      (Along accountStep WithinCall [] calls →
        ∀ x ∈ xs, x.taken <+: x.appended ∧ x.appended = x.taken ++ x.buffer.readable) := by
  constructor
  · have hsound : ∀ x ∈ xs, Sound x.buffer :=
      run_invariant (I := fun xs => ∀ x ∈ xs, Sound x.buffer) accountStep_sound (by simp) hall hrun
    exact fun x hx len => exactRetrieval_iff (hsound x hx) len
  · intro hwithin x hx
    have hbal : ∀ x ∈ xs, Sound x.buffer ∧ x.Balanced :=
      run_invariant (I := fun xs => ∀ x ∈ xs, Sound x.buffer ∧ x.Balanced) accountStep_balanced
        (by simp) (hall.and hwithin) hrun
    exact ⟨⟨x.buffer.readable, (hbal x hx).2.symm⟩, (hbal x hx).2⟩

/-- Two buffers, filled from a program and from a socket, swapped, and emptied in pieces. -/
def inPieces : List Call :=
  [.construct 4, .construct 0, .on 0 (.append [1, 2, 3]), .on 1 (.readFd (some [7, 8])),
    .on 0 (.retrieveAsString 2), .swap 0 1, .on 0 (.ensureWritableBytes 9), .on 0 (.retrieve 1),
    .on 1 (.append [4, 5]), .on 1 (.retrieveAsString 3)]

theorem retrieval_exact_iff_inPieces :
    ∃ xs, run accountStep [] inPieces = .ok xs ∧
      xs.map Account.taken = [[7], [1, 2, 3, 4, 5]] ∧
      (∀ x ∈ xs, ∀ len, ExactRetrieval x.buffer len ↔ len ≤ x.buffer.readableBytes) ∧
      ∀ x ∈ xs, x.taken <+: x.appended := by
  obtain ⟨xs, hrun, htaken⟩ :
      ∃ xs, run accountStep [] inPieces = .ok xs ∧
        xs.map Account.taken = [[7], [1, 2, 3, 4, 5]] := by decide +kernel
  have hall : Along accountStep AllowedCall [] inPieces := by decide +kernel
  have hwithin : Along accountStep WithinCall [] inPieces := by decide +kernel
  obtain ⟨hexact, hbal⟩ := retrieval_exact_iff hall hrun
  exact ⟨xs, hrun, htaken, hexact, fun x hx => (hbal hwithin x hx).1⟩

/-- A message of three bytes is read and one byte follows it. A request for three hands out the byte
and two of the old message behind it. -/
theorem retrieval_stale_bytes :
    ∃ xs, run accountStep [] [.construct 8, .on 0 (.append [1, 2, 3]), .on 0 (.retrieveAsString 3),
        .on 0 (.append [4])] = .ok xs ∧ xs.length = 1 ∧
      (∀ x ∈ xs, x.buffer.readable = [4] ∧ ¬ ExactRetrieval x.buffer 3) ∧
      ∃ ys, accountStep xs (.on 0 (.retrieveAsString 3)) = .ok ys ∧ ys.length = 1 ∧
        ∀ y ∈ ys, y.appended = [1, 2, 3, 4] ∧ y.taken = [1, 2, 3, 4, 2, 3] ∧
          ¬ y.taken <+: y.appended := by
  obtain ⟨xs, hrun, hone, hread, ys, hstep, hone', hys⟩ :
      ∃ xs, run accountStep [] [.construct 8, .on 0 (.append [1, 2, 3]),
          .on 0 (.retrieveAsString 3), .on 0 (.append [4])] = .ok xs ∧ xs.length = 1 ∧
        (∀ x ∈ xs, x.buffer.readable = [4] ∧
          x.buffer.retrieveAsString 3 = .ok ([4, 2, 3], x.buffer.retrieve 3)) ∧
        ∃ ys, accountStep xs (.on 0 (.retrieveAsString 3)) = .ok ys ∧ ys.length = 1 ∧
          ∀ y ∈ ys, y.appended = [1, 2, 3, 4] ∧ y.taken = [1, 2, 3, 4, 2, 3] := by decide +kernel
  refine ⟨xs, hrun, hone, ?_, ys, hstep, hone', ?_⟩
  · intro x hx
    obtain ⟨hx4, hstr⟩ := hread x hx
    refine ⟨hx4, ?_⟩
    rintro ⟨msg, he, hmsg, -⟩
    rw [hstr] at he
    obtain ⟨rfl, -⟩ := Prod.mk.inj (Except.ok.inj he)
    rw [hx4] at hmsg
    have hlen := congrArg List.length hmsg
    rw [List.length_take] at hlen
    exact absurd hlen (by simp; omega)
  · intro y hy
    obtain ⟨happ, htaken⟩ := hys y hy
    refine ⟨happ, htaken, ?_⟩
    rw [happ, htaken]
    decide

end HyperMuduo.Net.Queue
